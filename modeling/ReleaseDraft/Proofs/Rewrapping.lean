import ReleaseDraft.Proofs.Wrapping

/-!
# Wrapping again changes nothing

Lines are *packed* (`Layout.Packed`) when each of them fits and the first word of each has no room
on the line before.  Wrapping packs a text, also where it cuts a word, as the line before a cut is
full (`Layout.packed_wrapChars`).

When the lines are read as a text again, the pieces of a cut word are words of their own.  None of
them is longer than a line, so nothing is cut any more: the words of a packed line fill that line
(`Layout.placeWords_joined`), and the first word of the next one starts a new line
(`Layout.placeWords_of_packed`).  Hence wrapping gives the same lines again, whatever blanks stand
between them (`Layout.wrap_spread`).
-/

namespace ReleaseDraft

namespace Text

/-! ### Words of a text in parts -/

/-- Blanks that keep words apart. -/
structure Gap where
  text : String
  ne_empty : text ≠ ""
  blank : text.toList.all isBlank = true

variable {word : List Char}

theorem words_append_cons {c : Char} (h : isBlank c = true) (text text' : List Char) :
    words (text ++ c :: text') = words text ++ words text' := by
  rw [words, List.splitOnP_append_cons _ _ h, List.filter_append]
  rfl

theorem words_append_of_blank {blanks : List Char} (h : ∀ c ∈ blanks, isBlank c = true)
    (text : List Char) : words (blanks ++ text) = words text := by
  induction blanks with
  | nil => rfl
  | cons c blanks ih =>
    obtain ⟨hc, hblanks⟩ := List.forall_mem_cons.1 h
    rw [← ih hblanks]
    exact words_append_cons hc [] (blanks ++ text)

/-- A gap ends a word, and is none itself. -/
theorem words_append_gap (gap : Gap) (text text' : List Char) :
    words (text ++ (gap.text.toList ++ text')) = words text ++ words text' := by
  obtain ⟨c, blanks, hgap⟩ : ∃ c blanks, gap.text.toList = c :: blanks :=
    List.exists_cons_of_ne_nil (by simpa using gap.ne_empty)
  have hblank : ∀ d ∈ c :: blanks, isBlank d = true := by
    intro d hd
    exact List.all_eq_true.1 gap.blank d (hgap ▸ hd)
  obtain ⟨hc, hblanks⟩ := List.forall_mem_cons.1 hblank
  rw [hgap, List.cons_append, words_append_cons hc, words_append_of_blank hblanks]

theorem IsWord.words_eq (h : IsWord word) : words word = [word] := by
  rw [words, List.splitOnP_eq_singleton h.not_blank]
  simpa using h.ne_nil

end Text

namespace Layout

open Text (IsWord Gap)

variable {width : Nat} {line line' next word : List Char} {full lines words rest : List (List Char)}

/-! ### Tidy lines are words with single spaces -/

/-- The first word of a tidy line. -/
def firstWord (line : List Char) : List Char := line.takeWhile (· != ' ')

theorem firstWord_append_space (line rest : List Char) :
    firstWord (line ++ ' ' :: rest) = firstWord line := by
  unfold firstWord
  induction line with
  | nil => rfl
  | cons c line ih => simp only [List.cons_append, List.takeWhile_cons, ih]

theorem firstWord_of_isWord (h : IsWord word) : firstWord word = word := by
  refine List.takeWhile_eq_self_iff.2 fun c hc => ?_
  simpa using h.ne_space hc

/-- A tidy line is a word, or a word and a tidy line after a space. -/
theorem IsTidy.isWord_or_append (h : IsTidy line) :
    IsWord line ∨ ∃ word rest, line = word ++ ' ' :: rest ∧ IsWord word ∧ IsTidy rest := by
  by_cases hspace : ' ' ∈ line
  · right
    obtain ⟨word, rest, rfl, hword⟩ := List.eq_append_cons_of_mem hspace
    obtain ⟨-, hchain, -⟩ := List.isChain_append.1 h.single
    obtain ⟨hsingle, hrest⟩ := List.isChain_cons.1 hchain
    have hne : rest ≠ [] := by
      rintro rfl
      exact h.last (by simp)
    refine ⟨word, rest, rfl, ⟨?_, ?_⟩, ⟨hne, ?_, ?_, hrest, ?_⟩⟩
    · rintro rfl
      exact h.head rfl
    · intro c hc
      by_contra hblank
      have hc' := h.blank c (List.mem_append_left _ hc) (by simpa using hblank)
      exact hword (hc' ▸ hc)
    · intro hhead
      exact hsingle ' ' hhead ⟨rfl, rfl⟩
    · intro hlast
      refine h.last ?_
      rwa [List.getLast?_append_cons, List.getLast?_cons_of_ne_nil hne]
    · intro c hc
      exact h.blank c (List.mem_append_right _ (List.mem_cons_of_mem _ hc))
  · left
    refine ⟨h.ne_nil, fun c hc => ?_⟩
    by_contra hblank
    have hc' := h.blank c hc (by simpa using hblank)
    exact hspace (hc' ▸ hc)

/-- **A tidy line is its words** with single spaces between them. -/
theorem IsTidy.exists_words (h : IsTidy line) :
    ∃ rest, Text.words line = firstWord line :: rest ∧ joined (firstWord line :: rest) = line := by
  induction hlength : line.length using Nat.strong_induction_on generalizing line with
  | _ n ih =>
    obtain hword | ⟨word, after, rfl, hword, hafter⟩ := h.isWord_or_append
    · rw [firstWord_of_isWord hword]
      exact ⟨[], hword.words_eq, List.intercalate_singleton⟩
    · obtain ⟨rest, hwords, hjoined⟩ := ih after.length (by simp [← hlength]; omega) hafter rfl
      rw [firstWord_append_space, firstWord_of_isWord hword]
      refine ⟨Text.words after, ?_, ?_⟩
      · rw [Text.words_append_cons Text.isBlank_space, hword.words_eq]
        rfl
      · rw [hwords, joined, List.intercalate_cons_cons]
        show word ++ [' '] ++ joined (firstWord after :: rest) = word ++ ' ' :: after
        rw [hjoined, List.append_assoc]
        rfl

/-! ### Packed lines -/

/-- The first word of the next line has no room on this one. -/
def HasNoRoom (width : Nat) (line next : List Char) : Prop :=
  width < (lead line ++ firstWord next).length

/-- Lines that fit, each with no room for the first word of the next one. -/
structure Packed (width : Nat) (lines : List (List Char)) : Prop where
  fits : ∀ line ∈ lines, Fits width line
  noRoom : lines.IsChain (HasNoRoom width)

/-- The first of some lines has the first word of the line that was current before them. -/
def Opens (line : List Char) (lines : List (List Char)) : Prop :=
  ∃ first more, lines = first :: more ∧ firstWord first = firstWord line

theorem Places.opens (h : Places width line word full line') (hline : line ≠ [])
    (hopens : Opens line' lines) : Opens line (full ++ lines) := by
  cases h with
  | fits _ =>
    obtain ⟨first, more, rfl, hfirst⟩ := hopens
    refine ⟨first, more, rfl, ?_⟩
    rw [hfirst, lead_of_ne_nil hline, List.append_assoc]
    exact firstWord_append_space line word
  | nextLine => exact ⟨line, _, rfl, rfl⟩
  | @cut _ head =>
    refine ⟨lead line ++ head, _, rfl, ?_⟩
    rw [lead_of_ne_nil hline, List.append_assoc]
    exact firstWord_append_space line head

/-- A word that goes to the next line, or its first piece, had no room on this one. -/
theorem Places.hasNoRoom (h : Places width [] word full line') (hword : IsWord word)
    (hline : line ≠ []) (hlong : width < (lead line ++ word).length) (hopens : Opens line' lines) :
    ∀ next ∈ (full ++ lines).head?, HasNoRoom width line next := by
  intro next hnext
  show width < (lead line ++ firstWord next).length
  cases h with
  | fits _ =>
    obtain ⟨first, more, rfl, hfirst⟩ := hopens
    obtain rfl : first = next := by simpa using hnext
    rw [hfirst, lead_nil, List.nil_append, firstWord_of_isWord hword]
    exact hlong
  | nextLine hne => exact absurd rfl hne
  | @cut _ head tail full _ hhead _ _ hlength =>
    obtain rfl : head = next := by simpa using hnext
    rw [firstWord_of_isWord (hword.of_subset hhead (by simp)), lead_of_ne_nil hline]
    simp only [lead_nil, List.nil_append, List.length_append, List.length_singleton] at hlength ⊢
    omega

/-- **Placing a word packs the lines** that it finishes. -/
theorem Places.noRoom (h : Places width line word full line') (hword : IsWord word)
    (hlines : lines.IsChain (HasNoRoom width)) (hopens : Opens line' lines) :
    (full ++ lines).IsChain (HasNoRoom width) := by
  induction h with
  | fits => exact hlines
  | nextLine hne hlong _ hplaces ih =>
    exact List.isChain_cons.2
      ⟨hplaces.hasNoRoom hword hne hlong hopens, ih hword hopens⟩
  | @cut line head tail full line' hhead htail _ hlength _ ih =>
    have hpiece := hword.of_subset htail (by simp)
    refine List.isChain_cons.2 ⟨fun next _ => ?_, ih hpiece hopens⟩
    -- the line is full, so there is no room for anything
    have hne : lead line ++ head ≠ [] := List.append_ne_nil_of_right_ne_nil _ hhead
    show width < (lead (lead line ++ head) ++ firstWord next).length
    rw [lead_of_ne_nil hne, List.length_append, List.length_append, hlength, List.length_singleton]
    omega

theorem opens_placeWords (hwidth : 0 < width) (hwords : ∀ word ∈ words, IsWord word)
    (hline : line ≠ []) : Opens line (placeWords width line words) := by
  induction words generalizing line with
  | nil =>
    rw [placeWords, if_neg (by simpa using hline)]
    exact ⟨line, [], rfl, rfl⟩
  | cons word rest ih =>
    obtain ⟨hword, hrest⟩ := List.forall_mem_cons.1 hwords
    have hplaces := places_placeWord hwidth line word
    exact hplaces.opens hline (ih hrest (hplaces.ne_nil hword.ne_nil))

theorem noRoom_placeWords (hwidth : 0 < width) (hwords : ∀ word ∈ words, IsWord word) :
    (placeWords width line words).IsChain (HasNoRoom width) := by
  induction words generalizing line with
  | nil =>
    rw [placeWords]
    split_ifs
    · exact .nil
    · exact .singleton line
  | cons word rest ih =>
    obtain ⟨hword, hrest⟩ := List.forall_mem_cons.1 hwords
    have hplaces := places_placeWord hwidth line word
    exact hplaces.noRoom hword (ih hrest)
      (opens_placeWords hwidth hrest (hplaces.ne_nil hword.ne_nil))

/-- **Wrapping packs lines.** -/
theorem packed_wrapChars (width : Nat) (text : List Char) :
    Packed (max width 1) (wrapChars width text) where
  fits := fits_of_mem_wrapChars
  noRoom := noRoom_placeWords (by omega) fun _ => Text.isWord_of_mem_words

/-! ### Wrapping packed lines -/

/-- Words that fit on the current line go there. -/
theorem placeWords_joined (hline : line ≠ []) (hfits : (joined (line :: words)).length ≤ width)
    (rest : List (List Char)) :
    placeWords width line (words ++ rest) = placeWords width (joined (line :: words)) rest := by
  induction words generalizing line with
  | nil => rw [joined, List.intercalate_singleton, List.nil_append]
  | cons word words ih =>
    have hjoined : joined (line :: word :: words) = joined ((lead line ++ word) :: words) := by
      rw [joined_cons_append, lead_of_ne_nil hline]
      exact List.intercalate_cons_cons
    rw [hjoined] at hfits ⊢
    have hword : (lead line).length + word.length ≤ width := by
      rw [joined_cons, List.length_append, List.length_append] at hfits
      omega
    rw [List.cons_append, placeWords, placeWord, if_pos hword]
    refine ih ?_ hfits
    simp [lead_of_ne_nil hline]

/-- After its first word, a line that fits takes its other words. -/
theorem Fits.exists_words (h : Fits width line) : ∃ others,
    Text.words line = firstWord line :: others ∧ (firstWord line).length ≤ width ∧
      ∀ rest, placeWords width (firstWord line) (others ++ rest) = placeWords width line rest := by
  obtain ⟨others, hwords, hjoined⟩ := h.tidy.exists_words
  have hfits : (joined (firstWord line :: others)).length ≤ width := by
    rw [hjoined]
    exact h.length_le
  have hfirst : IsWord (firstWord line) :=
    Text.isWord_of_mem_words (hwords ▸ List.mem_cons_self)
  refine ⟨others, hwords, ?_, fun rest => ?_⟩
  · rw [joined_cons, List.length_append] at hfits
    omega
  · rw [placeWords_joined hfirst.ne_nil hfits, hjoined]

/-- **The words of packed lines**, after those of the first line, are laid out in the same lines. -/
theorem placeWords_of_packed (h : Packed width (line :: lines)) :
    placeWords width line (lines.flatMap Text.words) = line :: lines := by
  induction lines generalizing line with
  | nil =>
    have hne := (h.fits line List.mem_cons_self).tidy.ne_nil
    rw [List.flatMap_nil, placeWords, if_neg (by simpa using hne)]
  | cons next lines ih =>
    obtain ⟨hroom, hchain⟩ := List.isChain_cons_cons.1 h.noRoom
    have hrest : Packed width (next :: lines) :=
      ⟨fun line hline => h.fits line (List.mem_cons_of_mem _ hline), hchain⟩
    obtain ⟨others, hwords, hlength, hplace⟩ := (hrest.fits next List.mem_cons_self).exists_words
    -- the first word of the next line does not fit here, and it is not cut
    have hplaced : placeWord width line (firstWord next) = ([line], firstWord next) := by
      unfold HasNoRoom at hroom
      rw [List.length_append] at hroom
      rw [placeWord, if_neg (Nat.not_le.2 hroom), if_pos hlength]
    rw [List.flatMap_cons, hwords, List.cons_append, placeWords, hplaced]
    show line :: placeWords width (firstWord next) (others ++ lines.flatMap Text.words) = _
    rw [hplace, ih hrest]

/-- **Packed lines are stable**: a text with their words is wrapped into them. -/
theorem wrapChars_of_packed {text : List Char} (h : Packed (max width 1) lines)
    (htext : Text.words text = lines.flatMap Text.words) : wrapChars width text = lines := by
  rw [wrapChars, htext]
  cases lines with
  | nil => rfl
  | cons line lines =>
    obtain ⟨others, hwords, hlength, hplace⟩ := (h.fits line List.mem_cons_self).exists_words
    have hplaced : placeWord (max width 1) [] (firstWord line) = ([], firstWord line) := by
      rw [placeWord, if_pos (by simpa using hlength)]
      rfl
    rw [List.flatMap_cons, hwords, List.cons_append, placeWords, hplaced]
    show placeWords _ (firstWord line) (others ++ lines.flatMap Text.words) = _
    rw [hplace, placeWords_of_packed h]

/-! ### Lines as a text -/

/-- The lines one after the other, with the given gaps between them. -/
def spread (gaps : Nat → Gap) : List String → String
  | [] => ""
  | [line] => line
  | line :: next :: lines => line ++ ((gaps 0).text ++ spread (fun i => gaps (i + 1)) (next :: lines))

theorem words_spread (gaps : Nat → Gap) (lines : List String) :
    Text.words (spread gaps lines).toList = (lines.map String.toList).flatMap Text.words := by
  induction lines generalizing gaps with
  | nil => rfl
  | cons line lines ih =>
    cases lines with
    | nil => simp [spread]
    | cons next lines =>
      rw [spread, String.toList_append, String.toList_append, Text.words_append_gap, ih]
      rfl

/-- **Wrapping again changes nothing.**  If the lines of a wrapped text are put one after the other,
with any blanks between them, and wrapped at the same width, the lines are the same, also where
words of the text were cut. -/
theorem wrap_spread (width : Nat) (text : String) (gaps : Nat → Gap) :
    wrap width (spread gaps (wrap width text)) = wrap width text := by
  have hlines : (wrap width text).map String.toList = wrapChars width text.toList := by
    simp [wrap, Function.comp_def]
  have hpacked := packed_wrapChars width text.toList
  have hwords := words_spread gaps (wrap width text)
  rw [hlines] at hwords
  rw [wrap, wrapChars_of_packed hpacked hwords]
  rfl

end Layout

end ReleaseDraft

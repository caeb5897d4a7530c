import Mathlib.Data.List.Chain
import Mathlib.Data.List.DropRight
import ReleaseDraft.Layout.Wrap

/-!
# Wrapping is a correct layout

What it means to lay out a text in lines is said without a width: `Layout.Breaks` takes a text
apart, where each line ends at the end of the text, in place of a space, or inside a word where that
is allowed.  `Layout.IsTidy` says that a line has no needless space.

Placing a word after the current line takes a few turns (`Layout.Places`): the word fits, or the
line is finished without it, or the word is cut to fill the line.  Each turn keeps the lines tidy
and takes the words apart in the way that `Breaks` allows, and so do all of them
(`Places.fits_all`, `Places.breaks`).  Hence `Layout.wrap` gives the words of a text, joined by
single spaces, with line breaks for some of the spaces and inside words longer than a line
(`wrap_breaks`).
-/

namespace ReleaseDraft

/-- What is filtered of joined lists when nothing of the separator is. -/
theorem filter_intercalate {α : Type} {p : α → Bool} {separator : List α}
    (h : separator.filter p = []) (lists : List (List α)) :
    (separator.intercalate lists).filter p = lists.flatMap (List.filter p) := by
  induction lists with
  | nil => rfl
  | cons list lists ih =>
    cases lists with
    | nil => simp
    | cons next lists =>
      rw [List.intercalate_cons_cons, List.filter_append, List.filter_append, h, ih,
        List.append_nil]
      rfl

/-- The pieces between separators have no separator. -/
theorem eq_false_of_mem_splitOnP {α : Type} {p : α → Bool} {list piece : List α}
    (h : piece ∈ list.splitOnP p) : ∀ x ∈ piece, p x = false := by
  induction list generalizing piece with
  | nil =>
    rw [List.splitOnP_nil, List.mem_singleton] at h
    simp [h]
  | cons x list ih =>
    rw [List.splitOnP_cons_eq_if_modifyHead] at h
    split_ifs at h with hx
    · rcases List.mem_cons.1 h with rfl | h
      · simp
      · exact ih h
    · -- the element joins the first piece of the rest
      obtain ⟨first, rest, hsplit⟩ := List.exists_cons_of_ne_nil (List.splitOnP_ne_nil p list)
      rw [hsplit] at h ih
      rcases List.mem_cons.1 h with rfl | h
      · simpa [hx] using ih List.mem_cons_self
      · exact ih (List.mem_cons_of_mem _ h)

/-- The pieces between separators have all the rest. -/
theorem flatten_splitOnP {α : Type} (p : α → Bool) (list : List α) :
    (list.splitOnP p).flatten = list.filter (!p ·) := by
  induction list with
  | nil => rfl
  | cons x list ih =>
    rw [List.splitOnP_cons_eq_if_modifyHead]
    split_ifs with hx
    · simpa [hx] using ih
    · obtain ⟨first, rest, hsplit⟩ := List.exists_cons_of_ne_nil (List.splitOnP_ne_nil p list)
      rw [hsplit] at ih ⊢
      simpa [hx] using ih

/-! ### Words -/

namespace Text

/-- A run of characters that are not blank. -/
structure IsWord (word : List Char) : Prop where
  ne_nil : word ≠ []
  not_blank : ∀ c ∈ word, isBlank c = false

theorem isWord_of_mem_words {text word : List Char} (h : word ∈ words text) : IsWord word := by
  obtain ⟨hsplit, hne⟩ := List.mem_filter.1 h
  exact ⟨by simpa using hne, eq_false_of_mem_splitOnP hsplit⟩

theorem IsWord.of_subset {word piece : List Char} (h : IsWord word) (hne : piece ≠ [])
    (hsub : piece ⊆ word) : IsWord piece :=
  ⟨hne, fun c hc => h.not_blank c (hsub hc)⟩

/-- The text without its blanks. -/
def squash (text : List Char) : List Char := text.filter (!isBlank ·)

theorem squash_append (text text' : List Char) :
    squash (text ++ text') = squash text ++ squash text' :=
  List.filter_append _ _

/-- The words of a text have all of it but the blanks. -/
theorem flatten_words (text : List Char) : (words text).flatten = squash text := by
  rw [words, List.flatten_filter_not_isEmpty, flatten_splitOnP, squash]

theorem squash_eq_nil_iff {text : List Char} : squash text = [] ↔ words text = [] := by
  rw [← flatten_words, List.flatten_eq_nil_iff]
  constructor
  · intro h
    refine List.eq_nil_iff_forall_not_mem.2 fun word hword => ?_
    exact (isWord_of_mem_words hword).ne_nil (h word hword)
  · intro h
    simp [h]

theorem isBlank_space : isBlank ' ' = true := by decide

theorem IsWord.ne_space {word : List Char} (h : IsWord word) {c : Char} (hc : c ∈ word) :
    c ≠ ' ' := by
  rintro rfl
  simpa [isBlank_space] using h.not_blank _ hc

end Text

namespace Layout

open Text (IsWord)

/-! ### Layouts of a text -/

/-- Words with a single space between two of them. -/
def joined (words : List (List Char)) : List Char := [' '].intercalate words

/-- The place between `before` and `after` is inside a word that is longer than `width`. -/
def InsideLongWord (width : Nat) (before after : List Char) : Prop :=
  before.rtakeWhile (· != ' ') ≠ [] ∧ after.takeWhile (· != ' ') ≠ [] ∧
    width < (before.rtakeWhile (· != ' ') ++ after.takeWhile (· != ' ')).length

/-- The text `text`, which stands after `before`, is laid out in lines.  Every line but the last
ends in place of a space, or at a cut if `mayCut` allows one after that line, between what stands
before and what stands after it. -/
inductive Breaks (mayCut : (line before after : List Char) → Prop) :
    (before text : List Char) → List (List Char) → Prop
  | last {before line} : Breaks mayCut before line [line]
  | space {before line after lines} : Breaks mayCut (before ++ line ++ [' ']) after lines →
      Breaks mayCut before (line ++ ' ' :: after) (line :: lines)
  | cut {before line after lines} : mayCut line (before ++ line) after →
      Breaks mayCut (before ++ line) after lines →
      Breaks mayCut before (line ++ after) (line :: lines)

/-- A cut inside a word longer than `width`, after a line of `width` characters. -/
def IsFullCut (width : Nat) (line before after : List Char) : Prop :=
  line.length = width ∧ InsideLongWord width before after

/-- A line that has text and no needless space: no leading and no trailing one, no two in a row, and
no other blank. -/
structure IsTidy (line : List Char) : Prop where
  ne_nil : line ≠ []
  head : line.head? ≠ some ' '
  last : line.getLast? ≠ some ' '
  single : line.IsChain fun a b => ¬(a = ' ' ∧ b = ' ')
  blank : ∀ c ∈ line, Text.isBlank c = true → c = ' '

/-- A tidy line of at most `width` characters. -/
structure Fits (width : Nat) (line : List Char) : Prop where
  tidy : IsTidy line
  length_le : line.length ≤ width

theorem joined_cons_append (start word : List Char) (rest : List (List Char)) :
    joined ((start ++ word) :: rest) = start ++ joined (word :: rest) := by
  cases rest with
  | nil => simp [joined]
  | cons next rest => simp [joined, List.intercalate_cons_cons]

/-! ### Turns of placing a word -/

/-- Placing a word after the current line finishes the lines `full` and leaves the current line
`line'`. -/
inductive Places (width : Nat) :
    (line word : List Char) → (full : List (List Char)) → (line' : List Char) → Prop
  /-- The word fits. -/
  | fits {line word} : (lead line ++ word).length ≤ width →
      Places width line word [] (lead line ++ word)
  /-- The word goes to the next line: it does not fit here, and it does on a line of its own or
  there is no room here at all. -/
  | nextLine {line word full line'} : line ≠ [] → width < (lead line ++ word).length →
      word.length ≤ width ∨ width ≤ (lead line).length →
      Places width [] word full line' → Places width line word (line :: full) line'
  /-- The first part of a long word fills the line. -/
  | cut {line head tail full line'} : head ≠ [] → tail ≠ [] → width < (head ++ tail).length →
      (lead line ++ head).length = width →
      Places width [] tail full line' →
      Places width line (head ++ tail) ((lead line ++ head) :: full) line'

variable {width : Nat} {line line' word before after : List Char}
  {full lines rest : List (List Char)}

@[simp] theorem lead_nil : lead [] = [] := rfl

theorem lead_of_ne_nil (h : line ≠ []) : lead line = line ++ [' '] := by
  simp [lead, h]

/-- Cutting a text into pieces is placing it on an empty line. -/
theorem places_chunk (k : Nat) (cs : List Char) :
    Places (k + 1) [] cs (chunk k cs).dropLast ((chunk k cs).getLast?.getD []) := by
  induction h : cs.length using Nat.strong_induction_on generalizing cs with
  | _ n ih =>
    rw [chunk]
    split_ifs with hshort
    · exact .fits hshort
    · have hne : chunk k (cs.drop (k + 1)) ≠ [] := by
        rw [chunk]
        split_ifs <;> simp
      have hhead : cs.take (k + 1) ≠ [] := by
        rw [← List.length_pos_iff, List.length_take]
        omega
      have htail : cs.drop (k + 1) ≠ [] := by
        rw [← List.length_pos_iff, List.length_drop]
        omega
      have hlong : k + 1 < (cs.take (k + 1) ++ cs.drop (k + 1)).length := by
        rw [List.take_append_drop]
        omega
      have hfull : (lead [] ++ cs.take (k + 1)).length = k + 1 := by
        rw [lead_nil, List.nil_append, List.length_take]
        omega
      have hrest := ih (cs.drop (k + 1)).length (by rw [List.length_drop]; omega) _ rfl
      have hcut := Places.cut hhead htail hlong hfull hrest
      rw [List.take_append_drop, lead_nil, List.nil_append] at hcut
      rwa [List.dropLast_cons_of_ne_nil hne, List.getLast?_cons_of_ne_nil hne]

/-- **Placing a word** takes turns that finish a line each. -/
theorem places_placeWord (hwidth : 0 < width) (line word : List Char) :
    Places width line word (placeWord width line word).1 (placeWord width line word).2 := by
  obtain ⟨k, rfl⟩ : ∃ k, width = k + 1 := ⟨width - 1, by omega⟩
  unfold placeWord
  split_ifs with hfits hshort
  · exact .fits (by rwa [List.length_append])
  · -- an empty line would have room for the word
    have hline : line ≠ [] := by
      rintro rfl
      exact hfits (by simpa using hshort)
    have hlong : k + 1 < (lead line ++ word).length := by
      rw [List.length_append]
      omega
    exact .nextLine hline hlong (.inl hshort) (.fits hshort)
  · have hlong : k + 1 < (lead line ++ word).length := by
      rw [List.length_append]
      omega
    simp only
    split_ifs with hroom
    · have hline : line ≠ [] := by
        rintro rfl
        simp at hroom
      rw [hroom, List.drop_zero]
      exact .nextLine hline hlong (.inr (by omega)) (places_chunk k word)
    · set room := k + 1 - (lead line).length with hdef
      have hhead : word.take room ≠ [] := by
        rw [← List.length_pos_iff, List.length_take]
        omega
      have htail : word.drop room ≠ [] := by
        rw [← List.length_pos_iff, List.length_drop]
        omega
      have hfull : (lead line ++ word.take room).length = k + 1 := by
        rw [List.length_append, List.length_take]
        omega
      have hcut := Places.cut hhead htail (by rw [List.take_append_drop]; omega) hfull
        (places_chunk k (word.drop room))
      rwa [List.take_append_drop] at hcut

/-! ### Lines are tidy and fit -/

theorem IsTidy.of_word (h : IsWord word) : IsTidy word where
  ne_nil := h.ne_nil
  head hc := h.ne_space (List.mem_of_head? hc) rfl
  last hc := h.ne_space (List.mem_of_getLast? hc) rfl
  single := List.Pairwise.isChain <|
    List.pairwise_of_forall_mem_list fun _ ha _ _ hspace => h.ne_space ha hspace.1
  blank c hc hblank := by simp [h.not_blank c hc] at hblank

theorem IsTidy.append_word (hline : IsTidy line) (h : IsWord word) :
    IsTidy (line ++ ' ' :: word) where
  ne_nil := by simp
  head hc := by
    rw [List.head?_append_of_ne_nil _ hline.ne_nil] at hc
    exact hline.head hc
  last hc := by
    rw [List.getLast?_append_cons, List.getLast?_cons_of_ne_nil h.ne_nil] at hc
    exact h.ne_space (List.mem_of_getLast? hc) rfl
  single := by
    refine List.isChain_append.2 ⟨hline.single, List.isChain_cons.2 ⟨?_, (IsTidy.of_word h).single⟩,
      ?_⟩
    · intro c hc hspace
      exact h.ne_space (List.mem_of_head? hc) hspace.2
    · intro c hc _ _ hspace
      exact hline.last (hspace.1 ▸ hc)
  blank c hc hblank := by
    rcases List.mem_append.1 hc with hc | hc
    · exact hline.blank c hc hblank
    · rcases List.mem_cons.1 hc with rfl | hc
      · rfl
      · simp [h.not_blank c hc] at hblank

/-- A word, or a part of one, after a tidy line or on an empty one. -/
theorem isTidy_lead_append (hline : line ≠ [] → IsTidy line) (h : IsWord word) :
    IsTidy (lead line ++ word) := by
  by_cases hne : line = []
  · subst hne
    exact .of_word h
  · rw [lead_of_ne_nil hne, List.append_assoc]
    exact (hline hne).append_word h

/-- **Placing a word keeps lines tidy** and within the width. -/
theorem Places.fits_all (h : Places width line word full line') (hword : IsWord word)
    (hline : line ≠ [] → Fits width line) :
    (∀ l ∈ full, Fits width l) ∧ Fits width line' := by
  induction h with
  | @fits line word hlength =>
    exact ⟨by simp, isTidy_lead_append (fun hne => (hline hne).tidy) hword, hlength⟩
  | @nextLine line word full line' hne _ _ _ ih =>
    obtain ⟨hfull, hlast⟩ := ih hword (by simp)
    exact ⟨List.forall_mem_cons.2 ⟨hline hne, hfull⟩, hlast⟩
  | @cut line head tail full line' hhead htail _ hlength _ ih =>
    have hfirst : Fits width (lead line ++ head) :=
      ⟨isTidy_lead_append (fun hne => (hline hne).tidy) (hword.of_subset hhead (by simp)),
        hlength.le⟩
    obtain ⟨hfull, hlast⟩ := ih (hword.of_subset htail (by simp)) (by simp)
    exact ⟨List.forall_mem_cons.2 ⟨hfirst, hfull⟩, hlast⟩

/-! ### Words are broken as is allowed -/

theorem rtakeWhile_append_of_ne_space {head : List Char} (h : ∀ c ∈ head, c ≠ ' ')
    (before : List Char) :
    (before ++ head).rtakeWhile (· != ' ') = before.rtakeWhile (· != ' ') ++ head := by
  rw [List.rtakeWhile, List.reverse_append, List.takeWhile_append_of_pos, List.reverse_append,
    List.reverse_reverse, List.rtakeWhile]
  intro c hc
  simpa using h c (List.mem_reverse.1 hc)

theorem takeWhile_append_of_ne_space {tail : List Char} (h : ∀ c ∈ tail, c ≠ ' ')
    (after : List Char) :
    (tail ++ after).takeWhile (· != ' ') = tail ++ after.takeWhile (· != ' ') :=
  List.takeWhile_append_of_pos fun c hc => by simpa using h c hc

/-- A cut in a word whose part from this line on is longer than a line. -/
theorem insideLongWord_append {head tail : List Char} (hword : IsWord (head ++ tail))
    (hhead : head ≠ []) (htail : tail ≠ []) (hlong : width < (head ++ tail).length)
    (before after : List Char) : InsideLongWord width (before ++ head) (tail ++ after) := by
  have hbefore := rtakeWhile_append_of_ne_space
    (fun c hc => hword.ne_space (List.mem_append_left _ hc)) before
  have hafter := takeWhile_append_of_ne_space
    (fun c hc => hword.ne_space (List.mem_append_right _ hc)) after
  refine ⟨by simp [hbefore, hhead], by simp [hafter, htail], ?_⟩
  simp only [hbefore, hafter, List.length_append] at hlong ⊢
  omega

theorem joined_cons (word : List Char) (rest : List (List Char)) :
    joined (word :: rest) = word ++ joined ([] :: rest) := by
  simpa using joined_cons_append word [] rest

/-- **Placing a word breaks it as is allowed**: if the new current line and the words after it are
laid out in lines, then so are the old one, the word, and the words after it. -/
theorem Places.breaks (h : Places width line word full line') (hword : IsWord word)
    (hrest : ∀ before, Breaks (IsFullCut width) before (joined (line' :: rest)) lines)
    (before : List Char) :
    Breaks (IsFullCut width) before (lead line ++ joined (word :: rest)) (full ++ lines) := by
  induction h generalizing before with
  | @fits line word _ =>
    rw [← joined_cons_append]
    exact hrest before
  | @nextLine line word full line' hne _ _ _ ih =>
    rw [lead_of_ne_nil hne, List.append_assoc]
    exact .space (ih hword hrest _)
  | @cut line head tail full line' hhead htail hlong hlength _ ih =>
    have hinside := insideLongWord_append hword hhead htail hlong (before ++ lead line)
      (joined ([] :: rest))
    rw [← joined_cons, List.append_assoc] at hinside
    rw [joined_cons_append, ← List.append_assoc]
    exact .cut ⟨hlength, hinside⟩ (ih (hword.of_subset htail (by simp)) hrest _)

/-! ### All words -/

theorem Places.ne_nil (h : Places width line word full line') (hword : word ≠ []) : line' ≠ [] := by
  induction h with
  | fits => exact List.append_ne_nil_of_right_ne_nil _ hword
  | nextLine _ _ _ _ ih => exact ih hword
  | cut _ htail _ _ _ ih => exact ih htail

theorem fits_of_mem_placeWords {words : List (List Char)} (hwidth : 0 < width)
    (hwords : ∀ word ∈ words, IsWord word) (hline : line ≠ [] → Fits width line) :
    ∀ l ∈ placeWords width line words, Fits width l := by
  induction words generalizing line with
  | nil =>
    rw [placeWords]
    split_ifs with hempty
    · simp
    · simpa using hline (by simpa using hempty)
  | cons word rest ih =>
    obtain ⟨hword, hrest⟩ := List.forall_mem_cons.1 hwords
    obtain ⟨hfull, hlast⟩ := (places_placeWord hwidth line word).fits_all hword hline
    exact List.forall_mem_append.2 ⟨hfull, ih hrest fun _ => hlast⟩

theorem breaks_placeWords {words : List (List Char)} (hwidth : 0 < width)
    (hwords : ∀ word ∈ words, IsWord word) (hline : line ≠ []) (before : List Char) :
    Breaks (IsFullCut width) before (joined (line :: words)) (placeWords width line words) := by
  induction words generalizing line before with
  | nil =>
    rw [placeWords, if_neg (by simpa using hline), joined, List.intercalate_singleton]
    exact .last
  | cons word rest ih =>
    obtain ⟨hword, hrest⟩ := List.forall_mem_cons.1 hwords
    have hplaces := places_placeWord hwidth line word
    have hjoined : joined (line :: word :: rest) = lead line ++ joined (word :: rest) := by
      rw [lead_of_ne_nil hline]
      exact List.intercalate_cons_cons
    rw [hjoined]
    exact hplaces.breaks hword (ih hrest (hplaces.ne_nil hword.ne_nil)) before

theorem Breaks.ne_nil {mayCut : List Char → List Char → List Char → Prop} {text : List Char}
    (h : Breaks mayCut before text lines) : lines ≠ [] := by
  cases h <;> simp

/-- The first word starts on an empty line. -/
theorem breaks_wrapChars {text : List Char} (h : Text.words text ≠ []) :
    Breaks (IsFullCut (max width 1)) [] (joined (Text.words text)) (wrapChars width text) := by
  have hwidth : 0 < max width 1 := by omega
  have hwords : ∀ word ∈ Text.words text, IsWord word := fun _ => Text.isWord_of_mem_words
  unfold wrapChars
  cases hlist : Text.words text with
  | nil => exact absurd hlist h
  | cons word rest =>
    rw [hlist] at hwords
    obtain ⟨hword, hrest⟩ := List.forall_mem_cons.1 hwords
    have hplaces := places_placeWord hwidth [] word
    exact hplaces.breaks hword
      (breaks_placeWords hwidth hrest (hplaces.ne_nil hword.ne_nil)) []

theorem fits_of_mem_wrapChars {text : List Char} :
    ∀ line ∈ wrapChars width text, Fits (max width 1) line :=
  fits_of_mem_placeWords (by omega) (fun _ => Text.isWord_of_mem_words) (by simp)

theorem wrapChars_eq_nil_iff {text : List Char} :
    wrapChars width text = [] ↔ Text.words text = [] := by
  constructor
  · intro h
    by_contra hne
    exact (breaks_wrapChars hne).ne_nil h
  · intro h
    simp [wrapChars, h, placeWords]

/-- Nothing but blanks is added or lost where lines break. -/
theorem Breaks.flatMap_squash {mayCut : List Char → List Char → List Char → Prop}
    {text : List Char} (h : Breaks mayCut before text lines) :
    lines.flatMap Text.squash = Text.squash text := by
  induction h with
  | last => simp
  | space _ ih =>
    rw [List.flatMap_cons, ih, Text.squash_append]
    simp [Text.squash, Text.isBlank_space]
  | cut _ _ ih => rw [List.flatMap_cons, ih, Text.squash_append]

/-- The lines of a text have all of it but the blanks. -/
theorem flatMap_squash_wrapChars (width : Nat) (text : List Char) :
    (wrapChars width text).flatMap Text.squash = Text.squash text := by
  have hjoined : Text.squash (joined (Text.words text)) = Text.squash text := calc
    Text.squash (joined (Text.words text)) = (Text.words text).flatMap Text.squash :=
      filter_intercalate (by decide) _
    _ = Text.squash (Text.words text).flatten := List.filter_flatten.symm
    _ = Text.squash (Text.squash text) := by rw [Text.flatten_words]
    _ = Text.squash text := by simp [Text.squash]
  by_cases h : Text.words text = []
  · rw [wrapChars_eq_nil_iff.2 h, ← Text.flatten_words, h]
    rfl
  · rw [(breaks_wrapChars h).flatMap_squash, hjoined]

/-- **Wrapping is a correct layout.**  The lines of a text are its words joined by single spaces,
with line breaks in place of some of the spaces and inside some words.  A word is broken only if it
is longer than a line, and the line before the break is full then.  Every line is tidy and has at
most `width` characters, where `0` counts as `1`.  There are no lines exactly if there are no
words. -/
theorem wrap_breaks (width : Nat) (text : String) :
    (wrap width text = [] ↔ Text.words text.toList = []) ∧
      (Text.words text.toList ≠ [] →
        Breaks (IsFullCut (max width 1)) [] (joined (Text.words text.toList))
          ((wrap width text).map String.toList)) ∧
      ∀ line ∈ wrap width text, IsTidy line.toList ∧ line.length ≤ max width 1 := by
  have hlines : (wrap width text).map String.toList = wrapChars width text.toList := by
    simp [wrap, Function.comp_def]
  refine ⟨?_, ?_, fun line hline => ?_⟩
  · rw [← List.map_eq_nil_iff, hlines, wrapChars_eq_nil_iff]
  · rw [hlines]
    exact breaks_wrapChars
  · obtain ⟨htidy, hlength⟩ := fits_of_mem_wrapChars line.toList
      (hlines ▸ List.mem_map_of_mem hline)
    exact ⟨htidy, by rwa [String.length_toList] at hlength⟩

end Layout

end ReleaseDraft

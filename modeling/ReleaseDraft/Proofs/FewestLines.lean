import ReleaseDraft.Proofs.Wrapping

/-!
# Wrapping uses the fewest lines

A layout of words is any way to break them into lines that fit (`Layout.IsLayout`): at spaces, and
anywhere inside words longer than a line.  In terms of places in the joined words, a line may stop
at some of them (`Layout.MayStop`), wherever it starts, and the next line starts there or after a
space (`Layout.resume`).

Wrapping makes each line as long as possible (`Layout.IsLongestLine`).  So a layout that was not
ahead before a line is not ahead after it (`IsLine.stop_le`), and over all lines wrapping stays
ahead of every other layout (`Runs.stays_ahead`, `wrap_fewest_lines`).
-/

namespace ReleaseDraft

namespace Layout

open Text (IsWord)

/-! ### Layouts -/

/-- Lines that fit and have the words, in order, with single spaces between those on one line; only
words longer than a line go over several. -/
structure IsLayout (width : Nat) (words lines : List (List Char)) : Prop where
  nil : words = [] → lines = []
  breaks : words ≠ [] → Breaks (fun _ => InsideLongWord width) [] (joined words) lines
  fits : ∀ line ∈ lines, line ≠ [] ∧ line.length ≤ width

/-- Where the next line starts if one stops at `stop`: there, or after a space. -/
def resume (text : List Char) (stop : Nat) : Nat :=
  if text[stop]? = some ' ' then stop + 1 else stop

/-- How many characters of the text are placed by lines that start where the last one, which stops
at `stop`, leaves off.  The space for which a line breaks counts from the next line on. -/
def placedFrom (text : List Char) (stop : Nat) : List (List Char) → Nat
  | [] => stop
  | line :: lines => placedFrom text (resume text stop + line.length) lines

/-- How many characters of the text are placed by lines from its beginning. -/
def placed (text : List Char) (lines : List (List Char)) : Nat := placedFrom text 0 lines

/-- A line may stop at the end of the text, before a space, or inside a word longer than a line. -/
def MayStop (width : Nat) (text : List Char) (stop : Nat) : Prop :=
  stop = text.length ∨ text[stop]? = some ' ' ∨
    InsideLongWord width (text.take stop) (text.drop stop)

/-- The characters from `start` to `stop` fit on a line. -/
structure IsLine (width : Nat) (text : List Char) (start stop : Nat) : Prop where
  start_lt : start < stop
  stop_le_add : stop ≤ start + width
  mayStop : MayStop width text stop

/-- No longer line fits. -/
structure IsLongestLine (width : Nat) (text : List Char) (start stop : Nat) : Prop
    extends IsLine width text start stop where
  longest : ∀ other, MayStop width text other → other ≤ start + width → other ≤ stop

/-- The lines lead from the place where the last one stops to the end of the text. -/
inductive Runs (isLine : Nat → Nat → Prop) (text : List Char) : Nat → List (List Char) → Prop
  | nil : Runs isLine text text.length []
  | cons {stop line lines} :
      isLine (resume text stop) (resume text stop + line.length) →
      Runs isLine text (resume text stop + line.length) lines →
      Runs isLine text stop (line :: lines)

variable {width start stop stop' : Nat} {text line line' word before after : List Char}
  {lines lines' full words rest : List (List Char)}

/-! ### Staying ahead -/

theorem resume_mono (h : stop ≤ stop') : resume text stop ≤ resume text stop' := by
  unfold resume
  rcases Nat.lt_or_eq_of_le h with hlt | rfl
  · split_ifs <;> omega
  · exact le_rfl

theorem le_resume : stop ≤ resume text stop := by
  unfold resume
  split_ifs <;> omega

theorem MayStop.le_length (h : MayStop width text stop) : stop ≤ text.length := by
  rcases h with rfl | hspace | ⟨-, hafter, -⟩
  · exact le_rfl
  · exact (List.getElem?_eq_some_iff.1 hspace).1.le
  · by_contra hlt
    rw [List.drop_eq_nil_of_le (by omega)] at hafter
    exact hafter rfl

/-- **A line of a layout that is not ahead** does not stop after the longest line. -/
theorem IsLine.stop_le {start' : Nat} (h : IsLine width text start stop)
    (h' : IsLongestLine width text start' stop') (hstart : start ≤ start') : stop ≤ stop' := by
  have hreach : stop ≤ start' + width := h.stop_le_add.trans (by omega)
  exact h'.longest stop h.mayStop hreach

theorem Runs.eq_nil (h : Runs (IsLine width text) text text.length lines) : lines = [] := by
  cases h with
  | nil => rfl
  | @cons _ line lines hline _ =>
    have hstop := hline.mayStop.le_length
    have hstart := hline.start_lt
    have hresume := @le_resume text.length text
    omega

/-- Nothing is placed beyond the end. -/
theorem Runs.placedFrom_le (h : Runs (IsLine width text) text stop lines) (k : Nat) :
    placedFrom text stop (lines.take k) ≤ text.length := by
  induction h generalizing k with
  | nil => simp [placedFrom]
  | @cons stop line lines hline _ ih =>
    cases k with
    | zero =>
      have hstop := hline.mayStop.le_length
      have hstart := hline.start_lt
      have hresume := @le_resume stop text
      simp only [List.take_zero, placedFrom]
      omega
    | succ k => exact ih k

theorem Runs.mono {isLine isLine' : Nat → Nat → Prop} (h : Runs isLine text stop lines)
    (himp : ∀ start stop, isLine start stop → isLine' start stop) :
    Runs isLine' text stop lines := by
  induction h with
  | nil => exact .nil
  | cons hline _ ih => exact .cons (himp _ _ hline) ih

theorem Runs.le_length (h : Runs (IsLine width text) text stop lines) : stop ≤ text.length :=
  h.placedFrom_le 0

/-- **Longest lines stay ahead** of all others, and so there are not more of them. -/
theorem Runs.stays_ahead (h : Runs (IsLine width text) text stop lines)
    (h' : Runs (IsLongestLine width text) text stop' lines') (hstop : stop ≤ stop') :
    lines'.length ≤ lines.length ∧
      ∀ k, placedFrom text stop (lines.take k) ≤ placedFrom text stop' (lines'.take k) := by
  have hlines' := h'.mono fun _ _ hline => hline.toIsLine
  induction h generalizing stop' lines' with
  | nil =>
    -- the others are done, and so are the longest lines
    obtain rfl : stop' = text.length := le_antisymm hlines'.le_length hstop
    obtain rfl := hlines'.eq_nil
    simp
  | @cons stop line lines hline hrun ih =>
    cases h' with
    | nil =>
      refine ⟨Nat.zero_le _, fun k => ?_⟩
      rw [List.take_nil]
      exact (Runs.cons hline hrun).placedFrom_le k
    | @cons _ line' lines' hline' hrun' =>
      have hahead := hline.stop_le hline' (resume_mono hstop)
      obtain ⟨hlength, hplaced⟩ := ih hrun' hahead (hrun'.mono fun _ _ hline => hline.toIsLine)
      refine ⟨Nat.succ_le_succ hlength, fun k => ?_⟩
      cases k with
      | zero => exact hstop
      | succ k => exact hplaced k

/-! ### Layouts in terms of places -/

section

variable (hstop : resume text stop = before.length)
include hstop

theorem getElem?_stop (htext : text = before ++ (line ++ after)) :
    text[resume text stop + line.length]? = after.head? := by
  rw [hstop, htext, ← List.append_assoc, ← List.length_append,
    List.getElem?_append_right le_rfl, Nat.sub_self, List.head?_eq_getElem?]

theorem mayStop_space (htext : text = before ++ (line ++ ' ' :: after)) :
    MayStop width text (resume text stop + line.length) :=
  .inr (.inl (getElem?_stop hstop htext))

theorem resume_space (htext : text = before ++ (line ++ ' ' :: after)) :
    resume text (resume text stop + line.length) = (before ++ line ++ [' ']).length := by
  have hspace : text[resume text stop + line.length]? = some ' ' := getElem?_stop hstop htext
  rw [resume, if_pos hspace, hstop]
  simp [Nat.add_assoc]

variable (hinside : InsideLongWord width (before ++ line) after)
include hinside

theorem mayStop_cut (htext : text = before ++ (line ++ after)) :
    MayStop width text (resume text stop + line.length) := by
  refine .inr (.inr ?_)
  rwa [hstop, htext, ← List.append_assoc, ← List.length_append, List.take_left, List.drop_left]

theorem resume_cut (htext : text = before ++ (line ++ after)) :
    resume text (resume text stop + line.length) = (before ++ line).length := by
  have hspace : text[resume text stop + line.length]? ≠ some ' ' := by
    rw [getElem?_stop hstop htext]
    intro hhead
    obtain ⟨rest, rfl⟩ := List.head?_eq_some_iff.1 hhead
    exact hinside.2.1 rfl
  rw [resume, if_neg hspace, hstop, List.length_append]

end

/-- A layout leads to the end of the text by lines that fit. -/
theorem Breaks.runs (h : Breaks (fun _ => InsideLongWord width) before after lines)
    (hfits : ∀ line ∈ lines, line ≠ [] ∧ line.length ≤ width) (htext : text = before ++ after)
    (hstop : resume text stop = before.length) : Runs (IsLine width text) text stop lines := by
  induction h generalizing stop with
  | @last before line =>
    obtain ⟨hne, hlength⟩ := hfits line List.mem_cons_self
    have hpos := List.length_pos_of_ne_nil hne
    have hend : resume text stop + line.length = text.length := by
      rw [hstop, htext, List.length_append]
    refine .cons ⟨by omega, by omega, .inl hend⟩ ?_
    rw [hend]
    exact .nil
  | @space before line after lines _ ih =>
    obtain ⟨⟨hne, hlength⟩, hrest⟩ := List.forall_mem_cons.1 hfits
    have hpos := List.length_pos_of_ne_nil hne
    exact .cons ⟨by omega, by omega, mayStop_space hstop htext⟩
      (ih hrest (by simpa using htext) (resume_space hstop htext))
  | @cut before line after lines hinside _ ih =>
    obtain ⟨⟨hne, hlength⟩, hrest⟩ := List.forall_mem_cons.1 hfits
    have hpos := List.length_pos_of_ne_nil hne
    exact .cons ⟨by omega, by omega, mayStop_cut hstop hinside htext⟩
      (ih hrest (by simpa using htext) (resume_cut hstop hinside htext))

theorem squash_take_resume (text : List Char) (stop : Nat) :
    Text.squash (text.take (resume text stop)) = Text.squash (text.take stop) := by
  unfold resume
  split_ifs with hspace
  · rw [List.take_add_one, hspace, Text.squash_append]
    simp [Text.squash, Text.isBlank_space]
  · rfl

/-- **What is placed**: the first lines of a layout have the first characters of the text, but for
the spaces where lines break. -/
theorem Breaks.squash_take_placedFrom
    (h : Breaks (fun _ => InsideLongWord width) before after lines) (htext : text = before ++ after)
    (hstop : resume text stop = before.length) (k : Nat) :
    Text.squash (text.take (placedFrom text stop (lines.take k))) =
      Text.squash before ++ (lines.take k).flatMap Text.squash := by
  induction k generalizing before after lines stop with
  | zero =>
    rw [List.take_zero, placedFrom, ← squash_take_resume, hstop, htext, List.take_left]
    simp
  | succ k ih =>
    cases h with
    | last =>
      have hend : resume text stop + after.length = text.length := by
        rw [hstop, htext, List.length_append]
      simp only [List.take_succ_cons, List.take_nil, placedFrom, hend, List.take_length]
      simp [htext, Text.squash_append]
    | @space _ line after lines hrest =>
      have hnext := ih hrest (by simpa using htext) (resume_space hstop htext)
      rw [List.take_succ_cons, placedFrom, hnext]
      simp [Text.squash, Text.isBlank_space]
    | @cut _ line after lines hinside hrest =>
      have hnext := ih hrest (by simpa using htext) (resume_cut hstop hinside htext)
      rw [List.take_succ_cons, placedFrom, hnext, Text.squash_append, List.append_assoc,
        List.flatMap_cons]

/-- Words start with no space. -/
theorem resume_joined_zero (hwords : ∀ word ∈ words, IsWord word) :
    resume (joined words) 0 = 0 := by
  refine if_neg fun hspace => ?_
  cases words with
  | nil => cases hspace
  | cons word rest =>
    have hword := hwords word List.mem_cons_self
    rw [joined_cons, List.getElem?_append_left (List.length_pos_of_ne_nil hword.ne_nil)] at hspace
    exact hword.ne_space (List.mem_of_getElem? hspace) rfl

/-! ### Lines of wrapping are longest -/

theorem takeWhile_joined_nil (rest : List (List Char)) :
    (joined ([] :: rest)).takeWhile (· != ' ') = [] := by
  cases rest with
  | nil => rfl
  | cons word rest => simp [joined, List.intercalate_cons_cons]

/-- A line that stops before the end of a whole word has some of it, and the word is long. -/
theorem MayStop.inside_word {k : Nat}
    (h : MayStop width (before ++ (word ++ after)) (before.length + k)) (hword : IsWord word)
    (hk : k < word.length) (hbefore : before.rtakeWhile (· != ' ') = [])
    (hafter : after.takeWhile (· != ' ') = []) : 0 < k ∧ width < word.length := by
  rcases h with hend | hspace | ⟨hhead, -, hlong⟩
  · simp only [List.length_append] at hend
    omega
  · rw [List.getElem?_append_right (by omega), Nat.add_sub_cancel_left,
      List.getElem?_append_left hk] at hspace
    exact absurd rfl (hword.ne_space (List.mem_of_getElem? hspace))
  · have htake : (before ++ (word ++ after)).take (before.length + k) = before ++ word.take k := by
      rw [List.take_length_add_append, List.take_append_of_le_length hk.le]
    have hdrop : (before ++ (word ++ after)).drop (before.length + k) = word.drop k ++ after := by
      rw [List.drop_length_add_append, List.drop_append_of_le_length hk.le]
    rw [htake, rtakeWhile_append_of_ne_space fun c hc => hword.ne_space (List.mem_of_mem_take hc),
      hbefore, List.nil_append] at hhead hlong
    rw [hdrop, takeWhile_append_of_ne_space fun c hc => hword.ne_space (List.mem_of_mem_drop hc),
      hafter, List.append_nil, List.take_append_drop] at hlong
    refine ⟨Nat.pos_of_ne_zero ?_, hlong⟩
    rintro rfl
    exact hhead rfl

/-- A line stops before a word that does not fit if no part of it may stand there. -/
theorem MayStop.le_of_nextLine {other : Nat} (h : MayStop width text other) (hword : IsWord word)
    (hline : line ≠ []) (hlong : width < (lead line ++ word).length)
    (hreason : word.length ≤ width ∨ width ≤ (lead line).length)
    (htext : text = before ++ lead line ++ joined (word :: rest))
    (hle : other ≤ before.length + width) : other ≤ before.length + line.length := by
  have hlead : lead line = line ++ [' '] := lead_of_ne_nil hline
  have hlength : (before ++ lead line).length = before.length + line.length + 1 := by
    simp [hlead]
    omega
  -- otherwise the line stops inside the word
  by_contra hlt
  obtain ⟨k, rfl⟩ : ∃ k, other = (before ++ lead line).length + k :=
    ⟨other - (before ++ lead line).length, by omega⟩
  have hbefore : (before ++ lead line).rtakeWhile (· != ' ') = [] := by
    rw [hlead, ← List.append_assoc]
    exact List.rtakeWhile_concat_neg _ _ _ (by simp)
  have hk : k < word.length := by
    simp only [List.length_append] at hlong hle
    omega
  rw [htext, joined_cons] at h
  obtain ⟨hpos, hlongWord⟩ := h.inside_word hword hk hbefore (takeWhile_joined_nil rest)
  simp only [List.length_append] at hle
  omega

/-- **Placing a word finishes longest lines**: if the new current line and the words after it are
laid out in longest lines, then so are the old one, the word, and the words after it. -/
theorem Places.runs (h : Places width line word full line') (hword : IsWord word)
    (hline : line.length ≤ width)
    (hrest : ∀ before stop, text = before ++ joined (line' :: rest) →
      resume text stop = before.length → Runs (IsLongestLine width text) text stop lines)
    (htext : text = before ++ (lead line ++ joined (word :: rest)))
    (hstop : resume text stop = before.length) :
    Runs (IsLongestLine width text) text stop (full ++ lines) := by
  induction h generalizing before stop with
  | @fits line word _ =>
    refine hrest before stop ?_ hstop
    rw [htext, joined_cons_append]
  | @nextLine line word full line' hne hlong hreason _ ih =>
    have hpos := List.length_pos_of_ne_nil hne
    have hlead : lead line = line ++ [' '] := lead_of_ne_nil hne
    have hspace : text = before ++ (line ++ ' ' :: joined (word :: rest)) := by
      simpa [hlead] using htext
    have hnext : text = (before ++ lead line) ++ joined (word :: rest) := by simpa using htext
    refine .cons ⟨⟨by omega, by omega, mayStop_space hstop hspace⟩, fun other hother hle => ?_⟩
      (ih hword (Nat.zero_le _) hrest hnext ?_)
    · rw [hstop] at hle ⊢
      exact hother.le_of_nextLine hword hne hlong hreason hnext hle
    · rw [resume_space hstop hspace, hlead, List.append_assoc]
  | @cut line head tail full line' hhead htail hlong hlength _ ih =>
    have hcut : text = before ++ ((lead line ++ head) ++ joined (tail :: rest)) := by
      rw [htext, joined_cons_append, List.append_assoc]
    have hinside := insideLongWord_append hword hhead htail hlong (before ++ lead line)
      (joined ([] :: rest))
    rw [← joined_cons, List.append_assoc] at hinside
    have hpos : 0 < (lead line ++ head).length :=
      List.length_pos_of_ne_nil (List.append_ne_nil_of_right_ne_nil _ hhead)
    have hnext : text = (before ++ (lead line ++ head)) ++ joined (tail :: rest) := by
      simpa using hcut
    -- a line of the full width is longest
    exact .cons ⟨⟨by omega, by omega, mayStop_cut hstop hinside hcut⟩, fun other _ hle => by omega⟩
      (ih (hword.of_subset htail (by simp)) (Nat.zero_le _) hrest hnext
        (resume_cut hstop hinside hcut))

/-- The words after the current line. -/
theorem runs_placeWords (hwidth : 0 < width) (hwords : ∀ word ∈ words, IsWord word)
    (hline : Fits width line) (htext : text = before ++ joined (line :: words))
    (hstop : resume text stop = before.length) :
    Runs (IsLongestLine width text) text stop (placeWords width line words) := by
  induction words generalizing line before stop with
  | nil =>
    have hend : resume text stop + line.length = text.length := by
      rw [hstop, htext, joined, List.intercalate_singleton, List.length_append]
    have hpos := List.length_pos_of_ne_nil hline.tidy.ne_nil
    have hlength := hline.length_le
    rw [placeWords, if_neg (by simpa using hline.tidy.ne_nil)]
    refine .cons ⟨⟨by omega, by omega, .inl hend⟩, fun other hother _ => ?_⟩ ?_
    · exact hend ▸ hother.le_length
    · rw [hend]
      exact .nil
  | cons word rest ih =>
    obtain ⟨hword, hrest⟩ := List.forall_mem_cons.1 hwords
    have hplaces := places_placeWord hwidth line word
    obtain ⟨-, hlast⟩ := hplaces.fits_all hword fun _ => hline
    have hjoined : joined (line :: word :: rest) = lead line ++ joined (word :: rest) := by
      rw [lead_of_ne_nil hline.tidy.ne_nil]
      exact List.intercalate_cons_cons
    rw [hjoined] at htext
    exact hplaces.runs hword hline.length_le (fun before stop => ih hrest hlast) htext hstop

theorem runs_wrapChars (width : Nat) (chars : List Char) :
    Runs (IsLongestLine (max width 1) (joined (Text.words chars))) (joined (Text.words chars)) 0
      (wrapChars width chars) := by
  have hwidth : 0 < max width 1 := by omega
  have hwords : ∀ word ∈ Text.words chars, IsWord word := fun _ => Text.isWord_of_mem_words
  unfold wrapChars
  cases hlist : Text.words chars with
  | nil => exact .nil
  | cons word rest =>
    rw [hlist] at hwords
    obtain ⟨hword, hrest⟩ := List.forall_mem_cons.1 hwords
    have hplaces := places_placeWord hwidth [] word
    obtain ⟨-, hlast⟩ := hplaces.fits_all hword (by simp)
    have htext : joined (word :: rest) = [] ++ (lead [] ++ joined (word :: rest)) := rfl
    exact hplaces.runs hword (Nat.zero_le _) (fun _ _ => runs_placeWords hwidth hrest hlast) htext
      (resume_joined_zero hwords)

/-! ### Fewest lines -/

theorem Breaks.mono {mayCut mayCut' : List Char → List Char → List Char → Prop}
    (h : Breaks mayCut before text lines)
    (himp : ∀ line before after, mayCut line before after → mayCut' line before after) :
    Breaks mayCut' before text lines := by
  induction h with
  | last => exact .last
  | space _ ih => exact .space ih
  | cut hcut _ ih => exact .cut (himp _ _ _ hcut) ih

theorem isLayout_wrapChars (width : Nat) (chars : List Char) :
    IsLayout (max width 1) (Text.words chars) (wrapChars width chars) where
  nil := wrapChars_eq_nil_iff.2
  breaks hne := (breaks_wrapChars hne).mono fun _ _ _ hcut => hcut.2
  fits line hline :=
    have hfits := fits_of_mem_wrapChars line hline
    ⟨hfits.tidy.ne_nil, hfits.length_le⟩

theorem IsLayout.runs (h : IsLayout width words lines) (hwords : ∀ word ∈ words, IsWord word) :
    Runs (IsLine width (joined words)) (joined words) 0 lines := by
  by_cases hne : words = []
  · rw [h.nil hne, hne]
    exact .nil
  · exact (h.breaks hne).runs h.fits rfl (resume_joined_zero hwords)

theorem IsLayout.squash_take_placed (h : IsLayout width words lines)
    (hwords : ∀ word ∈ words, IsWord word) (k : Nat) :
    Text.squash ((joined words).take (placed (joined words) (lines.take k))) =
      (lines.take k).flatMap Text.squash := by
  by_cases hne : words = []
  · simp [h.nil hne, hne, joined, Text.squash]
  · exact (h.breaks hne).squash_take_placedFrom rfl (resume_joined_zero hwords) k

/-- **Wrapping uses the fewest lines.**  The lines of a text are a layout of its words with at most
`width` characters a line, where `0` counts as `1`.  Whatever places a layout of the words breaks
at, it has no fewer lines, and after any number of lines it has placed no more characters of the
joined words: but for spaces, the text of its first lines begins that of as many lines of wrapping.
-/
theorem wrap_fewest_lines (width : Nat) (text : String) :
    let words := Text.words text.toList
    let lines := (wrap width text).map String.toList
    IsLayout (max width 1) words lines ∧ ∀ others, IsLayout (max width 1) words others →
      lines.length ≤ others.length ∧ ∀ k,
        placed (joined words) (others.take k) ≤ placed (joined words) (lines.take k) ∧
          (others.take k).flatMap Text.squash <+: (lines.take k).flatMap Text.squash := by
  have hlines : (wrap width text).map String.toList = wrapChars width text.toList := by
    simp [wrap, Function.comp_def]
  intro words lines
  have hwords : ∀ word ∈ words, IsWord word := fun _ => Text.isWord_of_mem_words
  have hlayout := isLayout_wrapChars width text.toList
  have hlongest := runs_wrapChars width text.toList
  rw [← hlines] at hlayout hlongest
  refine ⟨hlayout, fun others hothers => ?_⟩
  obtain ⟨hlength, hplaced⟩ := (hothers.runs hwords).stays_ahead hlongest le_rfl
  refine ⟨hlength, fun k => ⟨hplaced k, ?_⟩⟩
  rw [← hothers.squash_take_placed hwords k, ← hlayout.squash_take_placed hwords k]
  exact (List.take_prefix_take_left (hplaced k)).filter _

end Layout

end ReleaseDraft

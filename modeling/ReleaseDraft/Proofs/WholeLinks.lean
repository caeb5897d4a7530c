import ReleaseDraft.Proofs.ReadBack
import ReleaseDraft.Proofs.Rewrapping

/-!
# Links stay whole

The words for a change end with the link to its pull request, in brackets and with a full stop.  If
the link has no blanks this is one word (`Draft.words_label`).  Whatever stands on the current line,
a last word that is not longer than a line is not cut: it ends the last line
(`Layout.exists_placeWords_append`).  The bullet and the indent only stand in front of it, so a link
that fits can be followed from the draft (`Draft.link_whole`).
-/

namespace ReleaseDraft

namespace Layout

open Text (IsWord)

/-- The last word on the last line of a block. -/
def EndsIn (block word : List Char) : Prop :=
  ∃ line, (block.splitOn '\n').getLast? = some line ∧
    (Text.words line).getLast? = some word ∧ word <:+ line

variable {width : Nat} {word item line : List Char} {words : List (List Char)}

/-! ### The last word -/

/-- A word that is not longer than a line goes on the current line or on a new one. -/
theorem placeWord_of_length_le (h : word.length ≤ width) (line : List Char) :
    placeWord width line word = ([], lead line ++ word) ∨
      placeWord width line word = ([line], lead [] ++ word) := by
  unfold placeWord
  by_cases hfits : (lead line).length + word.length ≤ width
  · left
    rw [if_pos hfits]
  · right
    rw [if_neg hfits, if_pos h]
    rfl

/-- **A last word that fits on a line ends the last line**, whatever is laid out before it. -/
theorem exists_placeWords_append (hword : IsWord word) (hlength : word.length ≤ width)
    (words : List (List Char)) (line : List Char) :
    ∃ full current, placeWords width line (words ++ [word]) = full ++ [lead current ++ word] := by
  induction words generalizing line with
  | nil =>
    have hlast : ∀ current, placeWords width (lead current ++ word) [] = [lead current ++ word] := by
      intro current
      rw [placeWords, if_neg (by simpa using fun _ => hword.ne_nil)]
    rw [List.nil_append, placeWords]
    obtain hplaced | hplaced := placeWord_of_length_le hlength line
    · rw [hplaced]
      exact ⟨[], line, hlast line⟩
    · rw [hplaced]
      exact ⟨[line], [], congrArg _ (hlast [])⟩
  | cons first words ih =>
    obtain ⟨full, current, hrest⟩ := ih (placeWord width line first).2
    refine ⟨(placeWord width line first).1 ++ full, current, ?_⟩
    rw [List.cons_append, placeWords, hrest, List.append_assoc]

theorem getLast?_itemLines (h : (wrapChars (width - bulletWidth) item).getLast? = some line) :
    ∃ mark, (mark = bullet ∨ mark = indent) ∧
      (itemLines width item).getLast? = some (mark ++ line) := by
  unfold itemLines
  cases hwrap : wrapChars (width - bulletWidth) item with
  | nil => simp [hwrap] at h
  | cons first rest =>
    rw [hwrap] at h
    by_cases hrest : rest = []
    · subst hrest
      obtain rfl : first = line := by simpa using h
      exact ⟨bullet, .inl rfl, rfl⟩
    · refine ⟨indent, .inr rfl, ?_⟩
      have hmap : rest.map (' ' :: ' ' :: ·) ≠ [] := by simpa using hrest
      rw [List.getLast?_cons_of_ne_nil hrest] at h
      show ((bullet ++ first) :: rest.map (' ' :: ' ' :: ·)).getLast? = _
      rw [List.getLast?_cons_of_ne_nil hmap, List.getLast?_map, h]
      rfl

/-- **The block of an item ends in its last word**, if that is not longer than a line. -/
theorem endsIn_itemBlock (hitem : Text.words item = words ++ [word]) (hword : IsWord word)
    (hlength : word.length + bulletWidth ≤ width) : EndsIn (itemBlock width item) word := by
  have hfits : word.length ≤ max (width - bulletWidth) 1 := by omega
  obtain ⟨full, current, hlines⟩ := exists_placeWords_append hword hfits words []
  rw [← hitem] at hlines
  have hlast : (wrapChars (width - bulletWidth) item).getLast? = some (lead current ++ word) := by
    rw [wrapChars, hlines, List.getLast?_concat]
  obtain ⟨mark, hmark, hline⟩ := getLast?_itemLines hlast
  -- a space stands before the word: that of the mark, or the one after the rest of the line
  obtain ⟨before, hbefore⟩ : ∃ before, mark ++ lead current = before ++ [' '] := by
    by_cases hne : current = []
    · subst hne
      rcases hmark with rfl | rfl
      · exact ⟨['-'], rfl⟩
      · exact ⟨[' '], rfl⟩
    · exact ⟨mark ++ current, by rw [lead_of_ne_nil hne, List.append_assoc]⟩
  have hne : itemLines width item ≠ [] := by
    intro hnil
    simp [hnil] at hline
  rw [← List.append_assoc, hbefore, List.append_assoc] at hline
  refine ⟨before ++ ' ' :: word, ?_, ?_, ?_⟩
  · rw [splitOn_itemBlock, if_neg hne]
    exact hline
  · rw [Text.words_append_cons Text.isBlank_space, hword.words_eq, List.getLast?_concat]
  · exact ⟨before ++ [' '], List.append_assoc before [' '] word⟩

end Layout

namespace Draft

open Layout

open Text (IsWord squash)

/-! ### Links in a draft -/

/-- The link to a pull request as it ends the words for a change. -/
def linkWord (forge : Forge) (number : Nat) : List Char :=
  ("(" ++ forge.pullLink number ++ ").").toList

section

variable {forge : Forge} {pull : PullRequest}

theorem isWord_linkWord {number : Nat}
    (h : ∀ c ∈ (forge.pullLink number).toList, Text.isBlank c = false) :
    IsWord (linkWord forge number) := by
  refine ⟨by simp [linkWord], fun c hc => ?_⟩
  simp only [linkWord, String.toList_append, List.mem_append] at hc
  rcases hc with (hc | hc) | hc
  · obtain rfl : c = '(' := by simpa using hc
    decide
  · exact h c hc
  · obtain rfl | rfl : c = ')' ∨ c = '.' := by simpa using hc
    · decide
    · decide

theorem length_linkWord (forge : Forge) (number : Nat) :
    (linkWord forge number).length = (forge.pullLink number).length + 3 := by
  rw [linkWord, String.length_toList, String.length_append, String.length_append]
  show 1 + (forge.pullLink number).length + 2 = _
  omega

/-- The link is the last word for a change. -/
theorem words_label (h : IsWord (linkWord forge pull.number)) :
    Text.words (label forge pull).toList =
      Text.words (Text.trim pull.title.toList) ++ [linkWord forge pull.number] := by
  have hlabel : (label forge pull).toList =
      Text.trim pull.title.toList ++ ' ' :: linkWord forge pull.number := by
    simp only [label, linkWord, trimmed, String.toList_append, String.toList_ofList,
      List.append_assoc]
    rfl
  rw [hlabel, Text.words_append_cons Text.isBlank_space, h.words_eq]

/-- A draft has a block for each of its pull requests. -/
theorem blocks_listText {width : Nat} {pulls : List PullRequest} (hne : pulls ≠ []) :
    blocks (listText forge width pulls) =
      pulls.map fun pull => itemBlock width (label forge pull).toList := by
  have hlabels : pulls.map (label forge) ≠ [] := by simpa using hne
  rw [listText, blocks_listBlock hlabels]
  simp only [List.map_map, Function.comp_def]

/-- **Links stay whole.**  If the link to a pull request of a draft has no blanks and is at least
five columns shorter than the draft is wide, then it is not broken: the block of the pull request
ends in the link, in brackets and with a full stop. -/
theorem link_whole (forge : Forge) (tag : Tag) (pulls : List PullRequest) (width i : Nat)
    (pull : PullRequest) (hpull : pulls[i]? = some pull)
    (hblank : ∀ c ∈ (forge.pullLink pull.number).toList, Text.isBlank c = false)
    (hlength : (forge.pullLink pull.number).length + 5 ≤ width) :
    ∃ list block, render forge tag pulls width = .ok (banner forge tag ++ "\n" ++ list) ∧
      (blocks list.toList).length = pulls.length ∧ (blocks list.toList)[i]? = some block ∧
      squash (itemText block) = squash (label forge pull).toList ∧
      EndsIn block ("(" ++ forge.pullLink pull.number ++ ").").toList := by
  have hwidth : 2 < width := by omega
  have hword := isWord_linkWord hblank
  have hfits : (linkWord forge pull.number).length + bulletWidth ≤ width := by
    rw [length_linkWord, bulletWidth]
    omega
  have hne : pulls ≠ [] := by
    rintro rfl
    simp at hpull
  refine ⟨String.ofList (listText forge width pulls), itemBlock width (label forge pull).toList,
    render_eq hwidth forge tag pulls, ?_⟩
  rw [String.toList_ofList, blocks_listText hne]
  refine ⟨List.length_map _, ?_, squash_itemText width _, ?_⟩
  · rw [List.getElem?_map, hpull]
    rfl
  · exact endsIn_itemBlock (words_label hword) hword hfits

end

/-! ### A line with room for just the link -/

namespace Narrow

def forge : Forge := ⟨⟨"m", "i"⟩, .https "w" [""] none, "w/", none⟩

def tag : Tag := ⟨"v1", ⟨600, 0⟩⟩

/-- Two pull requests; the title of the second has a link of its own, after an empty line. -/
def pulls : List PullRequest :=
  [⟨12, "Add", ⟨1300, 0⟩, some ⟨800, 0⟩⟩,
    ⟨7, "Fix\n\n- ([#8](w/m/i/pull/8)).", ⟨1200, 0⟩, some ⟨900, 0⟩⟩]

end Narrow

theorem link_whole_sample : (Narrow.forge.pullLink 7).length + 5 = 23 ∧
    ∃ list block, render Narrow.forge Narrow.tag Narrow.pulls 23 =
        .ok (banner Narrow.forge Narrow.tag ++ "\n" ++ list) ∧
      (blocks list.toList).length = 2 ∧ (blocks list.toList)[1]? = some block ∧
      squash (itemText block) =
        "Fix-([#8](w/m/i/pull/8)).([#7](w/m/i/pull/7)).".toList ∧
      EndsIn block "([#7](w/m/i/pull/7)).".toList := by
  open Narrow in
  have hlength : (forge.pullLink 7).length + 5 = 23 := by decide +kernel
  have hplain : (forge.pullLink 7).toList.all (!Text.isBlank ·) = true := by decide +kernel
  obtain ⟨list, block, hrender, hblocks, hblock, htext, hend⟩ := link_whole forge tag pulls 23 1 _ rfl
    (fun c hc => by simpa using List.all_eq_true.1 hplain c hc) hlength.le
  exact ⟨hlength, list, block, hrender, hblocks, hblock, htext.trans (by decide +kernel), hend⟩

end Draft

end ReleaseDraft

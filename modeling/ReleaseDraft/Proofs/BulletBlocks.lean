import ReleaseDraft.Draft
import ReleaseDraft.Proofs.Wrapping

/-!
# A bullet list can be undone

The text of a bullet list has its items in blocks with a blank line between two of them.
`Layout.blocks` cuts a text at blank lines and `Layout.itemText` takes bullet and indent away from
the lines of a block; both know nothing of the items.  As no block has a blank line inside
(`Layout.isSolid_intercalate`), cutting gives back the blocks (`Layout.blocks_intercalate`), one for
each item, and each has the text of its item up to blanks (`Draft.bullets_undone`).
-/

namespace ReleaseDraft

namespace Layout

/-! ### Reading a bullet list -/

/-- The text cut at every two line ends in a row, from the left. -/
def blocks : List Char → List (List Char)
  | [] => [[]]
  | '\n' :: '\n' :: rest => [] :: blocks rest
  | c :: rest => (blocks rest).modifyHead (c :: ·)

/-- A line without what it is marked with, if it is marked so. -/
def unmarked (mark line : List Char) : List Char :=
  if mark <+: line then line.drop mark.length else line

def bullet : List Char := ['-', ' ']

def indent : List Char := [' ', ' ']

/-- The lines of a block without the bullet of the first and the indents of the others. -/
def itemText (block : List Char) : List Char :=
  match block.splitOn '\n' with
  | [] => []
  | first :: rest =>
    ['\n'].intercalate (unmarked bullet first :: rest.map (unmarked indent))

/-- The first line of a block. -/
def firstLine (block : List Char) : List Char := (block.splitOn '\n').headD []

/-- Has a character that is not blank. -/
def hasText (item : String) : Bool := item.toList.any (!Text.isBlank ·)

/-! ### Cutting at blank lines -/

/-- A block without a blank line and without a line end at its end. -/
structure IsSolid (block : List Char) : Prop where
  single : block.IsChain fun a b => ¬(a = '\n' ∧ b = '\n')
  last : block.getLast? ≠ some '\n'

variable {block rest : List Char} {list lines : List (List Char)} {c : Char}

theorem IsSolid.tail (h : IsSolid (c :: block)) : IsSolid block := by
  refine ⟨(List.isChain_cons.1 h.single).2, fun hlast => ?_⟩
  have hne : block ≠ [] := by
    rintro rfl
    cases hlast
  exact h.last (by rwa [List.getLast?_cons_of_ne_nil hne])

/-- A line end in a solid block is followed by another character of the block. -/
theorem blocks_cons_append (h : IsSolid (c :: block)) (rest : List Char) :
    blocks (c :: (block ++ rest)) = (blocks (block ++ rest)).modifyHead (c :: ·) := by
  cases block with
  | nil =>
    have hc : c ≠ '\n' := by simpa using h.last
    rw [blocks]
    rintro rest rfl
    exact absurd rfl hc
  | cons d block =>
    have hcd := (List.isChain_cons_cons.1 h.single).1
    rw [List.cons_append, blocks]
    rintro rest rfl hrest
    cases hrest
    exact hcd ⟨rfl, rfl⟩

theorem blocks_append (h : IsSolid block) (rest : List Char) :
    blocks (block ++ '\n' :: '\n' :: rest) = block :: blocks rest := by
  induction block with
  | nil => rfl
  | cons c block ih =>
    rw [List.cons_append, blocks_cons_append h, ih h.tail]
    rfl

theorem blocks_of_isSolid (h : IsSolid block) : blocks block = [block] := by
  induction block with
  | nil => rfl
  | cons c block ih =>
    have hcons := blocks_cons_append h []
    rw [List.append_nil, ih h.tail] at hcons
    exact hcons

/-- **Cutting at blank lines gives back the blocks** that were joined by blank lines. -/
theorem blocks_intercalate (hne : list ≠ []) (h : ∀ block ∈ list, IsSolid block) :
    blocks (['\n', '\n'].intercalate list) = list := by
  induction list with
  | nil => exact absurd rfl hne
  | cons block list ih =>
    obtain ⟨hblock, hlist⟩ := List.forall_mem_cons.1 h
    cases list with
    | nil => rw [List.intercalate_singleton, blocks_of_isSolid hblock]
    | cons next list =>
      rw [List.intercalate_cons_cons, List.append_assoc]
      exact (blocks_append hblock _).trans (congrArg _ (ih (List.cons_ne_nil _ _) hlist))

theorem isSolid_of_not_mem (h : '\n' ∉ block) : IsSolid block where
  single := List.Pairwise.isChain <|
    List.pairwise_of_forall_mem_list fun _ ha _ _ hends => h (hends.1 ▸ ha)
  last hlast := h (List.mem_of_getLast? hlast)

/-- Lines that are not empty make a solid block. -/
theorem isSolid_intercalate (h : ∀ line ∈ lines, line ≠ [] ∧ '\n' ∉ line) :
    IsSolid (['\n'].intercalate lines) := by
  induction lines with
  | nil => exact isSolid_of_not_mem (by simp)
  | cons line lines ih =>
    obtain ⟨⟨-, hline⟩, hlines⟩ := List.forall_mem_cons.1 h
    cases lines with
    | nil => exact isSolid_of_not_mem (by simpa using hline)
    | cons next lines =>
      -- what follows the line end is the first character of the next line
      obtain ⟨⟨hne, hnext⟩, -⟩ := List.forall_mem_cons.1 hlines
      obtain ⟨d, next, rfl⟩ := List.exists_cons_of_ne_nil hne
      have hd : d ≠ '\n' := fun hd => hnext (hd ▸ List.mem_cons_self)
      have hrest := ih hlines
      rw [List.intercalate_cons_cons_left] at hrest
      rw [List.intercalate_cons_cons, List.intercalate_cons_cons_left, List.append_assoc]
      constructor
      · refine List.isChain_append.2 ⟨(isSolid_of_not_mem hline).single,
          List.isChain_cons_cons.2 ⟨fun hends => hd hends.2, hrest.single⟩, ?_⟩
        intro a ha _ _ hends
        exact hline (hends.1 ▸ List.mem_of_getLast? ha)
      · rw [List.singleton_append, List.getLast?_append_cons, List.getLast?_cons_cons]
        exact hrest.last

/-! ### Lines of the whole list -/

/-- The lines of a text in blocks are those of its blocks, with an empty line between two blocks. -/
theorem splitOn_intercalate_blocks (hne : list ≠ []) :
    (['\n', '\n'].intercalate list).splitOn '\n' =
      [[]].intercalate (list.map (List.splitOn '\n')) := by
  induction list with
  | nil => exact absurd rfl hne
  | cons block list ih =>
    cases list with
    | nil => simp
    | cons next list =>
      let rest := ['\n', '\n'].intercalate (next :: list)
      calc (['\n', '\n'].intercalate (block :: next :: list)).splitOn '\n'
        _ = (block ++ '\n' :: ([] ++ '\n' :: rest)).splitOn '\n' := by
          rw [List.intercalate_cons_cons, List.append_assoc]
          rfl
        _ = block.splitOn '\n' ++ [[]] ++ rest.splitOn '\n' := by
          rw [List.splitOn_append_cons_self, List.splitOn_append_cons_self, List.splitOn_nil,
            List.append_assoc]
        _ = [[]].intercalate ((block :: next :: list).map (List.splitOn '\n')) := by
          rw [ih (List.cons_ne_nil _ _)]
          exact List.intercalate_cons_cons.symm

/-! ### Items -/

variable {width : Nat} {item line : List Char}

theorem exists_of_mem_itemLines (h : line ∈ itemLines width item) :
    ∃ mark text, (mark = bullet ∨ mark = indent) ∧ text ∈ wrapChars (width - bulletWidth) item ∧
      line = mark ++ text := by
  unfold itemLines at h
  cases hwrap : wrapChars (width - bulletWidth) item with
  | nil => simp [hwrap] at h
  | cons first rest =>
    rw [hwrap] at h
    rcases List.mem_cons.1 h with rfl | h
    · exact ⟨bullet, first, .inl rfl, List.mem_cons_self, rfl⟩
    · obtain ⟨text, htext, rfl⟩ := List.mem_map.1 h
      exact ⟨indent, text, .inr rfl, List.mem_cons_of_mem _ htext, rfl⟩

/-- The only blank on a line is the space. -/
theorem newline_not_mem_itemLines (h : line ∈ itemLines width item) : '\n' ∉ line := by
  obtain ⟨mark, text, hmark, htext, rfl⟩ := exists_of_mem_itemLines h
  intro hend
  rcases List.mem_append.1 hend with hend | hend
  · rcases hmark with rfl | rfl <;> simp [bullet, indent] at hend
  · have htidy := (fits_of_mem_wrapChars text htext).tidy
    exact absurd (htidy.blank _ hend (by decide)) (by decide)

theorem length_le_of_mem_itemLines (hwidth : 2 < width) (h : line ∈ itemLines width item) :
    line.length ≤ width := by
  obtain ⟨mark, text, hmark, htext, rfl⟩ := exists_of_mem_itemLines h
  have hlength := (fits_of_mem_wrapChars text htext).length_le
  have hbullet : mark.length = bulletWidth := by rcases hmark with rfl | rfl <;> rfl
  rw [List.length_append, hbullet]
  unfold bulletWidth at hlength ⊢
  omega

theorem isSolid_itemBlock (width : Nat) (item : List Char) : IsSolid (itemBlock width item) := by
  refine isSolid_intercalate fun line hline => ⟨?_, newline_not_mem_itemLines hline⟩
  obtain ⟨mark, text, hmark, -, rfl⟩ := exists_of_mem_itemLines hline
  rcases hmark with rfl | rfl <;> simp [bullet, indent]

/-- The lines of a block: those of its item, or one empty line for an item without words. -/
theorem splitOn_itemBlock (width : Nat) (item : List Char) : (itemBlock width item).splitOn '\n' =
    if itemLines width item = [] then [[]] else itemLines width item := by
  split_ifs with h
  · rw [itemBlock, h]
    rfl
  · exact List.splitOn_intercalate _ (fun _ => newline_not_mem_itemLines) h

theorem unmarked_append (mark line : List Char) : unmarked mark (mark ++ line) = line := by
  simp [unmarked]

/-- **A block has the text of its item** up to blanks. -/
theorem squash_itemText (width : Nat) (item : List Char) :
    Text.squash (itemText (itemBlock width item)) = Text.squash item := by
  have hlines := flatMap_squash_wrapChars (width - bulletWidth) item
  rw [itemText, splitOn_itemBlock, itemLines]
  cases hwrap : wrapChars (width - bulletWidth) item with
  | nil =>
    rw [hwrap] at hlines
    exact hlines
  | cons first rest =>
    rw [hwrap] at hlines
    have hfirst : unmarked bullet ('-' :: ' ' :: first) = first := unmarked_append bullet first
    have hrest : (rest.map (' ' :: ' ' :: ·)).map (unmarked indent) = rest := by
      rw [List.map_map]
      exact List.map_id'' (unmarked_append indent) rest
    simp only [List.cons_ne_nil, ↓reduceIte, hfirst, hrest]
    exact (filter_intercalate (by decide) _).trans hlines

theorem hasText_eq_false_iff {item : String} (width : Nat) :
    hasText item = false ↔ wrapChars width item.toList = [] := by
  rw [wrapChars_eq_nil_iff, ← Text.squash_eq_nil_iff, Text.squash, List.filter_eq_nil_iff]
  simp [hasText]

/-- Only the first line of a block has a bullet, and only if its item has text. -/
theorem filter_bullet_itemBlock (width : Nat) (item : String) :
    ((itemBlock width item.toList).splitOn '\n').filter bullet.isPrefixOf =
      if hasText item then [firstLine (itemBlock width item.toList)] else [] := by
  have htext := @hasText_eq_false_iff item (width - bulletWidth)
  rw [firstLine, splitOn_itemBlock, itemLines]
  cases hwrap : wrapChars (width - bulletWidth) item.toList with
  | nil =>
    rw [htext.2 hwrap]
    rfl
  | cons first rest =>
    have hitem : hasText item = true := by
      rw [← Bool.not_eq_false, htext, hwrap]
      simp
    have hrest : (rest.map (' ' :: ' ' :: ·)).filter bullet.isPrefixOf = [] := by
      simp [List.filter_eq_nil_iff, bullet]
    rw [hitem]
    simp only [List.cons_ne_nil, ↓reduceIte, List.filter_cons, hrest, List.headD_cons]
    rfl

/-! ### The whole list -/

variable {items : List String}

theorem listBlock_eq (width : Nat) (items : List String) :
    listBlock width (items.map String.toList) =
      ['\n', '\n'].intercalate (items.map fun item => itemBlock width item.toList) := by
  rw [listBlock, List.map_map]
  rfl

theorem blocks_listBlock (hne : items ≠ []) : blocks (listBlock width (items.map String.toList)) =
    items.map fun item => itemBlock width item.toList := by
  rw [listBlock_eq]
  refine blocks_intercalate (by simpa using hne) fun block hblock => ?_
  obtain ⟨item, -, rfl⟩ := List.mem_map.1 hblock
  exact isSolid_itemBlock width _

/-- Lines of the whole list with a property that the empty line does not have are those of the
items. -/
theorem filter_lines_listBlock {p : List Char → Bool} (hp : p [] = false) (hne : items ≠ []) :
    ((listBlock width (items.map String.toList)).splitOn '\n').filter p =
      items.flatMap fun item => ((itemBlock width item.toList).splitOn '\n').filter p := by
  rw [listBlock_eq, splitOn_intercalate_blocks (by simpa using hne),
    filter_intercalate (by simp [hp]), List.map_map, List.flatMap_map]
  rfl

theorem length_le_of_mem_lines (hwidth : 2 < width) (hne : items ≠ [])
    (h : line ∈ (listBlock width (items.map String.toList)).splitOn '\n') :
    line.length ≤ width := by
  -- no item has a line that is too long, so none is left when the others are filtered out
  have hnone : ((listBlock width (items.map String.toList)).splitOn '\n').filter
      (fun line => decide (width < line.length)) = [] := by
    rw [filter_lines_listBlock (by simp) hne, List.flatMap_eq_nil_iff]
    intro item _
    rw [List.filter_eq_nil_iff, splitOn_itemBlock]
    intro line hline
    split_ifs at hline
    · obtain rfl := List.mem_singleton.1 hline
      simp
    · simpa using length_le_of_mem_itemLines hwidth hline
  simpa using List.filter_eq_nil_iff.1 hnone line h

theorem flatMap_ite_singleton {α β : Type} (p : α → Bool) (f : α → β) (list : List α) :
    (list.flatMap fun a => if p a then [f a] else []) = (list.filter p).map f := by
  induction list with
  | nil => rfl
  | cons a list ih =>
    rw [List.flatMap_cons, ih, List.filter_cons]
    split_ifs <;> rfl

end Layout

namespace Draft

open Layout

theorem bullets_eq (width : Nat) (items : List String) : bullets width items =
    if width ≤ 2 then .error (.invalidWidth width)
    else .ok (String.ofList (listBlock width (items.map String.toList))) := by
  unfold bullets bulletList bulletWidth
  split_ifs <;> rfl

/-- **A bullet list can be undone.**  A width of two or less is refused.  Otherwise no line is
wider than the width, and cutting the text at blank lines and taking bullets and indents away gives
one text for each item, which has the characters of the item that are not blank.  The lines with a
bullet are the first lines of the items that have text. -/
theorem bullets_undone (width : Nat) (items : List String) :
    (width ≤ 2 → bullets width items = .error (.invalidWidth width)) ∧
      (2 < width → items ≠ [] → ∃ list, bullets width items = .ok list ∧
        (∀ line ∈ list.toList.splitOn '\n', line.length ≤ width) ∧
        ((blocks list.toList).map fun block => Text.squash (itemText block)) =
          (items.map fun item => Text.squash item.toList) ∧
        (list.toList.splitOn '\n').filter bullet.isPrefixOf =
          (((blocks list.toList).zip items).filter (hasText ·.2)).map (firstLine ·.1)) := by
  constructor
  · intro hwidth
    rw [bullets_eq, if_pos hwidth]
  · intro hwidth hne
    refine ⟨_, by rw [bullets_eq, if_neg (Nat.not_le.2 hwidth)], ?_⟩
    rw [String.toList_ofList, blocks_listBlock hne]
    refine ⟨fun line => length_le_of_mem_lines hwidth hne, ?_, ?_⟩
    · rw [List.map_map]
      exact List.map_congr_left fun item _ => squash_itemText width item.toList
    · have hzip : (items.map fun item => itemBlock width item.toList).zip items =
          items.map fun item => (itemBlock width item.toList, item) := by
        simpa using @List.zip_map' _ _ _ (fun item => itemBlock width item.toList) id items
      rw [filter_lines_listBlock rfl hne, hzip, List.filter_map, List.map_map]
      simp only [filter_bullet_itemBlock]
      exact flatMap_ite_singleton hasText _ items

end Draft

end ReleaseDraft

import Mathlib.Data.List.DropRight
import Mathlib.Data.List.Forall2
import ReleaseDraft.Proofs.BulletBlocks

/-!
# A draft can be read back

A title is arbitrary text, and may look like a link or a bullet itself.  Still a draft tells which
pull requests it was written for.  The words for a change end in `/pull/N)).`, so the number is the
run of digits in front of that end (`Draft.numberIn`); with the number the whole reference is known,
and the title is what stands before it (`Draft.titleIn`).  Both look at a text without its blanks,
as line breaks may stand anywhere.

`Draft.changesIn` reads numbers and titles from the text of a bullet list, whatever the width of the
list (`Draft.changesIn_listText`).  So drafts with the same text were written for the same changes
(`Draft.render_faithful`).
-/

namespace ReleaseDraft

namespace Text

/-! ### Texts without blanks -/

theorem squash_dropWhile (text : List Char) : squash (text.dropWhile isBlank) = squash text := by
  induction text with
  | nil => rfl
  | cons c text ih =>
    rw [List.dropWhile_cons]
    split_ifs with hc
    · rw [ih]
      simp [squash, hc]
    · rfl

theorem squash_reverse (text : List Char) : squash text.reverse = (squash text).reverse :=
  List.filter_reverse

theorem squash_trim (text : List Char) : squash (trim text) = squash text := by
  rw [trim, trimEnd, trimStart, squash_reverse, squash_dropWhile, squash_reverse,
    List.reverse_reverse, squash_dropWhile]

theorem squash_toDigits (n : Nat) : squash (Nat.toDigits 10 n) = Nat.toDigits 10 n := by
  refine List.filter_eq_self.2 fun c hc => ?_
  have hdigit : c.isDigit = true :=
    Nat.isDigit_of_mem_toDigits (by decide) (by decide) hc
  simp [isBlank_eq_false_of_isDigit hdigit]

end Text

namespace Draft

open Layout

open Text (squash)

/-! ### Reading a change -/

/-- What the words for a change have after the title, without blanks. -/
def reference (forge : Forge) (number : Nat) : List Char :=
  squash (" (" ++ forge.pullLink number ++ ").").toList

/-- The number in the words for a change: the digits before two brackets and a full stop. -/
def numberIn (text : List Char) : Nat :=
  Nat.ofDigitChars 10 (((squash text).rdrop 3).rtakeWhile Char.isDigit) 0

/-- The title in the words for a change, without blanks: what stands before the reference. -/
def titleIn (forge : Forge) (text : List Char) : List Char :=
  (squash text).rdrop (reference forge (numberIn text)).length

/-- The numbers and titles of the changes in the text of a bullet list. -/
def changesIn (forge : Forge) (list : List Char) : List (Nat × List Char) :=
  if list.isEmpty then []
  else (blocks list).map fun block => (numberIn (itemText block), titleIn forge (itemText block))

/-- The text of the bullet list for some pull requests. -/
def listText (forge : Forge) (width : Nat) (pulls : List PullRequest) : List Char :=
  listBlock width ((pulls.map (label forge)).map String.toList)

/-- The same number, and the same title up to blanks. -/
def SameChange (a b : PullRequest) : Prop :=
  a.number = b.number ∧ squash a.title.toList = squash b.title.toList

section

variable {forge : Forge} {text : List Char} {pull : PullRequest}

theorem squash_label (forge : Forge) (pull : PullRequest) :
    squash (label forge pull).toList =
      squash pull.title.toList ++ reference forge pull.number := by
  simp only [label, reference, trimmed, String.toList_append, String.toList_ofList,
    Text.squash_append, Text.squash_trim, List.append_assoc]

/-- A reference ends with its number after a slash, and three characters. -/
theorem exists_reference_eq (forge : Forge) (number : Nat) :
    ∃ front, reference forge number =
      front ++ '/' :: Nat.toDigits 10 number ++ [')', ')', '.'] := by
  let start := " ([#" ++ toString number ++ "](" ++ Forge.trimSlashes forge.webUrl ++ "/" ++
    forge.repo.text ++ "/pull"
  have hsplit : " (" ++ forge.pullLink number ++ ")." =
      start ++ "/" ++ toString number ++ "))." := by
    simp only [start, Forge.pullLink, String.append_assoc]
    rfl
  refine ⟨squash start.toList, ?_⟩
  rw [reference, hsplit]
  simp only [String.toList_append, Text.squash_append, Nat.toString_eq_repr, Nat.toList_repr,
    Text.squash_toDigits, List.append_assoc]
  rfl

theorem rtakeWhile_isDigit (front : List Char) (n : Nat) :
    (front ++ '/' :: Nat.toDigits 10 n).rtakeWhile Char.isDigit = Nat.toDigits 10 n := by
  have hdigits : ∀ c ∈ (Nat.toDigits 10 n).reverse, c.isDigit = true := fun c hc =>
    Nat.isDigit_of_mem_toDigits (by decide) (by decide) (List.mem_reverse.1 hc)
  have hslash : (['/'] ++ front.reverse).takeWhile Char.isDigit = [] := rfl
  rw [List.rtakeWhile, List.reverse_append, List.reverse_cons, List.append_assoc,
    List.takeWhile_append_of_pos hdigits, hslash, List.append_nil, List.reverse_reverse]

/-- **The number of a change can be read**, whatever its title is. -/
theorem numberIn_eq (h : squash text = squash (label forge pull).toList) :
    numberIn text = pull.number := by
  obtain ⟨front, hreference⟩ := exists_reference_eq forge pull.number
  rw [numberIn, h, squash_label, hreference, ← List.append_assoc]
  have hdrop := @List.rdrop_append_length _
    (squash pull.title.toList ++ (front ++ '/' :: Nat.toDigits 10 pull.number)) [')', ')', '.']
  rw [show ([')', ')', '.'] : List Char).length = 3 from rfl] at hdrop
  rw [hdrop, ← List.append_assoc, rtakeWhile_isDigit]
  exact Nat.ofDigitChars_toDigits (by decide) (by decide)

/-- **The title of a change can be read** up to its blanks. -/
theorem titleIn_eq (h : squash text = squash (label forge pull).toList) :
    titleIn forge text = squash pull.title.toList := by
  rw [titleIn, numberIn_eq h, h, squash_label, List.rdrop_append_length]

/-! ### Reading a list of changes -/

variable {width : Nat} {pulls : List PullRequest}

theorem squash_label_ne_nil (forge : Forge) (pull : PullRequest) :
    squash (label forge pull).toList ≠ [] := by
  obtain ⟨front, hreference⟩ := exists_reference_eq forge pull.number
  rw [squash_label, hreference]
  simp

/-- The words for a change have text. -/
theorem hasText_label (forge : Forge) (pull : PullRequest) :
    hasText (label forge pull) = true := by
  rw [← Bool.not_eq_false, hasText_eq_false_iff 0, wrapChars_eq_nil_iff, ← Text.squash_eq_nil_iff]
  exact squash_label_ne_nil forge pull

theorem itemBlock_label_ne_nil (width : Nat) (forge : Forge) (pull : PullRequest) :
    itemBlock width (label forge pull).toList ≠ [] := by
  intro hnil
  have hsquash := squash_itemText width (label forge pull).toList
  rw [hnil] at hsquash
  exact squash_label_ne_nil forge pull hsquash.symm

/-- Only the empty list of changes has an empty text. -/
theorem listText_ne_nil (hne : pulls ≠ []) : listText forge width pulls ≠ [] := by
  intro hnil
  obtain ⟨pull, rest, rfl⟩ := List.exists_cons_of_ne_nil hne
  have hblocks := @blocks_listBlock width ((pull :: rest).map (label forge)) (by simp)
  rw [← listText, hnil] at hblocks
  -- an empty text is one empty block, but the block of a change is not empty
  exact itemBlock_label_ne_nil width forge pull (List.cons.inj hblocks).1.symm

/-- **The changes of a bullet list can be read**, whatever its width. -/
theorem changesIn_listText (forge : Forge) (width : Nat) (pulls : List PullRequest) :
    changesIn forge (listText forge width pulls) =
      pulls.map fun pull => (pull.number, squash pull.title.toList) := by
  by_cases hne : pulls = []
  · subst hne
    rfl
  · have hlabels : pulls.map (label forge) ≠ [] := by simpa using hne
    have hlist : (listText forge width pulls).isEmpty = false := by
      simpa using listText_ne_nil hne
    rw [changesIn, hlist, listText, blocks_listBlock hlabels]
    simp only [Bool.false_eq_true, ↓reduceIte, List.map_map]
    refine List.map_congr_left fun pull _ => ?_
    have hsquash := squash_itemText width (label forge pull).toList
    simp only [Function.comp_apply, numberIn_eq hsquash, titleIn_eq hsquash]

/-! ### Drafts -/

theorem render_eq (hwidth : 2 < width) (forge : Forge) (tag : Tag) (pulls : List PullRequest) :
    render forge tag pulls width =
      .ok (banner forge tag ++ "\n" ++ String.ofList (listText forge width pulls)) := by
  rw [render, bullets_eq, if_neg (Nat.not_le.2 hwidth)]
  rfl

/-- There is one line with a bullet for each change: the first line of its block. -/
theorem filter_bullet_listText (forge : Forge) (width : Nat) (pulls : List PullRequest) :
    ((listText forge width pulls).splitOn '\n').filter bullet.isPrefixOf =
      pulls.map fun pull => firstLine (itemBlock width (label forge pull).toList) := by
  by_cases hne : pulls = []
  · subst hne
    rfl
  · rw [listText, filter_lines_listBlock rfl (by simpa using hne), List.flatMap_map]
    simp only [filter_bullet_itemBlock, hasText_label, ↓reduceIte]
    exact List.flatMap_pure_eq_map _ _

/-- **A draft is faithful to its pull requests.**  If two drafts for the same forge and tag have the
same text, whatever their widths, then they are for as many pull requests, with the same numbers
and, up to blanks, the same titles in the same order.  After the banner a draft has exactly one line
with a bullet for each pull request, in their order. -/
theorem render_faithful (forge : Forge) (tag : Tag) (pulls others : List PullRequest)
    (width width' : Nat) (hwidth : 2 < width) (hwidth' : 2 < width') :
    (render forge tag pulls width = render forge tag others width' →
      List.Forall₂ SameChange pulls others) ∧
    ∃ list, render forge tag pulls width = .ok (banner forge tag ++ list) ∧
      (list.toList.splitOn '\n').filter bullet.isPrefixOf =
        pulls.map fun pull => firstLine (itemBlock width (label forge pull).toList) := by
  constructor
  · intro h
    rw [render_eq hwidth, render_eq hwidth'] at h
    have hlist : listText forge width pulls = listText forge width' others := by
      simpa [String.ofList_inj] using h
    -- the changes that are read from the text are the same
    have hchanges := congrArg (changesIn forge) hlist
    rw [changesIn_listText, changesIn_listText, ← List.forall₂_eq_eq_eq,
      List.forall₂_map_left_iff, List.forall₂_map_right_iff] at hchanges
    exact hchanges.imp fun _ _ hsame => Prod.mk.inj hsame
  · let list := listText forge width pulls
    have htext : ("\n" ++ String.ofList list).toList = '\n' :: list := by simp
    -- the line end after the banner only adds an empty line
    have hlines : ('\n' :: list).splitOn '\n' = [] :: list.splitOn '\n' :=
      List.splitOn_append_cons_self [] list
    refine ⟨"\n" ++ String.ofList list, by rw [render_eq hwidth, String.append_assoc], ?_⟩
    rw [htext, hlines, ← filter_bullet_listText]
    rfl

end

/-! ### A title that looks like a bullet -/

namespace Disguise

/-- A forge with a short address. -/
def forge : Forge := ⟨⟨"m", "i"⟩, .https "w" [""] none, "w/", none⟩

def tag : Tag := ⟨"v1", ⟨600, 0⟩⟩

/-- A title with a line that looks like a bullet, and with a link to another pull request. -/
def disguised : PullRequest :=
  ⟨7, "Fix\n\n- ([#8](w/m/i/pull/8)).", ⟨1200, 0⟩, some ⟨900, 0⟩⟩

/-- The same with other blanks. -/
def respaced : PullRequest :=
  ⟨7, " Fix -  ([#8](w/m/i/pull/8)). ", ⟨1300, 0⟩, some ⟨800, 0⟩⟩

theorem bulletList_eq : Layout.bulletList 40 [label forge disguised] =
    Layout.bulletList 32 [label forge respaced] := by
  decide +kernel

end Disguise

theorem render_faithful_sample :
    render Disguise.forge Disguise.tag [Disguise.disguised] 40 =
        render Disguise.forge Disguise.tag [Disguise.respaced] 32 ∧
      SameChange Disguise.disguised Disguise.respaced := by
  open Disguise in
  have hsame : render forge tag [disguised] 40 = render forge tag [respaced] 32 := by
    simp only [render, bullets, List.map_cons, List.map_nil, bulletList_eq]
    rfl
  have hfaithful := render_faithful forge tag [disguised] [respaced] 40 32 (by decide) (by decide)
  exact ⟨hsame, (List.forall₂_cons.1 (hfaithful.1 hsame)).1⟩

end Draft

end ReleaseDraft

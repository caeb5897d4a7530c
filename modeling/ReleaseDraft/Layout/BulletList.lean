import ReleaseDraft.Layout.Wrap

/-!
# Bullet lists

Each item is wrapped two columns narrower than the list.  Its first line starts with a dash and a
space, every further line with two spaces, and a blank line stands between two items.  An item
without words has no line.  A width that leaves no column for text is refused.
-/

namespace ReleaseDraft

namespace Layout

/-- Columns that the bullet takes from every line. -/
def bulletWidth : Nat := 2

/-- The lines of one item: a dash before the first, an indent before the others. -/
def itemLines (width : Nat) (item : List Char) : List (List Char) :=
  match wrapChars (width - bulletWidth) item with
  | [] => []
  | line :: rest => ('-' :: ' ' :: line) :: rest.map (' ' :: ' ' :: ·)

/-- The text of one item. -/
def itemBlock (width : Nat) (item : List Char) : List Char :=
  ['\n'].intercalate (itemLines width item)

/-- The text of a list of items, with a blank line between two of them. -/
def listBlock (width : Nat) (items : List (List Char)) : List Char :=
  ['\n', '\n'].intercalate (items.map (itemBlock width))

/-- The bullet list of some items, or nothing when `width` has no column for text. -/
def bulletList (width : Nat) (items : List String) : Option String :=
  if width ≤ bulletWidth then none
  else some (String.ofList (listBlock width (items.map String.toList)))

end Layout

end ReleaseDraft

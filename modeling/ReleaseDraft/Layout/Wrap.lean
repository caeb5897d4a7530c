import ReleaseDraft.Text.Blank

/-!
# Greedy wrapping

A text is laid out word by word into lines of at most `width` characters.  A word goes on the
current line if it fits there after one space, otherwise on a line of its own.  Only a word that
is longer than a whole line is cut: it first fills the rest of the current line, then whole
lines, and its last piece starts the line that the next word may join.

`wrap` is the layout of a text; width `0` is taken as `1`, so every line has room for a character.
-/

namespace ReleaseDraft

namespace Layout

/-- Cuts a text into pieces of `k + 1` characters; the last piece may be shorter. -/
def chunk (k : Nat) (cs : List Char) : List (List Char) :=
  if cs.length ≤ k + 1 then [cs] else cs.take (k + 1) :: chunk k (cs.drop (k + 1))
termination_by cs.length
decreasing_by simp only [List.length_drop]; omega

/-- The current line as it stands before a further word: with a space after it, if it has text. -/
def lead (line : List Char) : List Char := if line.isEmpty then [] else line ++ [' ']

/-- Lays one word after the current line.  The result has the lines that are full now and the new
current line. -/
def placeWord (width : Nat) (line word : List Char) : List (List Char) × List Char :=
  if (lead line).length + word.length ≤ width then ([], lead line ++ word)
  else if word.length ≤ width then ([line], word)
  else
    let room := width - (lead line).length
    let first := if room = 0 then line else lead line ++ word.take room
    let pieces := chunk (width - 1) (word.drop room)
    (first :: pieces.dropLast, pieces.getLast?.getD [])

/-- Lays out words after the current line, up to and including the last line. -/
def placeWords (width : Nat) (line : List Char) : List (List Char) → List (List Char)
  | [] => if line.isEmpty then [] else [line]
  | word :: rest =>
    let placed := placeWord width line word
    placed.1 ++ placeWords width placed.2 rest

/-- The lines of a text wrapped at `width`, which counts as `1` when it is `0`. -/
def wrapChars (width : Nat) (text : List Char) : List (List Char) :=
  placeWords (max width 1) [] (Text.words text)

/-- The lines of a string wrapped at `width`. -/
def wrap (width : Nat) (text : String) : List String :=
  (wrapChars width text.toList).map String.ofList

end Layout

end ReleaseDraft

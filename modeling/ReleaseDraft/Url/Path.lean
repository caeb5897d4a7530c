import ReleaseDraft.Url.Percent

/-!
# Paths

The path of a URL is a list of segments, or a plain text when the URL has neither an authority nor a
leading slash.  Reading a path walks its segments from left to right: `.` is dropped, `..` takes the
last segment away, and either of them at the end leaves an empty last segment.  A drive letter is
never taken away.
-/

namespace ReleaseDraft

/-- A path. -/
inductive Path where
  | segments (list : List (List Char))
  | rootless (text : List Char)
  deriving DecidableEq, Repr

namespace Path

/-- The text of a path. -/
def text : Path → List Char
  | segments list => list.flatMap ('/' :: ·)
  | rootless text => text

/-! ### Segments -/

/-- Lower-case ASCII letters for upper-case ones. -/
def lower (text : List Char) : List Char := text.map Char.toLower

/-- A segment for the same place, also with the dot percent-encoded. -/
def isDot (segment : List Char) : Bool :=
  [".".toList, "%2e".toList].contains (lower segment)

/-- A segment for the place above, also with dots percent-encoded. -/
def isDotDot (segment : List Char) : Bool :=
  ["..".toList, ".%2e".toList, "%2e.".toList, "%2e%2e".toList].contains (lower segment)

/-- A letter and a colon or bar. -/
def isDrive : List Char → Bool
  | [letter, mark] => letter.isAlpha && (mark == ':' || mark == '|')
  | _ => false

/-- A letter and a colon. -/
def isNormalDrive : List Char → Bool
  | [letter, ':'] => letter.isAlpha
  | _ => false

/-- The text starts with a drive letter as its first segment. -/
def startsWithDrive (text : List Char) : Bool :=
  isDrive (text.takeWhile fun c => c != '/' && c != '\\')

/-! ### Walking -/

/-- The segments above a place. -/
def above (done : List (List Char)) : List (List Char) :=
  match done.getLast? with
  | some last => if isDrive last then done else done.dropLast
  | none => done

/-- A segment as it is kept; a file path starts with a drive letter in its normal form. -/
def kept (file : Bool) (done : List (List Char)) (segment : List Char) : List Char :=
  match segment with
  | [letter, _] => if file && done.isEmpty && isDrive segment then [letter, ':'] else segment
  | _ => segment

/-- Walks from the segments `done` along further segments. -/
def walkAlong (file : Bool) (done : List (List Char)) : List (List Char) → List (List Char)
  | [] => done
  | segment :: rest =>
    if isDotDot segment then
      if rest.isEmpty then above done ++ [[]] else walkAlong file (above done) rest
    else if isDot segment then
      if rest.isEmpty then done ++ [[]] else walkAlong file done rest
    else walkAlong file (done ++ [kept file done segment]) rest

/-- A character that ends a segment: a slash, and for special schemes also a backslash. -/
def endsSegment (special : Bool) (c : Char) : Bool := c == '/' || (special && c == '\\')

/-- Walks from the segments `done` along a text. -/
def walk (special file : Bool) (done : List (List Char)) (text : List Char) :
    List (List Char) :=
  let segments := (text.splitOnP (endsSegment special)).map (Percent.encode Percent.path)
  let walked := walkAlong file done segments
  if file then
    match walked.dropWhile List.isEmpty with
    | [] => [[]]
    | trimmed => trimmed
  else walked

end Path

end ReleaseDraft

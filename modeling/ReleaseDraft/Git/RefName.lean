/-!
# Names of references

A reference has a name of segments between slashes.  No segment is empty, starts with a dot, ends in
`.lock` or has two dots or `@` and `{` in a row; the name does not end in a dot.
-/

namespace ReleaseDraft

namespace Git

namespace RefName

/-- A character that no name has. -/
def isForbidden (c : Char) : Bool := c.toNat ≤ 0x20 || "~^:\\?[*".toList.contains c

/-- Two characters that no name has in a row. -/
def isForbiddenPair (a b : Char) : Bool := (a == '.' && b == '.') || (a == '@' && b == '{')

/-- Some two neighbours are a forbidden pair. -/
def hasForbiddenPair (text : List Char) : Bool :=
  (text.zip (text.drop 1)).any fun (a, b) => isForbiddenPair a b

/-- A segment of a name. -/
def isSegment (segment : List Char) : Bool :=
  !segment.isEmpty && segment.head? != some '.' && !segment.any isForbidden &&
    !hasForbiddenPair segment && !".lock".toList.isSuffixOf segment

/-- The name of a special reference such as `HEAD`. -/
def isSpecial (segment : List Char) : Bool :=
  segment.all (fun c => c.isUpper || c == '_') &&
    segment.head? != some '_' && segment.getLast? != some '_' && !segment.isEmpty

/-- A name that a reference can have. -/
def isValid (name : List Char) : Bool :=
  let segments := name.splitOn '/'
  segments.all isSegment && name.getLast? != some '.' &&
    match segments with
    | [only] => isSpecial only
    | first :: _ => !isSpecial first
    | [] => false

end RefName

end Git

end ReleaseDraft

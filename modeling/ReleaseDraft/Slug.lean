import ReleaseDraft.Text.Blank

/-!
# Repository slugs

A repository is named by its owner and its own name, written `OWNER/NAME`.
-/

namespace ReleaseDraft

/-- The owner and the name of a repository. -/
structure Slug where
  owner : String
  name : String
  deriving DecidableEq, Repr

namespace Slug

/-- Owner and name with a slash between them. -/
def text (slug : Slug) : String := slug.owner ++ "/" ++ slug.name

/-- Reads a slug: apart from blanks around it, two non-empty parts with the only slash between
them. -/
def parse? (text : String) : Option Slug :=
  match (Text.trim text.toList).splitOn '/' with
  | [owner, name] =>
    if owner.isEmpty || name.isEmpty then none
    else some ⟨String.ofList owner, String.ofList name⟩
  | _ => none

end Slug

end ReleaseDraft

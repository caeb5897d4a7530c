/-!
# Git objects

The objects of a repository as far as dates and tags need them: a commit has a time and at most one
parent, an annotated tag names another object and may carry the time of its making.  *Peeling* an
object follows tags to what they name, and a commit to its tree.
-/

namespace ReleaseDraft

namespace Git

/-- An object. -/
inductive Object where
  | tree
  | blob
  | commit (time : Int) (parent : Option Object)
  | tag (target : Object) (time : Option Int)

/-- The kinds of objects. -/
inductive Kind where
  | tree
  | blob
  | commit
  | tag
  deriving DecidableEq, Repr

/-- Why a name stands for no object. -/
inductive Fault where
  | unknown
  | malformed
  | damaged
  deriving DecidableEq, Repr

namespace Kind

/-- The kind of a name. -/
def ofName? (name : String) : Option Kind :=
  if name == "tree" then some tree
  else if name == "blob" then some blob
  else if name == "commit" then some commit
  else if name == "tag" then some tag
  else none

end Kind

namespace Object

/-- The kind of an object. -/
def kind : Object → Kind
  | tree => .tree
  | blob => .blob
  | commit .. => .commit
  | tag .. => .tag

/-- What a chain of tags leads to. -/
def untagged : Object → Object
  | tag target _ => target.untagged
  | object => object

/-- What a tag leads to, of a given kind.  A chain that ends in something else is damaged. -/
def peelTarget (kind : Kind) : Object → Except Fault Object
  | tag target time =>
    if kind = .tag then .ok (tag target time) else target.peelTarget kind
  | commit time parent =>
    if kind = .commit then .ok (commit time parent)
    else if kind = .tree then .ok tree
    else .error .damaged
  | tree => if kind = .tree then .ok tree else .error .damaged
  | blob => if kind = .blob then .ok blob else .error .damaged

/-- Peels an object to a kind.  What is no tag can only be peeled to itself, and a commit to its
tree. -/
def peel (kind : Kind) (object : Object) : Except Fault Object :=
  if object.kind = kind then .ok object
  else match object with
    | tag target _ => target.peelTarget kind
    | commit .. => if kind = .tree then .ok tree else .error .malformed
    | _ => .error .malformed

/-- The commit that an object leads to. -/
def peelCommit (object : Object) : Except Fault Object := object.peel .commit

/-- The parent of a commit. -/
def parent : Object → Except Fault Object
  | commit _ (some object) => .ok object
  | _ => .error .unknown

/-- The commit some generations before a commit. -/
def ancestor : Nat → Object → Except Fault Object
  | 0, object => .ok object
  | n + 1, object => do (← object.parent).ancestor n

/-- The time of a tag. -/
def tagTime? : Object → Option Int
  | tag _ time => time
  | _ => none

/-- The time of a commit. -/
def commitTime? : Object → Option Int
  | commit time _ => some time
  | _ => none

end Object

end Git

end ReleaseDraft

import ReleaseDraft.Git.Object
import ReleaseDraft.Git.RefName
import ReleaseDraft.Text.Utf8

/-!
# Stores

A store is what a repository holds: references by name, and settings.  A reference leads to an
object, or is symbolic and leads to another reference.  Names are bytes; those that are no text are
kept apart, as nothing can ask for them.
-/

namespace ReleaseDraft

namespace Git

/-- What a reference holds. -/
inductive Ref where
  | object (object : Object)
  | missing
  | symbolic (target : String)
  | corrupt

/-- The name of a reference that is no text. -/
structure RawName where
  bytes : List UInt8
  notText : Text.Utf8.decode? bytes = none

/-- The name of a setting.  Case matters in its middle part only. -/
structure Key where
  group : String
  name : String
  item : String
  deriving DecidableEq, Repr

/-- The contents of a repository. -/
structure Store where
  refs : List (String × Ref)
  rawRefs : List (RawName × Ref)
  settings : List (Key × String)

namespace RawName

/-- A character for each byte.  Beyond ASCII it is not the one that is meant, but the rules for names
do not tell those apart. -/
def chars (name : RawName) : List Char := name.bytes.map fun b => Char.ofNat b.toNat

end RawName

namespace Key

/-- Lower-case ASCII letters for upper-case ones. -/
def lower (text : List Char) : String := String.ofList (text.map Char.toLower)

/-- The key of a text: up to its first dot, between the dots, after its last dot. -/
def ofText (text : String) : Key :=
  let chars := text.toList
  let item := (chars.reverse.takeWhile (· != '.')).reverse
  let front := chars.take (chars.length - item.length - 1)
  ⟨lower (front.takeWhile (· != '.')),
    String.ofList ((front.dropWhile (· != '.')).drop 1), lower item⟩

end Key

namespace Ref

/-- White space at the end of a line. -/
def isSpace (c : Char) : Bool := c == ' ' || (9 ≤ c.toNat && c.toNat ≤ 13)

/-- The text without white space at its end. -/
def trimRight (text : List Char) : List Char := (text.reverse.dropWhile isSpace).reverse

/-- An object name: forty hexadecimal digits. -/
def isObjectName (text : List Char) : Bool :=
  text.length == 40 && text.all fun c =>
    c.isDigit || (97 ≤ c.toLower.toNat && c.toLower.toNat ≤ 102)

/-- What the file of a reference holds.  An object that is named in this way is none of the
store's. -/
def ofFile (text : String) : Ref :=
  let chars := text.toList
  match "ref: ".toList.isPrefixOf? chars with
  | some target =>
    match trimRight target with
    | [] => .corrupt
    | target => .symbolic (String.ofList target)
  | none =>
    let after := chars[40]?
    if isObjectName (chars.take 40) && (after.map isSpace).getD true then .missing else .corrupt

end Ref

namespace Store

/-- The branch that commits go to. -/
def branch : String := "refs/heads/master"

/-- A store without commits. -/
def fresh : Store := ⟨[("HEAD", .symbolic branch)], [], []⟩

/-! ### References -/

/-- The contents of a reference. -/
def ref? (store : Store) (name : String) : Option Ref := store.refs.lookup name

/-- The store without a reference. -/
def eraseRef (store : Store) (name : String) : Store :=
  { store with refs := store.refs.filter (·.1 != name) }

/-- The store with a reference set. -/
def putRef (store : Store) (name : String) (ref : Ref) : Store :=
  { store with refs := (name, ref) :: (store.eraseRef name).refs }

/-- Symbolic references that are followed in a row. -/
def symbolicLimit : Nat := 5

/-- What a reference leads to, if that can be told; a chain of symbolic references that ends
nowhere leads to nothing, and one that is too long is damaged. -/
def follow (store : Store) : Nat → String → Except Fault Ref
  | limit, name =>
    match store.ref? name with
    | none => .error .unknown
    | some .corrupt => .error .damaged
    | some (.symbolic target) =>
      match limit with
      | 0 => .error .damaged
      | limit + 1 => store.follow limit target
    | some ref => .ok ref

/-- A reference leads somewhere, as far as that can be told. -/
def leads (store : Store) : Ref → Bool
  | .corrupt => false
  | .symbolic target =>
    match store.follow (symbolicLimit - 1) target with
    | .ok _ => true
    | .error _ => false
  | _ => true

/-- The places where a short name is looked for. -/
def candidates (name : List Char) : List (List Char) :=
  [name, "refs/".toList ++ name, "refs/tags/".toList ++ name, "refs/heads/".toList ++ name,
    "refs/remotes/".toList ++ name, "refs/remotes/".toList ++ name ++ "/HEAD".toList]

/-- The first of some references that leads somewhere. -/
def firstRef (store : Store) : Fault → List (List Char) → Except Fault Ref
  | fault, [] => .error fault
  | _, name :: rest =>
    if !RefName.isValid name then store.firstRef .malformed rest
    else match store.follow symbolicLimit (String.ofList name) with
      | .error .unknown => store.firstRef .unknown rest
      | outcome => outcome

/-- The reference of a short name. -/
def findRef (store : Store) (name : List Char) : Except Fault Ref :=
  store.firstRef .unknown (candidates name)

/-! ### Settings -/

/-- The value of a setting. -/
def setting? (store : Store) (key : Key) : Option String := store.settings.lookup key

/-- The settings with one set: in place, after the others of its group and name, or at the end. -/
def putSetting (key : Key) (value : String) :
    List (Key × String) → List (Key × String)
  | settings =>
    if settings.any (·.1 == key) then
      settings.map fun (k, v) => if k == key then (k, value) else (k, v)
    else
      let akin := fun (entry : Key × String) =>
        entry.1.group == key.group && entry.1.name == key.name
      let after := (settings.reverse.takeWhile (!akin ·)).reverse
      let before := settings.take (settings.length - after.length)
      if before.isEmpty then settings ++ [(key, value)] else before ++ (key, value) :: after

end Store

end Git

end ReleaseDraft

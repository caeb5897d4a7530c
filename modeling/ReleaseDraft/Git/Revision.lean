import ReleaseDraft.Git.Store

/-!
# Revisions

A revision is the name of a reference followed by operators: `^n` for a parent, `~n` for an
ancestor, `^{kind}` for peeling, `@{n}` for an earlier value and `:path` for what lies in the tree.
Operators apply from left to right, and the first that fails says why.
-/

namespace ReleaseDraft

namespace Git

/-- An operator of a revision. -/
inductive Operator where
  | parent (n : Nat)
  | ancestor (n : Nat)
  | peel (kind : Kind)
  | untag
  | search (pattern : List Char)
  | content (path : List Char)
  | earlier (text : List Char)
  | malformed
  deriving DecidableEq, Repr

/-- A revision. -/
structure Revision where
  name : List Char
  operators : List Operator
  deriving DecidableEq, Repr

namespace Operator

/-! ### Reading -/

/-- The greatest number that an operator may have. -/
def numberLimit : Nat := 2147483647

/-- The text in front of a closing brace and the text after it. -/
def closeBrace : List Char → Option (List Char × List Char)
  | [] => none
  | c :: rest =>
    if c == '}' then some ([], rest)
    else (closeBrace rest).map fun (inside, after) => (c :: inside, after)

theorem length_closeBrace {text inside after : List Char}
    (h : closeBrace text = some (inside, after)) : after.length < text.length := by
  induction text generalizing inside with
  | nil => simp [closeBrace] at h
  | cons c rest ih =>
    simp only [closeBrace] at h
    split at h
    · simp only [Option.some.injEq, Prod.mk.injEq] at h
      simp [← h.2]
    · simp only [Option.map_eq_some_iff, Prod.mk.injEq, Prod.exists] at h
      obtain ⟨a, b, hab, -, rfl⟩ := h
      have := ih hab
      simp only [List.length_cons]
      omega

/-- The operator of a text in braces after a caret. -/
def ofBraces (inside : List Char) : Operator :=
  match inside with
  | [] => untag
  | '/' :: pattern => search pattern
  | name =>
    match Kind.ofName? (String.ofList name) with
    | some kind => peel kind
    | none => malformed

/-- The number that digits write, or one without digits; too great a number is none. -/
def count? (digits : List Char) : Option Nat :=
  let n := digits.foldl (fun value c => value * 10 + (c.toNat - 48)) 0
  if digits.isEmpty then some 1 else if numberLimit < n then none else some n

/-- Reads operators.  What is none ends the reading. -/
def scan : List Char → List Operator
  | [] => []
  | '^' :: '{' :: rest =>
    match _h : closeBrace rest with
    | some (inside, after) => ofBraces inside :: scan after
    | none => [malformed]
  | '@' :: '{' :: rest =>
    match _h : closeBrace rest with
    | some (inside, after) => earlier inside :: scan after
    | none => [malformed]
  | '^' :: rest =>
    match count? (rest.takeWhile Char.isDigit) with
    | some n => parent n :: scan (rest.dropWhile Char.isDigit)
    | none => [malformed]
  | '~' :: rest =>
    match count? (rest.takeWhile Char.isDigit) with
    | some n => ancestor n :: scan (rest.dropWhile Char.isDigit)
    | none => [malformed]
  | ':' :: path => [content path]
  | _ => [malformed]
termination_by text => text.length
decreasing_by
  all_goals simp only [List.length_cons]
  · have := length_closeBrace _h; omega
  · have := length_closeBrace _h; omega
  · have := (List.dropWhile_suffix (l := rest) Char.isDigit).length_le; omega
  · have := (List.dropWhile_suffix (l := rest) Char.isDigit).length_le; omega

/-! ### Meaning -/

/-- Applies an operator to an object. -/
def apply (object : Object) : Operator → Except Fault Object
  | parent n => do
    let commit ← object.peelCommit
    match n with
    | 0 => .ok commit
    | 1 => commit.parent
    | _ => .error .unknown
  | ancestor n => do (← object.peelCommit).ancestor n
  | peel kind => object.peel kind
  | untag => .ok object.untagged
  | search pattern => if pattern.isEmpty then object.peelCommit else .error .unknown
  | content path => do
    let root ← object.peel .tree
    if path.isEmpty then .ok root else .error .unknown
  | earlier _ => .error .malformed
  | malformed => .error .malformed

end Operator

namespace Revision

/-- The name at the start of a text, up to its first operator. -/
def spanName : List Char → List Char × List Char
  | [] => ([], [])
  | c :: rest =>
    if c == '^' || c == '~' || c == ':' || (c == '@' && rest.head? == some '{') then ([], c :: rest)
    else
      let (name, after) := spanName rest
      (c :: name, after)

/-- Reads a revision. -/
def ofText (text : List Char) : Revision :=
  if text = ['@'] then ⟨"HEAD".toList, []⟩
  else
    let (name, after) := spanName text
    ⟨name, Operator.scan after⟩

/-- The name ends in the way of generated version names: a count and the start of an object name,
after a dash each.  The start of the object name is returned. -/
def abbreviation? : List Char → Option (List Char)
  | [] => none
  | '-' :: rest =>
    let digits := rest.takeWhile Char.isDigit
    match rest.dropWhile Char.isDigit with
    | '-' :: 'g' :: hex => if digits.isEmpty then abbreviation? rest else some hex
    | _ => abbreviation? rest
  | _ :: rest => abbreviation? rest

/-- Fewer digits than these do not name an object. -/
def abbreviationLimit : Nat := 4

/-- The fault of a name that no reference has.  A generated version name whose last part is too
short is ambiguous. -/
def absence (name : List Char) : Fault :=
  match abbreviation? name with
  | some hex =>
    let isHex := fun c : Char =>
      c.isDigit || (97 ≤ c.toLower.toNat && c.toLower.toNat ≤ 102)
    if !hex.isEmpty && hex.all isHex && hex.length < abbreviationLimit then .damaged else .unknown
  | none => .unknown

/-- The object that a reference leads to. -/
def target : Ref → Except Fault Object
  | .object object => .ok object
  | _ => .error .unknown

/-- The object of a name. -/
def named (store : Store) (name : List Char) : Except Fault Object :=
  if name.isEmpty then .error .malformed
  else match store.findRef name with
    | .error .unknown => .error (absence name)
    | .error fault => .error fault
    | .ok ref => target ref

/-- The zeroth earlier value of a reference is its value; tags keep no others. -/
def earlierValue (store : Store) (name text : List Char) : Except Fault Object :=
  let digits := if text.head? == some '+' then text.drop 1 else text
  if text.head? == some '-' then .error .malformed
  else do
    let object ← store.findRef name
    if !digits.isEmpty && digits.all (· == '0') then target object else .error .unknown

/-- The object of a revision. -/
def resolve (store : Store) (revision : Revision) : Except Fault Object :=
  match revision.operators with
  | .earlier text :: rest => do
    rest.foldlM Operator.apply (← earlierValue store revision.name text)
  | operators => do operators.foldlM Operator.apply (← named store revision.name)

end Revision

end Git

end ReleaseDraft

import ReleaseDraft.Number.Binary64

/-!
# JSON values

Integers are kept apart from other numbers.  The fields of an object stand in increasing order of
their keys, each key once.
-/

namespace ReleaseDraft

/-- A JSON value. -/
inductive Json where
  | null
  | bool (value : Bool)
  | integer (value : Int)
  | float (value : Binary64)
  | string (value : String)
  | array (items : List Json)
  | object (fields : List (String × Json))
  deriving Inhabited

namespace Json

/-- The fields with one set, in place of an earlier one of that key. -/
def setField (key : String) (value : Json) : List (String × Json) → List (String × Json)
  | [] => [(key, value)]
  | (k, v) :: rest =>
    if key < k then (key, value) :: (k, v) :: rest
    else if key = k then (key, value) :: rest
    else (k, v) :: setField key value rest

/-- The object with the given fields; the last of two fields with one key counts. -/
def ofFields (fields : List (String × Json)) : Json :=
  .object (fields.foldl (fun acc field => setField field.1 field.2 acc) [])

/-- The value of a field of an object. -/
def field? (key : String) : Json → Option Json
  | .object fields => fields.lookup key
  | _ => none

/-- A field that is present and not null. -/
def given? (key : String) (value : Json) : Option Json :=
  match value.field? key with
  | some .null => none
  | found => found

/-- The text of a string value. -/
def string? : Json → Option String
  | .string s => some s
  | _ => none

/-- The value of an integer. -/
def integer? : Json → Option Int
  | .integer n => some n
  | _ => none

/-- The value of an integer that is not negative. -/
def nat? : Json → Option Nat
  | .integer (.ofNat n) => some n
  | _ => none

/-- The items of an array. -/
def array? : Json → Option (List Json)
  | .array items => some items
  | _ => none

end Json

end ReleaseDraft

import ReleaseDraft.Json.Basic
import ReleaseDraft.Number.Shortest
import ReleaseDraft.Text.Quoted
import ReleaseDraft.Time.Reader

/-!
# Pull requests

A pull request as the forge describes it, and its reading from JSON: an object with named fields, of
which others than the four are ignored, or an array of the four in their order.  The first fault
in reading order is reported; the fields of an object are read in the order of their keys.
-/

namespace ReleaseDraft

/-- A pull request. -/
structure PullRequest where
  number : Nat
  title : String
  updatedAt : Instant
  mergedAt : Option Instant
  deriving DecidableEq, Repr

/-- What a place in the description of a pull request has to hold. -/
inductive Expected where
  | pullRequest
  | number
  | string
  | date
  deriving DecidableEq, Repr

namespace Expected

/-- The wording of what is expected. -/
def text : Expected → String
  | pullRequest => "struct PullRequest"
  | number => "u64"
  | string => "a string"
  | date => "an RFC 3339 formatted date and time string"

end Expected

/-- Why a JSON value is no pull request. -/
inductive DecodeError where
  | wrongType (found : Json) (expected : Expected)
  | negative (value : Int)
  | date (cause : DateError)
  | missing (field : String)
  | tooFew (count : Nat)
  | tooMany (count : Nat)

namespace Json

/-- A JSON value in words. -/
def describe : Json → String
  | null => "null"
  | bool value => "boolean `" ++ (if value then "true" else "false") ++ "`"
  | integer value => "integer `" ++ toString value ++ "`"
  | float value => "floating point `" ++ String.ofList value.text ++ "`"
  | string value => "string " ++ String.ofList (Text.quoted value.toList)
  | array _ => "sequence"
  | object _ => "map"

end Json

namespace DecodeError

/-- The wording of a fault. -/
def message : DecodeError → String
  | wrongType found expected =>
    "invalid type: " ++ found.describe ++ ", expected " ++ expected.text
  | negative value =>
    "invalid value: integer `" ++ toString value ++ "`, expected " ++ Expected.number.text
  | date cause => cause.message
  | missing field => "missing field `" ++ field ++ "`"
  | tooFew count =>
    "invalid length " ++ toString count ++ ", expected " ++ Expected.pullRequest.text ++
      " with 4 elements"
  | tooMany count =>
    "invalid length " ++ toString count ++ ", expected fewer elements in array"

end DecodeError

namespace PullRequest

/-! ### Fields -/

/-- The least number that 64 bits do not hold. -/
def numberLimit : Nat := 18446744073709551616

/-- A number: an integer that is not negative and fits 64 bits. -/
def decodeNumber : Json → Except DecodeError Nat
  | .integer (.ofNat n) =>
    if n < numberLimit then .ok n else .error (.wrongType (.integer n) .number)
  | .integer n => .error (.negative n)
  | found => .error (.wrongType found .number)

/-- A title: any string. -/
def decodeTitle : Json → Except DecodeError String
  | .string s => .ok s
  | found => .error (.wrongType found .string)

/-- A date in a string. -/
def decodeDate : Json → Except DecodeError Instant
  | .string s => (Instant.parse s).mapError .date
  | found => .error (.wrongType found .date)

/-- A date or null. -/
def decodeOptionalDate : Json → Except DecodeError (Option Instant)
  | .null => .ok none
  | found => (decodeDate found).map some

/-! ### Objects and arrays -/

/-- Reads a field that may be absent. -/
def decodeField {α : Type} (decode : Json → Except DecodeError α) (key : String) (value : Json) :
    Except DecodeError (Option α) :=
  match value.field? key with
  | some found => (decode found).map some
  | none => .ok none

/-- A field that may not be absent. -/
def required {α : Type} (key : String) : Option α → Except DecodeError α
  | some found => .ok found
  | none => .error (.missing key)

/-- Reads an object.  Every field that is present is read before any is missed. -/
def decodeObject (value : Json) : Except DecodeError PullRequest := do
  let mergedAt ← decodeField decodeOptionalDate "merged_at" value
  let number ← decodeField decodeNumber "number" value
  let title ← decodeField decodeTitle "title" value
  let updatedAt ← decodeField decodeDate "updated_at" value
  let number ← required "number" number
  let title ← required "title" title
  let updatedAt ← required "updated_at" updatedAt
  return ⟨number, title, updatedAt, mergedAt.join⟩

/-- Reads an array: number, title, date of update, date of merge. -/
def decodeArray : List Json → Except DecodeError PullRequest
  | [] => .error (.tooFew 0)
  | [a] => do
    let _ ← decodeNumber a
    .error (.tooFew 1)
  | [a, b] => do
    let _ ← decodeNumber a
    let _ ← decodeTitle b
    .error (.tooFew 2)
  | [a, b, c] => do
    let _ ← decodeNumber a
    let _ ← decodeTitle b
    let _ ← decodeDate c
    .error (.tooFew 3)
  | a :: b :: c :: d :: rest => do
    let number ← decodeNumber a
    let title ← decodeTitle b
    let updatedAt ← decodeDate c
    let mergedAt ← decodeOptionalDate d
    if rest.isEmpty then return ⟨number, title, updatedAt, mergedAt⟩
    else .error (.tooMany (4 + rest.length))

/-- Reads a pull request. -/
def decode : Json → Except DecodeError PullRequest
  | .object fields => decodeObject (.object fields)
  | .array items => decodeArray items
  | found => .error (.wrongType found .pullRequest)

end PullRequest

end ReleaseDraft

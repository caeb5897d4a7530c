import ReleaseDraft.Json.Basic

/-!
# Reading JSON

The strict grammar: no trailing text, no leading zeros, no control characters in strings, no
surrogate without its partner, at most 127 levels of nesting, and no number beyond the finite
doubles.  An integer that fits 64 bits stays an integer; every other number becomes a double.

Each reader returns what it read and the text after it.
-/

namespace ReleaseDraft

namespace Json

/-- White space between tokens. -/
def isSpace (c : Char) : Bool := c == ' ' || c == '\t' || c == '\n' || c == '\r'

/-- The value of a hexadecimal digit. -/
def hexValue? (c : Char) : Option Nat :=
  let n := c.toNat
  if 0x30 ≤ n && n ≤ 0x39 then some (n - 0x30)
  else if 0x41 ≤ n && n ≤ 0x46 then some (n - 0x37)
  else if 0x61 ≤ n && n ≤ 0x66 then some (n - 0x57)
  else none

/-- The value of four hexadecimal digits. -/
def hexQuad? (a b c d : Char) : Option Nat := do
  let a ← hexValue? a
  let b ← hexValue? b
  let c ← hexValue? c
  let d ← hexValue? d
  return ((a * 16 + b) * 16 + c) * 16 + d

/-- The character of a one-letter escape. -/
def shortEscape? (c : Char) : Option Char :=
  if c == '"' || c == '\\' || c == '/' then some c
  else if c == 'b' then some (Char.ofNat 8)
  else if c == 'f' then some (Char.ofNat 12)
  else if c == 'n' then some '\n'
  else if c == 'r' then some '\r'
  else if c == 't' then some '\t'
  else none

/-- Reads the rest of a string after its opening quote; `done` has what was read, last first. -/
def readString (done : List Char) : List Char → Option (String × List Char)
  | '"' :: rest => some (String.ofList done.reverse, rest)
  | '\\' :: 'u' :: a :: b :: c :: d :: rest =>
    match hexQuad? a b c d with
    | none => none
    | some u =>
      if 0xD800 ≤ u && u ≤ 0xDBFF then
        match rest with
        | '\\' :: 'u' :: e :: f :: g :: h :: rest =>
          match hexQuad? e f g h with
          | none => none
          | some v =>
            if 0xDC00 ≤ v && v ≤ 0xDFFF then
              readString (Char.ofNat (0x10000 + (u - 0xD800) * 1024 + (v - 0xDC00)) :: done) rest
            else none
        | _ => none
      else if 0xDC00 ≤ u && u ≤ 0xDFFF then none
      else readString (Char.ofNat u :: done) rest
  | '\\' :: c :: rest =>
    match shortEscape? c with
    | none => none
    | some e => readString (e :: done) rest
  | c :: rest => if c.toNat < 0x20 || c == '\\' then none else readString (c :: done) rest
  | [] => none

/-- The greatest significand that is kept digit by digit. -/
def maxSignificand : Nat := 18446744073709551615

/-- Appends digits to a significand until one does not fit; the digits that were not appended are
returned. -/
def appendDigits (significand : Nat) : List Char → Nat × List Char
  | [] => (significand, [])
  | d :: rest =>
    let next := significand * 10 + (d.toNat - 0x30)
    if next ≤ maxSignificand then appendDigits next rest else (significand, d :: rest)

/-- The digits after an exponent mark, with their sign. -/
def readExponent (cs : List Char) : Option (Int × List Char) :=
  let signed := match cs with
    | '+' :: rest => (false, rest)
    | '-' :: rest => (true, rest)
    | _ => (false, cs)
  let digits := signed.2.takeWhile Char.isDigit
  if digits.isEmpty then none
  else
    let size : Int := digits.foldl (fun n d => n * 10 + (d.toNat - 0x30)) 0
    some (if signed.1 then -size else size, signed.2.dropWhile Char.isDigit)

/-- The digits after a point, or none if there is no point. -/
def readFraction : List Char → Option (List Char × List Char)
  | '.' :: rest =>
    let digits := rest.takeWhile Char.isDigit
    if digits.isEmpty then none else some (digits, rest.dropWhile Char.isDigit)
  | cs => some ([], cs)

/-- The number with the given sign, whole digits, fraction digits and exponent. -/
def number (negative : Bool) (whole fraction : List Char) (exponent : Option Int) : Option Json :=
  let kept := appendDigits 0 whole
  if kept.2.isEmpty && fraction.isEmpty && exponent.isNone then
    if !negative then some (.integer kept.1)
    else if 0 < kept.1 && kept.1 ≤ 9223372036854775808 then some (.integer (-kept.1))
    else (Binary64.ofScientific true kept.1 0).map .float
  else
    let full := appendDigits kept.1 fraction
    let shift : Int := kept.2.length - (fraction.length - full.2.length : Nat)
    (Binary64.ofScientific negative full.1 (shift + exponent.getD 0)).map .float

/-- Reads a number. -/
def readNumber (cs : List Char) : Option (Json × List Char) := do
  let negative := cs.head? == some '-'
  let cs := if negative then cs.drop 1 else cs
  let whole := cs.takeWhile Char.isDigit
  if whole.isEmpty || (whole.head? == some '0' && whole.length > 1) then none
  let (fraction, cs) ← readFraction (cs.dropWhile Char.isDigit)
  match cs with
  | 'e' :: rest | 'E' :: rest =>
    let (exponent, rest) ← readExponent rest
    return (← number negative whole fraction (some exponent), rest)
  | _ => return (← number negative whole fraction none, cs)

mutual

/-- Reads a value after white space.  `levels` is how deep it may still nest. -/
def readValue : Nat → Nat → List Char → Option (Json × List Char)
  | 0, _, _ => none
  | fuel + 1, levels, cs =>
    match cs.dropWhile isSpace with
    | 'n' :: 'u' :: 'l' :: 'l' :: rest => some (.null, rest)
    | 't' :: 'r' :: 'u' :: 'e' :: rest => some (.bool true, rest)
    | 'f' :: 'a' :: 'l' :: 's' :: 'e' :: rest => some (.bool false, rest)
    | '"' :: rest => (readString [] rest).map fun r => (.string r.1, r.2)
    | '[' :: rest =>
      if levels ≤ 1 then none
      else match rest.dropWhile isSpace with
        | ']' :: rest => some (.array [], rest)
        | rest => (readItems fuel (levels - 1) rest).map fun r => (.array r.1, r.2)
    | '{' :: rest =>
      if levels ≤ 1 then none
      else match rest.dropWhile isSpace with
        | '}' :: rest => some (.object [], rest)
        | rest => (readFields fuel (levels - 1) rest).map fun r => (ofFields r.1, r.2)
    | rest => readNumber rest

/-- Reads the items of an array up to its closing bracket. -/
def readItems : Nat → Nat → List Char → Option (List Json × List Char)
  | 0, _, _ => none
  | fuel + 1, levels, cs =>
    match readValue fuel levels cs with
    | none => none
    | some (item, rest) =>
      match rest.dropWhile isSpace with
      | ',' :: rest => (readItems fuel levels rest).map fun r => (item :: r.1, r.2)
      | ']' :: rest => some ([item], rest)
      | _ => none

/-- Reads the fields of an object up to its closing brace. -/
def readFields : Nat → Nat → List Char → Option (List (String × Json) × List Char)
  | 0, _, _ => none
  | fuel + 1, levels, cs =>
    match cs.dropWhile isSpace with
    | '"' :: rest =>
      match readString [] rest with
      | none => none
      | some (key, rest) =>
        match rest.dropWhile isSpace with
        | ':' :: rest =>
          match readValue fuel levels rest with
          | none => none
          | some (value, rest) =>
            match rest.dropWhile isSpace with
            | ',' :: rest => (readFields fuel levels rest).map fun r => ((key, value) :: r.1, r.2)
            | '}' :: rest => some ([(key, value)], rest)
            | _ => none
        | _ => none
    | _ => none

end

/-- Levels of nesting at which reading gives up. -/
def maxLevels : Nat := 128

/-- The value that a whole text holds. -/
def parse? (cs : List Char) : Option Json :=
  match readValue (2 * cs.length + 2) maxLevels cs with
  | some (value, rest) => if (rest.dropWhile isSpace).isEmpty then some value else none
  | none => none

end Json

end ReleaseDraft

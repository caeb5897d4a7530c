import ReleaseDraft.Text.Blank
import ReleaseDraft.Text.Utf8
import ReleaseDraft.Time.Instant

/-!
# Reading dates

A date and time of day with an offset from UTC, in the form of RFC 3339 but more relaxed: blanks may
stand before numbers and separators, numbers may be short, a signed year may be long, and the name
`UTC` may stand for the offset.  Each number is checked against its range as soon as it is read, so
the first fault in reading order is the one reported; whether the day exists is checked last.
-/

namespace ReleaseDraft

/-- Why a date cannot be read. -/
inductive DateError where
  | tooShort
  | invalid
  | outOfRange
  | trailing
  | impossible
  deriving DecidableEq, Repr

namespace DateError

/-- The text of a fault. -/
def message : DateError → String
  | tooShort => "premature end of input"
  | invalid => "input contains invalid characters"
  | outOfRange => "input is out of range"
  | trailing => "trailing input"
  | impossible => "no possible date and time matching input"

end DateError

namespace Instant

open Text (trimStart isBlank)

/-- What a reader found and the text after it. -/
abbrev Read (α : Type) := Except DateError (α × List Char)

/-- The number that some digits write. -/
def digitsValue (digits : List Char) : Nat :=
  digits.foldl (fun n d => n * 10 + (d.toNat - '0'.toNat)) 0

/-- A number of one to `most` digits. -/
def readNumber (most : Nat) (cs : List Char) : Read Nat :=
  match cs with
  | [] => .error .tooShort
  | c :: _ =>
    if !c.isDigit then .error .invalid
    else
      let digits := (cs.take most).takeWhile Char.isDigit
      .ok (digitsValue digits, cs.drop digits.length)

/-- A number after blanks, of one or two digits and from `least` to `greatest`. -/
def readField (least greatest : Nat) (cs : List Char) : Read Nat :=
  match readNumber 2 (trimStart cs) with
  | .error e => .error e
  | .ok (n, rest) =>
    if least ≤ n && n ≤ greatest then .ok (n, rest) else .error .outOfRange

/-- A separator after blanks. -/
def readMark (mark : Char) (cs : List Char) : Except DateError (List Char) :=
  match trimStart cs with
  | [] => .error .tooShort
  | c :: rest => if c = mark then .ok rest else .error .invalid

/-- A year of at most four digits, or one of any length after a sign. -/
def readYear (cs : List Char) : Read Int :=
  match trimStart cs with
  | '-' :: rest =>
    match readNumber rest.length rest with
    | .error e => .error e
    | .ok (n, rest) => if n ≤ 2147483648 then .ok (-n, rest) else .error .outOfRange
  | '+' :: rest =>
    match readNumber rest.length rest with
    | .error e => .error e
    | .ok (n, rest) => if n < 2147483648 then .ok (n, rest) else .error .outOfRange
  | cs => (readNumber 4 cs).map fun r => ((r.1 : Int), r.2)

/-- The single character between date and time of day. -/
def readDivider : List Char → Except DateError (List Char)
  | [] => .error .tooShort
  | c :: rest => if c = 'T' || c = 't' || c = ' ' then .ok rest else .error .invalid

/-- A fraction of a second in nanoseconds: digits after a point, the tenth and later ones
ignored. -/
def readFraction : List Char → Read Nat
  | '.' :: rest =>
    match readNumber 9 rest with
    | .error e => .error e
    | .ok (n, after) =>
      .ok (n * Nat.pow 10 (9 - (rest.length - after.length)), after.dropWhile Char.isDigit)
  | cs => .ok (0, cs)

/-- Exactly two digits; fewer than two bytes are too short. -/
def readPair (cs : List Char) : Read (Nat × Nat) :=
  match cs with
  | a :: b :: rest =>
    if a.isDigit && b.isDigit then .ok ((a.toNat - '0'.toNat, b.toNat - '0'.toNat), rest)
    else .error .invalid
  | _ => if (Text.Utf8.encode cs).length < 2 then .error .tooShort else .error .invalid

/-- The size of an offset in seconds: hours, colons or blanks, minutes. -/
def readOffsetSize (cs : List Char) : Read Int :=
  match readPair cs with
  | .error e => .error e
  | .ok (hours, rest) =>
    match readPair (rest.dropWhile fun c => c == ':' || isBlank c) with
    | .error e => .error e
    | .ok (minutes, rest) =>
      if minutes.1 ≥ 6 then .error .outOfRange
      else
        .ok (((hours.1 * 10 + hours.2) * 3600 + (minutes.1 * 10 + minutes.2) * 60 : Nat), rest)

/-- The offset from UTC in seconds. -/
def readOffset (cs : List Char) : Read Int :=
  let cs := trimStart cs
  if (cs.take 3).map Char.toLower = ['u', 't', 'c'] then .ok (0, cs.drop 3)
  else match cs with
    | [] => .error .tooShort
    | c :: rest =>
      if c = 'Z' || c = 'z' then .ok (0, rest)
      else if c = '+' then readOffsetSize rest
      else if c = '-' || c = Char.ofNat 0x2212 then
        (readOffsetSize rest).map fun r => (-r.1, r.2)
      else .error .invalid

/-- The fields of a date and time of day with their offset. -/
structure Fields where
  date : Date
  hour : Nat
  minute : Nat
  second : Nat
  nanos : Nat
  offset : Int
  deriving DecidableEq, Repr

/-- Reads all fields; only blanks may follow them. -/
def readFields (cs : List Char) : Except DateError Fields := do
  let (year, cs) ← readYear cs
  let cs ← readMark '-' cs
  let (month, cs) ← readField 1 12 cs
  let cs ← readMark '-' cs
  let (day, cs) ← readField 1 31 cs
  let cs ← readDivider cs
  let (hour, cs) ← readField 0 23 cs
  let cs ← readMark ':' cs
  let (minute, cs) ← readField 0 59 cs
  let cs ← readMark ':' cs
  let (second, cs) ← readField 0 60 cs
  let (nanos, cs) ← readFraction cs
  let (offset, cs) ← readOffset cs
  if !(trimStart cs).isEmpty then throw .trailing
  return ⟨⟨year, month, day⟩, hour, minute, second, nanos, offset⟩

/-- The earliest and latest years that have dates. -/
def yearInRange (year : Int) : Bool := -262143 ≤ year && year ≤ 262142

/-- The instant that fields name.  Second 60 is the leap second after second 59. -/
def ofFields (f : Fields) : Except DateError Instant :=
  if !(yearInRange f.date.year && f.date.isValid) then .error .outOfRange
  else if day ≤ f.offset || f.offset ≤ -day then .error .outOfRange
  else
    let whole := if f.second = 60 then 59 else f.second
    let nanos := if f.second = 60 then f.nanos + Instant.second else f.nanos
    let time : Nat := f.hour * 3600 + f.minute * 60 + whole
    let secs := f.date.dayNumber * day + time - f.offset
    if minSecs ≤ secs && secs ≤ maxSecs then .ok ⟨secs, nanos⟩ else .error .impossible

/-- The instant that a text names. -/
def parse (text : String) : Except DateError Instant :=
  match readFields text.toList with
  | .error e => .error e
  | .ok fields => ofFields fields

end Instant

end ReleaseDraft

import ReleaseDraft.Time.Calendar

/-!
# Instants

A point in time in UTC: seconds from 1970-01-01 and nanoseconds.  Nanoseconds from `10 ^ 9` on mean
the leap second after the given second.  Instants are ordered by their seconds and then by their
nanoseconds.
-/

namespace ReleaseDraft

/-- A point in time. -/
structure Instant where
  secs : Int
  nanos : Nat
  deriving DecidableEq, Repr

namespace Instant

/-- Nanoseconds in a second. -/
def second : Nat := 1000000000

/-- Seconds in a day. -/
def day : Int := 86400

/-- The first second that has a date: the start of year -262143. -/
def minSecs : Int := -8334601228800

/-- The last second that has a date: the end of year 262142. -/
def maxSecs : Int := 8210266876799

/-- The instant of a whole second, if it has a date. -/
def ofSecs? (secs : Int) : Option Instant :=
  if minSecs ≤ secs && secs ≤ maxSecs then some ⟨secs, 0⟩ else none

/-- The first instant is earlier. -/
def before (a b : Instant) : Bool := a.secs < b.secs || (a.secs == b.secs && a.nanos < b.nanos)

/-- The first instant is not later. -/
def notAfter (a b : Instant) : Bool := !b.before a

/-- A number with zeros in front, up to the given number of digits. -/
def padded (digits n : Nat) : List Char :=
  let shown := Nat.toDigits 10 n
  List.replicate (digits - shown.length) '0' ++ shown

/-- A year: four digits, with a sign outside of 0 to 9999. -/
def yearText (year : Int) : List Char :=
  if 0 ≤ year && year ≤ 9999 then padded 4 year.toNat
  else (if year < 0 then '-' else '+') :: padded 4 year.natAbs

/-- A fraction of a second in 3, 6 or 9 digits, the fewest that lose nothing; none for zero. -/
def fractionText (nanos : Nat) : List Char :=
  if nanos = 0 then []
  else if nanos % 1000000 = 0 then '.' :: padded 3 (nanos / 1000000)
  else if nanos % 1000 = 0 then '.' :: padded 6 (nanos / 1000)
  else '.' :: padded 9 nanos

/-- The instant as date and time of day in UTC. -/
def text (t : Instant) : List Char :=
  let date := Date.ofDayNumber (t.secs / day)
  let time := (t.secs % day).toNat
  let leap := t.nanos / second
  yearText date.year ++ '-' :: padded 2 date.month ++ '-' :: padded 2 date.day ++ ' ' ::
    padded 2 (time / 3600) ++ ':' :: padded 2 (time / 60 % 60) ++ ':' ::
    padded 2 (time % 60 + leap) ++ fractionText (t.nanos % second) ++ [' ', 'U', 'T', 'C']

/-- The text of an instant as a string. -/
def render (t : Instant) : String := String.ofList t.text

end Instant

end ReleaseDraft

/-!
# Punycode

The ASCII form of a label of a domain name.  The characters outside ASCII are inserted in increasing
order; each insertion is a number, written in digits whose weights adapt to the numbers before it.
-/

namespace ReleaseDraft

namespace Punycode

/-- The character of a digit: the letters, then the ten figures. -/
def digit (d : Nat) : Char := if d < 26 then Char.ofNat (0x61 + d) else Char.ofNat (0x16 + d)

/-- The least value that is not final at a position. -/
def threshold (position bias : Nat) : Nat :=
  if position ≤ bias then 1 else if bias + 26 ≤ position then 26 else position - bias

theorem threshold_pos (position bias : Nat) : 0 < threshold position bias := by
  unfold threshold; split
  · omega
  · split <;> omega

/-- Divides a number by 35 until it is at most 455, counting positions. -/
def settle (delta position : Nat) : Nat :=
  if 455 < delta then settle (delta / 35) (position + 36)
  else position + 36 * delta / (delta + 38)
termination_by delta

/-- The bias after a number, given the count of characters that are placed. -/
def adapt (delta placed : Nat) (first : Bool) : Nat :=
  let delta := if first then delta / 700 else delta / 2
  settle (delta + delta / placed) 0

/-- The digits of a number. -/
def digits (bias position number : Nat) : List Char :=
  let t := threshold position bias
  if number < t then [digit number]
  else digit (t + (number - t) % (36 - t)) :: digits bias (position + 36) ((number - t) / (36 - t))
termination_by number
decreasing_by
  have ht := threshold_pos position bias
  exact Nat.lt_of_le_of_lt (Nat.div_le_self _ _) (by omega)

/-- What has been written, and what the next number depends on. -/
structure State where
  written : List Char
  delta : Nat
  bias : Nat
  placed : Nat

/-- Passes over one character while those of code point `n` are inserted. -/
def visit (n basic : Nat) (s : State) (c : Char) : State :=
  if c.toNat < n then { s with delta := s.delta + 1 }
  else if c.toNat == n then
    { written := s.written ++ digits s.bias 36 s.delta
      delta := 0
      bias := adapt s.delta (s.placed + 1) (s.placed == basic)
      placed := s.placed + 1 }
  else s

/-- Inserts the characters of the given code points, in increasing order from `n` on. -/
def insertAll (label : List Char) (basic : Nat) : List Nat → Nat → State → State
  | [], _, s => s
  | m :: rest, n, s =>
    let s := { s with delta := s.delta + (m - n) * (s.placed + 1) }
    let s := label.foldl (visit m basic) s
    insertAll label basic rest (m + 1) { s with delta := s.delta + 1 }

/-- The ASCII form of a label, without its marker. -/
def encode (label : List Char) : List Char :=
  let ascii := label.filter fun c => c.toNat < 0x80
  let others := (label.map Char.toNat).filter fun n => 0x80 ≤ n
  let start := if ascii.isEmpty then [] else ascii ++ ['-']
  (insertAll label ascii.length (others.mergeSort.eraseDups) 0x80
    ⟨start, 0, 72, ascii.length⟩).written

end Punycode

end ReleaseDraft

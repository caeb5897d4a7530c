/-!
# Double-precision numbers

A finite double is `± mantissa · 2 ^ exponent` with a mantissa below `2 ^ 53`.  Arithmetic is exact
on naturals and rounds once at the end, to the nearest double and to the even mantissa on a tie;
a result too large for a finite double is `none`.
-/

namespace ReleaseDraft

/-- A finite double-precision number. -/
structure Binary64 where
  negative : Bool
  mantissa : Nat
  exponent : Int
  deriving DecidableEq, Repr

namespace Binary64

/-- The least mantissa of a double that uses all its bits: `2 ^ 52`. -/
def leastNormal : Nat := 4503599627370496

/-- Zero. -/
def zero : Binary64 := ⟨false, 0, -1074⟩

/-- The quotient `n / d` rounded to the nearest natural, a half to the even one. -/
def roundDiv (n d : Nat) : Nat :=
  let q := n / d
  let r := n % d
  if 2 * r > d || (2 * r == d && q % 2 == 1) then q + 1 else q

/-- Numerator and denominator of `n / d` in units of `2 ^ e`. -/
def scaled (n d : Nat) (e : Int) : Nat × Nat :=
  if 0 ≤ e then (n, d * Nat.pow 2 e.toNat) else (n * Nat.pow 2 (-e).toNat, d)

/-- The exponent of the double nearest to `n / d`, before rounding can carry into it. -/
def exponentOf (n d : Nat) : Int :=
  let guess : Int := (n.log2 : Int) - d.log2 - 52
  let s := scaled n d guess
  max (if s.1 / s.2 < leastNormal then guess - 1 else guess) (-1074)

/-- The double nearest to `n / d`. -/
def ofRatio (n d : Nat) : Option Binary64 :=
  if n = 0 then some zero
  else
    let e := exponentOf n d
    let s := scaled n d e
    let m := roundDiv s.1 s.2
    let carried := if m = 2 * leastNormal then (leastNormal, e + 1) else (m, e)
    if carried.2 > 971 then none else some ⟨false, carried.1, carried.2⟩

/-- The magnitude as a fraction. -/
def ratio (x : Binary64) : Nat × Nat :=
  if 0 ≤ x.exponent then (x.mantissa * Nat.pow 2 x.exponent.toNat, 1)
  else (x.mantissa, Nat.pow 2 (-x.exponent).toNat)

/-- The rounded product of two magnitudes. -/
def mul (x y : Binary64) : Option Binary64 :=
  ofRatio (x.ratio.1 * y.ratio.1) (x.ratio.2 * y.ratio.2)

/-- The rounded quotient of two magnitudes. -/
def div (x y : Binary64) : Option Binary64 :=
  ofRatio (x.ratio.1 * y.ratio.2) (x.ratio.2 * y.ratio.1)

/-- The greatest power of ten that is used as one factor. -/
def maxPower : Nat := 308

/-- The double nearest to a power of ten. -/
def powerOfTen (k : Nat) : Binary64 := (ofRatio (Nat.pow 10 k) 1).getD zero

/-- Divides by `10 ^ 308` as often as told, as long as something is left, and then by `10 ^ last`,
rounding after each division. -/
def shiftDown (last : Nat) : Nat → Binary64 → Option Binary64
  | 0, x => x.div (powerOfTen last)
  | times + 1, x =>
    if x.mantissa = 0 then some x
    else (x.div (powerOfTen maxPower)).bind (shiftDown last times)

/-- The number written with a significand and a power of ten: the significand is rounded to a
double, and then scaled with a rounding of its own. -/
def ofScientific (negative : Bool) (significand : Nat) (exponent : Int) : Option Binary64 :=
  (ofRatio significand 1).bind fun s =>
    let magnitude :=
      if exponent < 0 then
        let times := ((-exponent).toNat - 1) / maxPower
        shiftDown ((-exponent).toNat - times * maxPower) times s
      else if exponent.toNat ≤ maxPower then s.mul (powerOfTen exponent.toNat)
      else if s.mantissa = 0 then some s
      else none
    magnitude.map fun x => ⟨negative, x.mantissa, x.exponent⟩

end Binary64

end ReleaseDraft

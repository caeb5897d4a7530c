import ReleaseDraft.Number.Binary64

/-!
# Shortest decimal text of a double

The digits are the fewest that read back as the same double, and of those the nearest to it.  A
decimal reads back as a double when it lies in the interval of numbers that round to it; the ends
belong to the interval when the mantissa is even.  For `1` to `17` digits the two neighbours of the
value on the decimal grid are tried in turn.

The text is positional when the first digit stands for `10 ^ -5` to `10 ^ 15`, and always has a
point or an exponent.
-/

namespace ReleaseDraft

namespace Binary64

/-- Compares `c · 10 ^ t` with `x · 2 ^ q`. -/
def compareDecimal (c : Nat) (t : Int) (x : Nat) (q : Int) : Ordering :=
  compare (c * Nat.pow 10 t.toNat * Nat.pow 2 (-q).toNat)
    (x * Nat.pow 2 q.toNat * Nat.pow 10 (-t).toNat)

/-- The decimal `c · 10 ^ t` rounds to `x`. -/
def readsBack (x : Binary64) (c : Nat) (t : Int) : Bool :=
  let q := x.exponent - 2
  let below := if x.mantissa = leastNormal && x.exponent > -1074 then 1 else 2
  let even := x.mantissa % 2 == 0
  let low := compareDecimal c t (4 * x.mantissa - below) q
  let high := compareDecimal c t (4 * x.mantissa + 2) q
  (low == .gt || (low == .eq && even)) && (high == .lt || (high == .eq && even))

/-- The least number of digits before the point among `start`, `start + 1`, … that holds `x`. -/
def pointPlace (x : Binary64) : Nat → Int → Int
  | 0, place => place
  | fuel + 1, place =>
    if compareDecimal 1 place x.mantissa x.exponent == .gt then place
    else pointPlace x fuel (place + 1)

/-- The nearer to `x` of `c · 10 ^ t` and `(c + 1) · 10 ^ t`, the even one on a tie. -/
def nearer (x : Binary64) (c : Nat) (t : Int) : Nat :=
  match compareDecimal (2 * c + 1) t (2 * x.mantissa) x.exponent with
  | .lt => c + 1
  | .gt => c
  | .eq => if c % 2 == 0 then c else c + 1

/-- The greatest `c` with `c · 10 ^ t` at most `x`. -/
def floorAt (x : Binary64) (t : Int) : Nat :=
  (x.mantissa * Nat.pow 2 x.exponent.toNat * Nat.pow 10 (-t).toNat) /
    (Nat.pow 10 t.toNat * Nat.pow 2 (-x.exponent).toNat)

/-- The first grid, of those with at most `tries` further digits, that has a decimal which reads
back as `x`: the decimal and its power of ten. -/
def searchGrid (x : Binary64) : Nat → Int → Nat × Int
  | 0, t => (floorAt x t, t)
  | tries + 1, t =>
    let c := floorAt x t
    match readsBack x c t, readsBack x (c + 1) t with
    | true, true => (nearer x c t, t)
    | true, false => (c, t)
    | false, true => (c + 1, t)
    | false, false => searchGrid x tries (t - 1)

/-- The shortest digits of a nonzero double and the power of ten of the first one. -/
def shortest (x : Binary64) : List Char × Int :=
  let place := pointPlace x 700 (-330)
  let found := searchGrid x 17 (place - 1)
  let digits := Nat.toDigits 10 found.1
  let kept := (digits.reverse.dropWhile (· == '0')).reverse
  (kept, found.2 + digits.length - 1)

/-- Digits with the point after the digit for `10 ^ 0`. -/
def positional (digits : List Char) (first : Int) : List Char :=
  if first < 0 then ['0', '.'] ++ List.replicate (-first - 1).toNat '0' ++ digits
  else
    let whole := first.toNat + 1
    let padded := digits ++ List.replicate (whole - digits.length) '0'
    let fraction := padded.drop whole
    padded.take whole ++ '.' :: (if fraction.isEmpty then ['0'] else fraction)

/-- Digits with an exponent, which has a sign and at least two digits. -/
def withExponent (digits : List Char) (first : Int) : List Char :=
  let power := Nat.toDigits 10 first.natAbs
  let rest := digits.drop 1
  digits.take 1 ++ (if rest.isEmpty then [] else '.' :: rest) ++
    ['e', if first < 0 then '-' else '+'] ++ List.replicate (2 - power.length) '0' ++ power

/-- The text of a double. -/
def text (x : Binary64) : List Char :=
  let sign := if x.negative then ['-'] else []
  if x.mantissa = 0 then sign ++ ['0', '.', '0']
  else
    let found := shortest x
    sign ++ (if -5 ≤ found.2 && found.2 ≤ 15 then positional found.1 found.2
      else withExponent found.1 found.2)

end Binary64

end ReleaseDraft

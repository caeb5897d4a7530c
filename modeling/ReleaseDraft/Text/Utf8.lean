/-!
# UTF-8

Writing a character as bytes and reading bytes back.  `pieces` reads a byte sequence as characters
and malformed stretches; a malformed stretch is the longest run of bytes that could still have
become a character, or a single byte.  The strict reader refuses any malformed stretch, the lenient
one puts U+FFFD in its place.  What was written is read back (`decode?_encode`).
-/

namespace ReleaseDraft

namespace Text

namespace Utf8

/-- The bytes of a character. -/
def encodeChar (c : Char) : List UInt8 :=
  let n := c.toNat
  if n < 0x80 then [n.toUInt8]
  else if n < 0x800 then [(0xC0 + n / 64).toUInt8, (0x80 + n % 64).toUInt8]
  else if n < 0x10000 then
    [(0xE0 + n / 4096).toUInt8, (0x80 + n / 64 % 64).toUInt8, (0x80 + n % 64).toUInt8]
  else
    [(0xF0 + n / 262144).toUInt8, (0x80 + n / 4096 % 64).toUInt8, (0x80 + n / 64 % 64).toUInt8,
      (0x80 + n % 64).toUInt8]

/-- The bytes of a text. -/
def encode (cs : List Char) : List UInt8 := cs.flatMap encodeChar

/-- A continuation byte. -/
def isTail (b : UInt8) : Bool := 0x80 ≤ b && b ≤ 0xBF

/-- What a lead byte announces: the number of continuation bytes, the bits it contributes, and the
least and greatest second byte. -/
def lead (b : UInt8) : Option (Nat × Nat × UInt8 × UInt8) :=
  if 0xC2 ≤ b && b ≤ 0xDF then some (1, b.toNat - 0xC0, 0x80, 0xBF)
  else if b == 0xE0 then some (2, 0, 0xA0, 0xBF)
  else if b == 0xED then some (2, 0xD, 0x80, 0x9F)
  else if 0xE1 ≤ b && b ≤ 0xEF then some (2, b.toNat - 0xE0, 0x80, 0xBF)
  else if b == 0xF0 then some (3, 0, 0x90, 0xBF)
  else if 0xF1 ≤ b && b ≤ 0xF3 then some (3, b.toNat - 0xF0, 0x80, 0xBF)
  else if b == 0xF4 then some (3, 4, 0x80, 0x8F)
  else none

/-- Reads bytes as characters; `none` marks a malformed stretch. -/
def pieces : List UInt8 → List (Option Char)
  | [] => []
  | a :: r₁ =>
    if a < 0x80 then some (Char.ofNat a.toNat) :: pieces r₁
    else match lead a with
      | none => none :: pieces r₁
      | some (count, bits, lo, hi) =>
        match r₁ with
        | [] => [none]
        | b :: r₂ =>
          if b < lo || hi < b then none :: pieces (b :: r₂)
          else
            let bits₂ := bits * 64 + (b.toNat - 0x80)
            if count == 1 then some (Char.ofNat bits₂) :: pieces r₂
            else match r₂ with
              | [] => [none]
              | c :: r₃ =>
                if !isTail c then none :: pieces (c :: r₃)
                else
                  let bits₃ := bits₂ * 64 + (c.toNat - 0x80)
                  if count == 2 then some (Char.ofNat bits₃) :: pieces r₃
                  else match r₃ with
                    | [] => [none]
                    | d :: r₄ =>
                      if !isTail d then none :: pieces (d :: r₄)
                      else some (Char.ofNat (bits₃ * 64 + (d.toNat - 0x80))) :: pieces r₄
termination_by bytes => bytes.length

/-- The text of well-formed bytes. -/
def decode? (bytes : List UInt8) : Option (List Char) := (pieces bytes).mapM id

/-- The text of any bytes, with U+FFFD for each malformed stretch. -/
def decodeLenient (bytes : List UInt8) : List Char :=
  (pieces bytes).map (·.getD (Char.ofNat 0xFFFD))

/-! ### Reading back what was written -/

theorem toNat_toUInt8 {n : Nat} (h : n < 0x100) : n.toUInt8.toNat = n := Nat.mod_eq_of_lt h

theorem not_toUInt8_lt {n : Nat} (h : 0x80 ≤ n) (h' : n < 0x100) : ¬n.toUInt8 < 0x80 := by
  rw [UInt8.lt_iff_toNat_lt, toNat_toUInt8 h']
  exact Nat.not_lt.2 h

/-- A second byte that a lead byte allows. -/
theorem outOfBounds_eq_false {n : Nat} {lo hi : UInt8} (h : n < 0x100) (hlo : lo.toNat ≤ n)
    (hhi : n ≤ hi.toNat) : (n.toUInt8 < lo || hi < n.toUInt8) = false := by
  simp [UInt8.lt_iff_toNat_lt, toNat_toUInt8 h, hlo, hhi]

theorem isTail_toUInt8 : ∀ m < 0x40, isTail (0x80 + m).toUInt8 = true := by
  decide

theorem lead_two : ∀ k < 0x1E, lead (0xC0 + (k + 2)).toUInt8 = some (1, k + 2, 0x80, 0xBF) := by
  decide

theorem lead_three : ∀ k < 0x10, lead (0xE0 + k).toUInt8 =
    some (2, k, if k = 0 then 0xA0 else 0x80, if k = 0xD then 0x9F else 0xBF) := by
  decide

theorem lead_four : ∀ k < 5, lead (0xF0 + k).toUInt8 =
    some (3, k, if k = 0 then 0x90 else 0x80, if k = 4 then 0x8F else 0xBF) := by
  decide

section

variable {n : Nat} {rest : List UInt8}

theorem pieces_one (h : n < 0x80) :
    pieces (n.toUInt8 :: rest) = some (Char.ofNat n) :: pieces rest := by
  have hnat := toNat_toUInt8 (n := n) (by omega)
  have hascii : n.toUInt8 < 0x80 := by
    rw [UInt8.lt_iff_toNat_lt, hnat]
    exact h
  rw [pieces, if_pos hascii, hnat]

theorem pieces_two (h : 0x80 ≤ n) (h' : n < 0x800) :
    pieces ((0xC0 + n / 64).toUInt8 :: (0x80 + n % 64).toUInt8 :: rest) =
      some (Char.ofNat n) :: pieces rest := by
  obtain ⟨k, hk⟩ : ∃ k, n / 64 = k + 2 := ⟨n / 64 - 2, by omega⟩
  have hsecond : ((0x80 + n % 64).toUInt8 < 0x80 || 0xBF < (0x80 + n % 64).toUInt8) = false :=
    outOfBounds_eq_false (by omega) (by simp) (by simp; omega)
  have hbits : (k + 2) * 64 + (0x80 + n % 64 - 0x80) = n := by omega
  rw [hk, pieces, if_neg (not_toUInt8_lt (by omega) (by omega)), lead_two k (by omega)]
  simp only [hsecond, toNat_toUInt8 (show 0x80 + n % 64 < 0x100 by omega), hbits,
    Bool.false_eq_true, ↓reduceIte, beq_self_eq_true]

/-- The bounds on the second of three bytes leave out what fewer bytes write, and surrogates. -/
theorem pieces_three (h : 0x800 ≤ n) (h' : n < 0x10000) (hvalid : n < 0xD800 ∨ 0xDFFF < n) :
    pieces ((0xE0 + n / 4096).toUInt8 :: (0x80 + n / 64 % 64).toUInt8 ::
      (0x80 + n % 64).toUInt8 :: rest) = some (Char.ofNat n) :: pieces rest := by
  have hsecond : ((0x80 + n / 64 % 64).toUInt8 < (if n / 4096 = 0 then 0xA0 else 0x80) ||
      (if n / 4096 = 0xD then 0x9F else 0xBF) < (0x80 + n / 64 % 64).toUInt8) = false := by
    refine outOfBounds_eq_false (by omega) ?_ ?_
    · split
      · simp only [UInt8.reduceToNat]
        omega
      · exact Nat.le_add_right _ _
    · split
      · simp only [UInt8.reduceToNat]
        omega
      · simp only [UInt8.reduceToNat]
        omega
  have hthird := isTail_toUInt8 (n % 64) (by omega)
  have hbits : (n / 4096 * 64 + (0x80 + n / 64 % 64 - 0x80)) * 64 + (0x80 + n % 64 - 0x80) = n := by
    omega
  rw [pieces, if_neg (not_toUInt8_lt (by omega) (by omega)), lead_three _ (by omega)]
  simp only [hsecond, hthird, toNat_toUInt8 (show 0x80 + n / 64 % 64 < 0x100 by omega),
    toNat_toUInt8 (show 0x80 + n % 64 < 0x100 by omega), hbits, Bool.false_eq_true, ↓reduceIte,
    beq_self_eq_true, Bool.not_true, Nat.reduceBEq]

/-- The bounds on the second of four bytes leave out what fewer bytes write, and what lies beyond
the last character. -/
theorem pieces_four (h : 0x10000 ≤ n) (h' : n < 0x110000) :
    pieces ((0xF0 + n / 262144).toUInt8 :: (0x80 + n / 4096 % 64).toUInt8 ::
      (0x80 + n / 64 % 64).toUInt8 :: (0x80 + n % 64).toUInt8 :: rest) =
      some (Char.ofNat n) :: pieces rest := by
  have hsecond : ((0x80 + n / 4096 % 64).toUInt8 < (if n / 262144 = 0 then 0x90 else 0x80) ||
      (if n / 262144 = 4 then 0x8F else 0xBF) < (0x80 + n / 4096 % 64).toUInt8) = false := by
    refine outOfBounds_eq_false (by omega) ?_ ?_
    · split
      · simp only [UInt8.reduceToNat]
        omega
      · exact Nat.le_add_right _ _
    · split
      · simp only [UInt8.reduceToNat]
        omega
      · simp only [UInt8.reduceToNat]
        omega
  have hthird := isTail_toUInt8 (n / 64 % 64) (by omega)
  have hfourth := isTail_toUInt8 (n % 64) (by omega)
  have hbits : ((n / 262144 * 64 + (0x80 + n / 4096 % 64 - 0x80)) * 64 +
      (0x80 + n / 64 % 64 - 0x80)) * 64 + (0x80 + n % 64 - 0x80) = n := by
    omega
  rw [pieces, if_neg (not_toUInt8_lt (by omega) (by omega)), lead_four _ (by omega)]
  simp only [hsecond, hthird, hfourth, toNat_toUInt8 (show 0x80 + n / 4096 % 64 < 0x100 by omega),
    toNat_toUInt8 (show 0x80 + n / 64 % 64 < 0x100 by omega),
    toNat_toUInt8 (show 0x80 + n % 64 < 0x100 by omega), hbits, Bool.false_eq_true, ↓reduceIte,
    Bool.not_true, Nat.reduceBEq]

end

theorem pieces_encodeChar (c : Char) (rest : List UInt8) :
    pieces (encodeChar c ++ rest) = some c :: pieces rest := by
  have hvalid : c.toNat < 0xD800 ∨ 0xDFFF < c.toNat ∧ c.toNat < 0x110000 := c.valid
  rw [encodeChar]
  by_cases hone : c.toNat < 0x80
  · rw [if_pos hone, List.singleton_append, pieces_one hone, Char.ofNat_toNat]
  rw [if_neg hone]
  by_cases htwo : c.toNat < 0x800
  · rw [if_pos htwo]
    simp only [List.cons_append, List.nil_append, pieces_two (Nat.le_of_not_lt hone) htwo,
      Char.ofNat_toNat]
  rw [if_neg htwo]
  by_cases hthree : c.toNat < 0x10000
  · rw [if_pos hthree]
    simp only [List.cons_append, List.nil_append, pieces_three (Nat.le_of_not_lt htwo) hthree
      (hvalid.imp_right And.left), Char.ofNat_toNat]
  · rw [if_neg hthree]
    simp only [List.cons_append, List.nil_append, pieces_four (Nat.le_of_not_lt hthree)
      (show c.toNat < 0x110000 by omega), Char.ofNat_toNat]

theorem pieces_encode (cs : List Char) : pieces (encode cs) = cs.map some := by
  induction cs with
  | nil => rw [encode, List.flatMap_nil, pieces, List.map_nil]
  | cons c cs ih =>
    rw [encode, List.flatMap_cons, pieces_encodeChar, List.map_cons]
    exact congrArg _ ih

/-- **What is written is read back.** -/
theorem decode?_encode (cs : List Char) : decode? (encode cs) = some cs := by
  rw [decode?, pieces_encode]
  induction cs with
  | nil => rfl
  | cons c cs ih => simp [ih]

end Utf8

end Text

end ReleaseDraft

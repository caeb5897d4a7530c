import Mathlib.Algebra.Order.Ring.Nat
import Mathlib.Tactic.Linarith
import ReleaseDraft.Proofs.Calendar
import ReleaseDraft.Time.Reader

/-!
# Reading timestamps

A *timestamp* (`Timestamp`) is a date of the years 0 to 9999, a time of day, perhaps a fraction of a
second, and an offset from UTC; its text is that of RFC 3339, such as `2024-02-29T23:59:59.5+01:00`.
The instant that it names is found by counting (`Timestamp.Names`): the days from 1970-01-01, the
seconds of the day, less the offset.

Each number of the text has all its digits, so it is read up to the mark after it
(`Instant.readNumber_digits`), and the reader of dates finds the fields that were written
(`Timestamp.readFields_chars`).  As it also numbers days as they are counted, it finds the instant
that is named (`Timestamp.parse_text`).
-/

namespace ReleaseDraft

/-! ### Timestamps -/

/-- A fraction of a second, written with one to nine digits. -/
structure Fraction where
  digits : Nat
  numerator : Nat
  digits_pos : 1 ≤ digits
  digits_le : digits ≤ 9
  numerator_lt : numerator < 10 ^ digits

namespace Fraction

/-- The point and the digits. -/
def chars (f : Fraction) : List Char := '.' :: Instant.padded f.digits f.numerator

end Fraction

/-- An offset from UTC: none, or hours and minutes ahead of it or behind it. -/
inductive Zone where
  | utc
  | ahead (hours : Fin 24) (minutes : Fin 60)
  | behind (hours : Fin 24) (minutes : Fin 60)

namespace Zone

/-- The offset in seconds. -/
def seconds : Zone → Int
  | utc => 0
  | ahead hours minutes => 3600 * hours.val + 60 * minutes.val
  | behind hours minutes => -(3600 * hours.val + 60 * minutes.val)

/-- The offset as it is written. -/
def chars : Zone → List Char
  | utc => ['Z']
  | ahead hours minutes => '+' :: Instant.padded 2 hours ++ ':' :: Instant.padded 2 minutes
  | behind hours minutes => '-' :: Instant.padded 2 hours ++ ':' :: Instant.padded 2 minutes

end Zone

/-- A date and a time of day with an offset from UTC. -/
structure Timestamp where
  date : Date
  isReal : date.IsReal
  year_nonneg : 0 ≤ date.year
  year_le : date.year ≤ 9999
  hour : Fin 24
  minute : Fin 60
  second : Fin 60
  fraction : Option Fraction
  zone : Zone

namespace Timestamp

/-- The fraction of the second, if there is one. -/
def fractionChars (ts : Timestamp) : List Char :=
  match ts.fraction with
  | none => []
  | some f => f.chars

/-- The characters of a timestamp. -/
def chars (ts : Timestamp) : List Char :=
  Instant.padded 4 ts.date.year.toNat ++ '-' :: Instant.padded 2 ts.date.month ++
    '-' :: Instant.padded 2 ts.date.day ++ 'T' :: Instant.padded 2 ts.hour ++
    ':' :: Instant.padded 2 ts.minute ++ ':' :: Instant.padded 2 ts.second ++
    ts.fractionChars ++ ts.zone.chars

/-- The text of a timestamp. -/
def text (ts : Timestamp) : String := String.ofList ts.chars

/-- The seconds of the day. -/
def timeOfDay (ts : Timestamp) : Nat := 3600 * ts.hour + 60 * ts.minute + ts.second

/-- The billionths of a second that a timestamp has: none, or as many as make up its fraction. -/
def HasNanos (ts : Timestamp) (nanos : Nat) : Prop :=
  match ts.fraction with
  | none => nanos = 0
  | some f => nanos * 10 ^ f.digits = f.numerator * 10 ^ 9

/-- The instant that a timestamp names. -/
def Names (ts : Timestamp) (t : Instant) : Prop :=
  (∃ days, Date.DaysFromEpoch days ts.date ∧
    t.secs = 86400 * days + ts.timeOfDay - ts.zone.seconds) ∧ ts.HasNanos t.nanos

end Timestamp

/-! ### Numbers with all their digits -/

namespace Instant

variable {w n most : Nat} {ds rest : List Char}

theorem digitsValue_eq (ds : List Char) : digitsValue ds = Nat.ofDigitChars 10 ds 0 := by
  simp only [digitsValue, Nat.ofDigitChars_eq_foldl, Nat.mul_comm]

@[simp] theorem digitsValue_padded (w n : Nat) : digitsValue (padded w n) = n := by
  simp [digitsValue_eq, padded, Nat.ofDigitChars_append]

theorem isDigit_of_mem_padded {c : Char} (h : c ∈ padded w n) : c.isDigit = true := by
  rcases List.mem_append.1 h with hzero | hdigit
  · obtain rfl := List.eq_of_mem_replicate hzero
    rfl
  · exact Nat.isDigit_of_mem_toDigits (by decide) (by decide) hdigit

theorem length_padded (hw : 1 ≤ w) (hn : n < 10 ^ w) : (padded w n).length = w := by
  have hle : (Nat.toDigits 10 n).length ≤ w := (Nat.length_toDigits_le_iff (by decide) hw).2 hn
  simp [padded, hle]

theorem toNat_of_isDigit {c : Char} (h : c.isDigit = true) : 48 ≤ c.toNat ∧ c.toNat ≤ 57 :=
  Char.isDigit_iff_toNat.1 h

/-- A padded number starts with a digit. -/
theorem exists_padded_eq_cons (w n : Nat) : ∃ d ds, padded w n = d :: ds ∧ d.isDigit = true := by
  have hne : padded w n ≠ [] := by simp [padded]
  obtain ⟨d, ds, hcons⟩ := List.exists_cons_of_ne_nil hne
  exact ⟨d, ds, hcons, isDigit_of_mem_padded (hcons ▸ List.mem_cons_self)⟩

theorem trimStart_padded (w n : Nat) (rest : List Char) :
    Text.trimStart (padded w n ++ rest) = padded w n ++ rest := by
  obtain ⟨d, ds, hcons, hdigit⟩ := exists_padded_eq_cons w n
  rw [hcons, List.cons_append, Text.trimStart_cons (Text.isBlank_eq_false_of_isDigit hdigit)]

/-- **Digits are read up to the last one**, where either no more may be read or none follows. -/
theorem readNumber_digits (hds : ∀ d ∈ ds, d.isDigit = true) (hne : ds ≠ [])
    (hlen : ds.length ≤ most) (hend : ds.length = most ∨ ∀ c ∈ rest.head?, c.isDigit = false) :
    readNumber most (ds ++ rest) = .ok (digitsValue ds, rest) := by
  have htaken : ((ds ++ rest).take most).takeWhile Char.isDigit = ds := by
    rw [List.take_append, List.take_of_length_le hlen, List.takeWhile_append_of_pos hds]
    refine List.append_right_eq_self.2 ?_
    rcases hend with rfl | hstop
    · simp
    · cases rest with
      | nil => simp
      | cons c rest =>
        cases hmost : most - ds.length with
        | zero => rfl
        | succ k => simp [hstop c rfl]
  obtain ⟨d, ds', rfl⟩ := List.exists_cons_of_ne_nil hne
  simp only [readNumber, List.cons_append] at htaken ⊢
  simp only [hds d List.mem_cons_self, Bool.not_true, Bool.false_eq_true, ↓reduceIte, htaken]
  rw [← List.cons_append, List.drop_left]

theorem readNumber_padded (hw : 1 ≤ w) (hn : n < 10 ^ w) (hmost : w ≤ most)
    (hend : w = most ∨ ∀ c ∈ rest.head?, c.isDigit = false) :
    readNumber most (padded w n ++ rest) = .ok (n, rest) := by
  have hlen := length_padded hw hn
  have hne : padded w n ≠ [] := by simp [padded]
  have hread := readNumber_digits (fun d => isDigit_of_mem_padded) hne (hlen.trans_le hmost)
    (hlen.symm ▸ hend)
  rwa [digitsValue_padded] at hread

theorem readField_padded {least greatest : Nat} (hleast : least ≤ n) (hgreatest : n ≤ greatest)
    (hn : n < 100) (rest : List Char) :
    readField least greatest (padded 2 n ++ rest) = .ok (n, rest) := by
  rw [readField, trimStart_padded, readNumber_padded (by decide) hn le_rfl (.inl rfl)]
  simp [hleast, hgreatest]

theorem readYear_padded (hn : n < 10000) (rest : List Char) :
    readYear (padded 4 n ++ rest) = .ok ((n : Int), rest) := by
  have hread : readNumber 4 (padded 4 n ++ rest) = .ok (n, rest) :=
    readNumber_padded (by decide) hn le_rfl (.inl rfl)
  obtain ⟨d, ds, hcons, hdigit⟩ := exists_padded_eq_cons 4 n
  rw [readYear, trimStart_padded]
  -- the first digit is no sign
  split
  · next hsign =>
    rw [hcons] at hsign
    cases hsign
    cases hdigit
  · next hsign =>
    rw [hcons] at hsign
    cases hsign
    cases hdigit
  · rw [hread]
    rfl

theorem readMark_cons {mark : Char} (h : Text.isBlank mark = false) (rest : List Char) :
    readMark mark (mark :: rest) = .ok rest := by
  simp [readMark, Text.trimStart_cons h]

theorem readDivider_cons (rest : List Char) : readDivider ('T' :: rest) = .ok rest := rfl

/-! ### Fractions and offsets -/

theorem readFraction_chars (f : Fraction) (hrest : ∀ c ∈ rest.head?, c.isDigit = false) :
    readFraction (f.chars ++ rest) = .ok (f.numerator * 10 ^ (9 - f.digits), rest) := by
  have hlen := length_padded f.digits_pos f.numerator_lt
  have hread := readNumber_padded f.digits_pos f.numerator_lt f.digits_le (.inr hrest)
  have hdone : rest.dropWhile Char.isDigit = rest := by
    cases rest with
    | nil => rfl
    | cons c rest => simp [hrest c rfl]
  simp only [Fraction.chars, List.cons_append, readFraction, hread, hdone]
  simp [hlen]

theorem readPair_padded (hn : n < 100) (rest : List Char) :
    readPair (padded 2 n ++ rest) = .ok ((n / 10, n % 10), rest) := by
  have hlen : (padded 2 n).length = 2 := length_padded (by decide) hn
  have hvalue := digitsValue_padded 2 n
  obtain ⟨a, b, hpair⟩ : ∃ a b, padded 2 n = [a, b] := by
    match hpad : padded 2 n, hlen with
    | [a, b], _ => exact ⟨a, b, rfl⟩
  rw [hpair] at hvalue
  have ha : a.isDigit = true := isDigit_of_mem_padded (w := 2) (n := n) (by simp [hpair])
  have hb : b.isDigit = true := isDigit_of_mem_padded (w := 2) (n := n) (by simp [hpair])
  have hrange := toNat_of_isDigit hb
  have hzero : '0'.toNat = 48 := rfl
  simp only [digitsValue, List.foldl_cons, List.foldl_nil, hzero] at hvalue
  simp only [hpair, List.cons_append, List.nil_append, readPair, ha, hb, Bool.and_self, ↓reduceIte,
    hzero, Except.ok.injEq, Prod.mk.injEq, and_true]
  omega

theorem readOffsetSize_padded (hours : Fin 24) (minutes : Fin 60) (rest : List Char) :
    readOffsetSize (padded 2 hours ++ ':' :: padded 2 minutes ++ rest) =
      .ok (3600 * hours.val + 60 * minutes.val, rest) := by
  have hh := hours.isLt
  have hm := minutes.isLt
  obtain ⟨d, ds, hcons, hdigit⟩ := exists_padded_eq_cons 2 minutes
  have hcolon : (':' :: (padded 2 minutes ++ rest)).dropWhile
      (fun c => c == ':' || Text.isBlank c) = padded 2 minutes ++ rest := by
    have hd : d ≠ ':' := by
      rintro rfl
      cases hdigit
    simp [hcons, hd, Text.isBlank_eq_false_of_isDigit hdigit]
  simp only [readOffsetSize, List.append_assoc, List.cons_append,
    readPair_padded (show hours.val < 100 by omega), hcolon,
    readPair_padded (show minutes.val < 100 by omega)]
  rw [if_neg (by omega)]
  simp only [Except.ok.injEq, Prod.mk.injEq, and_true]
  omega

theorem readOffset_chars (zone : Zone) : readOffset zone.chars = .ok (zone.seconds, []) := by
  cases zone with
  | utc => rfl
  | ahead hours minutes =>
    have hsize := readOffsetSize_padded hours minutes []
    rw [List.append_nil] at hsize
    simp only [readOffset, Zone.chars, List.cons_append,
      Text.trimStart_cons (show Text.isBlank '+' = false from rfl)]
    simp [hsize, Zone.seconds]
  | behind hours minutes =>
    have hsize := readOffsetSize_padded hours minutes []
    rw [List.append_nil] at hsize
    simp only [readOffset, Zone.chars, List.cons_append,
      Text.trimStart_cons (show Text.isBlank '-' = false from rfl)]
    simp [hsize, Zone.seconds, Except.map]

end Instant

/-! ### The fields of a timestamp -/

namespace Timestamp

variable {ts : Timestamp}

/-- The billionths of a second of a timestamp. -/
def nanos (ts : Timestamp) : Nat :=
  match ts.fraction with
  | none => 0
  | some f => f.numerator * 10 ^ (9 - f.digits)

theorem hasNanos_iff {nanos : Nat} : ts.HasNanos nanos ↔ nanos = ts.nanos := by
  unfold HasNanos Timestamp.nanos
  cases ts.fraction with
  | none => rfl
  | some f =>
    have hpow : 10 ^ 9 = 10 ^ (9 - f.digits) * 10 ^ f.digits := by
      rw [← pow_add, Nat.sub_add_cancel f.digits_le]
    have hpos : 0 < 10 ^ f.digits := by positivity
    simp only [hpow, ← mul_assoc]
    exact Nat.mul_left_inj hpos.ne'

theorem year_lt (ts : Timestamp) : ts.date.year.toNat < 10000 := by
  have := ts.year_le
  omega

theorem month_lt (ts : Timestamp) : ts.date.month < 100 := by
  have := (Date.isReal_iff.1 ts.isReal).2.1
  omega

theorem day_lt (ts : Timestamp) : ts.date.day < 100 := by
  have := ts.isReal.day_le
  omega

/-- What follows a number of seconds starts with no digit. -/
theorem isDigit_head?_zone (zone : Zone) : ∀ c ∈ zone.chars.head?, c.isDigit = false := by
  cases zone <;> simp [Zone.chars]

theorem readFraction_fractionChars (ts : Timestamp) :
    Instant.readFraction (ts.fractionChars ++ ts.zone.chars) = .ok (ts.nanos, ts.zone.chars) := by
  unfold fractionChars nanos
  cases ts.fraction with
  | none => cases ts.zone <;> rfl
  | some f => exact Instant.readFraction_chars f (isDigit_head?_zone ts.zone)

/-- **The reader finds the fields that were written.** -/
theorem readFields_chars (ts : Timestamp) : Instant.readFields ts.chars =
    .ok ⟨ts.date, ts.hour, ts.minute, ts.second, ts.nanos, ts.zone.seconds⟩ := by
  obtain ⟨hlow, hhigh, hpos, -⟩ := Date.isReal_iff.1 ts.isReal
  have hcast : (ts.date.year.toNat : Int) = ts.date.year := Int.toNat_of_nonneg ts.year_nonneg
  have hyear := Instant.readYear_padded ts.year_lt
  have hmonth := Instant.readField_padded hlow hhigh ts.month_lt
  have hday := Instant.readField_padded hpos ts.isReal.day_le ts.day_lt
  have hhour := Instant.readField_padded (Nat.zero_le _) (show ts.hour.val ≤ 23 by omega) (by omega)
  have hminute :=
    Instant.readField_padded (Nat.zero_le _) (show ts.minute.val ≤ 59 by omega) (by omega)
  have hsecond :=
    Instant.readField_padded (Nat.zero_le _) (show ts.second.val ≤ 60 by omega) (by omega)
  simp only [Instant.readFields, chars, List.append_assoc, List.cons_append, bind, Except.bind,
    hyear, Instant.readMark_cons (show Text.isBlank '-' = false from rfl),
    Instant.readMark_cons (show Text.isBlank ':' = false from rfl), Instant.readDivider_cons,
    hmonth, hday, hhour, hminute, hsecond, readFraction_fractionChars, Instant.readOffset_chars,
    hcast]
  rfl

/-- The instant that a timestamp names, by the number of its day. -/
def instant (ts : Timestamp) : Instant :=
  ⟨86400 * ts.date.dayNumber + ts.timeOfDay - ts.zone.seconds, ts.nanos⟩

theorem names_iff {t : Instant} : ts.Names t ↔ t = ts.instant := by
  obtain ⟨secs, nanos⟩ := t
  simp only [Names, Date.daysFromEpoch_iff, hasNanos_iff, instant, Instant.mk.injEq]
  constructor
  · rintro ⟨⟨days, ⟨-, rfl⟩, hsecs⟩, hnanos⟩
    exact ⟨hsecs, hnanos⟩
  · rintro ⟨hsecs, hnanos⟩
    exact ⟨⟨_, ⟨ts.isReal, rfl⟩, hsecs⟩, hnanos⟩

theorem seconds_zone_lt (zone : Zone) : -86400 < zone.seconds ∧ zone.seconds < 86400 := by
  cases zone with
  | utc => decide
  | ahead hours minutes =>
    simp only [Zone.seconds]
    omega
  | behind hours minutes =>
    simp only [Zone.seconds]
    omega

/-- The days of the years 0 to 9999 are far from the ends of the calendar. -/
theorem dayNumber_mem (ts : Timestamp) :
    -719528 ≤ ts.date.dayNumber ∧ ts.date.dayNumber < 2932897 := by
  have hlow := ts.year_nonneg
  have hhigh := ts.year_le
  obtain ⟨hfirst, hlast⟩ := ts.isReal.dayNumber_mem
  simp only [Date.daysBeforeYear, Date.epochDays] at hfirst hlast
  omega

/-- **A timestamp is read as the instant that it names.** -/
theorem parse_text (ts : Timestamp) : Instant.parse ts.text = .ok ts.instant := by
  have hyear : Instant.yearInRange ts.date.year = true := by
    have hlow := ts.year_nonneg
    have hhigh := ts.year_le
    simp only [Instant.yearInRange, Bool.and_eq_true, decide_eq_true_eq]
    omega
  have hdate : ts.date.isValid = true := Date.isValid_iff.2 ts.isReal
  have hoffset : (decide (Instant.day ≤ ts.zone.seconds) ||
      decide (ts.zone.seconds ≤ -Instant.day)) = false := by
    have hzone := seconds_zone_lt ts.zone
    rw [Bool.or_eq_false_iff, decide_eq_false_iff_not, decide_eq_false_iff_not, Instant.day]
    omega
  have hsecond : ts.second.val ≠ 60 := ts.second.isLt.ne
  have hsecs : ts.date.dayNumber * Instant.day +
      (ts.hour * 3600 + ts.minute * 60 + ts.second : Nat) - ts.zone.seconds = ts.instant.secs := by
    simp only [instant, timeOfDay, Instant.day]
    omega
  have hrange : (decide (Instant.minSecs ≤ ts.instant.secs) &&
      decide (ts.instant.secs ≤ Instant.maxSecs)) = true := by
    have hday := ts.dayNumber_mem
    have hzone := seconds_zone_lt ts.zone
    rw [Bool.and_eq_true, decide_eq_true_iff, decide_eq_true_iff, Instant.minSecs, Instant.maxSecs]
    simp only [instant, timeOfDay]
    omega
  rw [Instant.parse, text, String.toList_ofList, readFields_chars]
  simp only [Instant.ofFields, hyear, hdate, hoffset, hsecond, hsecs, hrange, Bool.and_self,
    Bool.not_true, Bool.false_eq_true, ↓reduceIte]
  rfl

end Timestamp

end ReleaseDraft

import Mathlib.Tactic.Linarith
import ReleaseDraft.Time.Calendar

/-!
# Counting days

The calendar by its rules: which months have how many days (`Date.MonthHas`), which dates are real
(`Date.IsReal`) and which date is the day after another one (`Date.DayAfter`).  The number of days
from 1970-01-01 is then a count (`Date.DaysFromEpoch`): one more for every day after, one less for
every day before.

`Date.dayNumber` is that count (`Date.daysFromEpoch_iff`).  It grows by one with every day
(`DayAfter.dayNumber_eq`), where the turn of a year takes the rule for leap years
(`daysBeforeYear_succ`).  It also grows with the order of dates (`dayNumber_lt_iff`), so that only one
date has the number 0, and counting from there on and back reaches every real date.
-/

namespace ReleaseDraft

namespace Date

/-! ### The rules of the calendar -/

/-- A year with a 29 February: one divisible by 4, but of those divisible by 100 only the ones
divisible by 400. -/
def IsLeap (year : Int) : Prop := 4 ∣ year ∧ (100 ∣ year → 400 ∣ year)

/-- The number of days of a month. -/
inductive MonthHas (year : Int) : Nat → Nat → Prop
  | thirty {month} : month ∈ [4, 6, 9, 11] → MonthHas year month 30
  | thirtyOne {month} : month ∈ [1, 3, 5, 7, 8, 10, 12] → MonthHas year month 31
  | february : ¬IsLeap year → MonthHas year 2 28
  | leapFebruary : IsLeap year → MonthHas year 2 29

/-- The date is in the calendar. -/
def IsReal (d : Date) : Prop := 1 ≤ d.day ∧ ∃ days, MonthHas d.year d.month days ∧ d.day ≤ days

/-- The second date is the day after the first. -/
inductive DayAfter : Date → Date → Prop
  | inMonth {year month days day} : MonthHas year month days → 1 ≤ day → day < days →
      DayAfter ⟨year, month, day⟩ ⟨year, month, day + 1⟩
  | nextMonth {year month days} : MonthHas year month days → month < 12 →
      DayAfter ⟨year, month, days⟩ ⟨year, month + 1, 1⟩
  | nextYear {year} : DayAfter ⟨year, 12, 31⟩ ⟨year + 1, 1, 1⟩

/-- The number of days from 1970-01-01 to a date, negative before it. -/
inductive DaysFromEpoch : Int → Date → Prop
  | epoch : DaysFromEpoch 0 ⟨1970, 1, 1⟩
  | after {n d e} : DaysFromEpoch n d → DayAfter d e → DaysFromEpoch (n + 1) e
  | before {n d e} : DaysFromEpoch n e → DayAfter d e → DaysFromEpoch (n - 1) d

/-- The order of dates: by year, then month, then day. -/
def Before (d e : Date) : Prop :=
  d.year < e.year ∨ d.year = e.year ∧ (d.month < e.month ∨ d.month = e.month ∧ d.day < e.day)

variable {d e : Date} {year : Int} {month days : Nat}

/-! ### Months and years -/

theorem isLeapYear_iff : isLeapYear year = true ↔ IsLeap year := by
  simp only [isLeapYear, IsLeap, Bool.and_eq_true, Bool.or_eq_true, beq_iff_eq, bne_iff_ne]
  omega

instance : DecidablePred IsLeap := fun _ => decidable_of_iff _ isLeapYear_iff

theorem daysInMonth_of_short (year : Int) (h : month ∈ [4, 6, 9, 11]) :
    daysInMonth year month = 30 := by
  simp only [List.mem_cons, List.not_mem_nil, or_false] at h
  obtain rfl | rfl | rfl | rfl := h <;> rfl

theorem daysInMonth_of_long (year : Int) (h : month ∈ [1, 3, 5, 7, 8, 10, 12]) :
    daysInMonth year month = 31 := by
  simp only [List.mem_cons, List.not_mem_nil, or_false] at h
  obtain rfl | rfl | rfl | rfl | rfl | rfl | rfl := h <;> rfl

theorem daysInMonth_february (year : Int) :
    daysInMonth year 2 = if IsLeap year then 29 else 28 := by
  simp only [daysInMonth, isLeapYear_iff, ↓reduceIte]

theorem monthHas_iff :
    MonthHas year month days ↔ 1 ≤ month ∧ month ≤ 12 ∧ daysInMonth year month = days := by
  constructor
  · intro h
    cases h with
    | thirty h =>
      have hdays := daysInMonth_of_short year h
      simp only [List.mem_cons, List.not_mem_nil, or_false] at h
      omega
    | thirtyOne h =>
      have hdays := daysInMonth_of_long year h
      simp only [List.mem_cons, List.not_mem_nil, or_false] at h
      omega
    | february h => simp [daysInMonth_february, h]
    | leapFebruary h => simp [daysInMonth_february, h]
  · rintro ⟨hlow, hhigh, rfl⟩
    by_cases hfebruary : month = 2
    · subst hfebruary
      rw [daysInMonth_february]
      split_ifs with hleap
      · exact .leapFebruary hleap
      · exact .february hleap
    · by_cases hshort : month ∈ [4, 6, 9, 11]
      · rw [daysInMonth_of_short year hshort]
        exact .thirty hshort
      · have hlong : month ∈ [1, 3, 5, 7, 8, 10, 12] := by
          simp only [List.mem_cons, List.not_mem_nil, or_false] at hshort ⊢
          omega
        rw [daysInMonth_of_long year hlong]
        exact .thirtyOne hlong

theorem isReal_iff : d.IsReal ↔
    1 ≤ d.month ∧ d.month ≤ 12 ∧ 1 ≤ d.day ∧ d.day ≤ daysInMonth d.year d.month := by
  simp only [IsReal, monthHas_iff]
  constructor
  · rintro ⟨hday, days, ⟨hlow, hhigh, rfl⟩, hle⟩
    exact ⟨hlow, hhigh, hday, hle⟩
  · rintro ⟨hlow, hhigh, hday, hle⟩
    exact ⟨hday, _, ⟨hlow, hhigh, rfl⟩, hle⟩

theorem isValid_iff : d.isValid = true ↔ d.IsReal := by
  simp [isValid, isReal_iff, and_assoc]

theorem daysInMonth_mem (year : Int) (hlow : 1 ≤ month) (hhigh : month ≤ 12) :
    1 ≤ daysInMonth year month ∧ daysInMonth year month ≤ 31 := by
  unfold daysInMonth
  split_ifs <;> simp_all

theorem IsReal.day_le (h : d.IsReal) : d.day ≤ 31 := by
  obtain ⟨hlow, hhigh, -, hle⟩ := isReal_iff.1 h
  exact hle.trans (daysInMonth_mem d.year hlow hhigh).2

/-- A month lies before the first of every later one. -/
theorem daysBeforeMonth_add_le (year : Int) {later : Nat} (h : month < later) :
    daysBeforeMonth year month + daysInMonth year month ≤ daysBeforeMonth year later := by
  induction later, h using Nat.le_induction with
  | base => exact le_rfl
  | succ later _ ih => exact ih.trans (Nat.le_add_right _ _)

/-- The days before a thirteenth month are those of the year. -/
theorem daysBeforeMonth_thirteen (year : Int) :
    daysBeforeMonth year 13 = if IsLeap year then 366 else 365 := by
  have hrest : daysBeforeMonth year 13 = 31 + daysInMonth year 2 + 306 := by
    simp [daysBeforeMonth, daysInMonth]
  rw [hrest, daysInMonth_february]
  split_ifs <;> rfl

theorem daysBeforeYear_succ (year : Int) :
    daysBeforeYear (year + 1) = daysBeforeYear year + daysBeforeMonth year 13 := by
  rw [daysBeforeMonth_thirteen]
  simp only [daysBeforeYear]
  split_ifs with h
  · obtain ⟨hfour, hhundred⟩ := h
    omega
  · simp only [IsLeap] at h
    omega

theorem daysBeforeYear_le {later : Int} (h : year ≤ later) :
    daysBeforeYear year ≤ daysBeforeYear later := by
  simp only [daysBeforeYear]
  omega

/-! ### The day number -/

/-- A real date lies in its year. -/
theorem IsReal.dayNumber_mem (h : d.IsReal) :
    daysBeforeYear d.year - epochDays ≤ d.dayNumber ∧
      d.dayNumber < daysBeforeYear (d.year + 1) - epochDays := by
  obtain ⟨-, hhigh, hday, hle⟩ := isReal_iff.1 h
  have hyear := daysBeforeMonth_add_le d.year (show d.month < 13 by omega)
  rw [daysBeforeYear_succ, dayNumber]
  omega

theorem DayAfter.isReal (h : DayAfter d e) : d.IsReal ∧ e.IsReal := by
  cases h with
  | inMonth hdays hday hlt => exact ⟨⟨hday, _, hdays, hlt.le⟩, Nat.le_add_left _ _, _, hdays, hlt⟩
  | nextMonth hdays hlt =>
    obtain ⟨hlow, hhigh, rfl⟩ := monthHas_iff.1 hdays
    refine ⟨⟨(daysInMonth_mem _ hlow hhigh).1, _, hdays, le_rfl⟩, isReal_iff.2 ?_⟩
    exact ⟨by simp, hlt, le_rfl, (daysInMonth_mem _ (by simp) hlt).1⟩
  | nextYear =>
    exact ⟨⟨by simp, 31, .thirtyOne (by simp), le_rfl⟩, le_rfl, 31, .thirtyOne (by simp), by simp⟩

/-- **The day after has the next number.** -/
theorem DayAfter.dayNumber_eq (h : DayAfter d e) : e.dayNumber = d.dayNumber + 1 := by
  cases h with
  | inMonth hdays hday hlt =>
    simp only [dayNumber]
    omega
  | nextMonth hdays hlt =>
    obtain ⟨-, -, rfl⟩ := monthHas_iff.1 hdays
    simp only [dayNumber, daysBeforeMonth]
    omega
  | @nextYear year =>
    -- December has 31 days, and with them the year is over
    have hfirst : daysBeforeMonth (year + 1) 1 = 0 := rfl
    have hlast : daysBeforeMonth year 13 = daysBeforeMonth year 12 + 31 := rfl
    simp only [dayNumber, daysBeforeYear_succ, hfirst, hlast]
    omega

theorem dayNumber_lt_of_before (hd : d.IsReal) (he : e.IsReal) (h : d.Before e) :
    d.dayNumber < e.dayNumber := by
  obtain ⟨-, -, -, hle⟩ := isReal_iff.1 hd
  obtain ⟨-, -, hpos, -⟩ := isReal_iff.1 he
  rcases h with hyear | ⟨hyear, hmonth | ⟨hmonth, hday⟩⟩
  · calc
      d.dayNumber < daysBeforeYear (d.year + 1) - epochDays := hd.dayNumber_mem.2
      _ ≤ daysBeforeYear e.year - epochDays := by have := daysBeforeYear_le hyear; omega
      _ ≤ e.dayNumber := he.dayNumber_mem.1
  · have := daysBeforeMonth_add_le d.year hmonth
    simp only [dayNumber, ← hyear]
    omega
  · simp only [dayNumber, ← hyear, ← hmonth]
    omega

theorem eq_iff : d = e ↔ d.year = e.year ∧ d.month = e.month ∧ d.day = e.day := by
  obtain ⟨year, month, day⟩ := d
  obtain ⟨year', month', day'⟩ := e
  rw [mk.injEq]

theorem before_or (d e : Date) : d.Before e ∨ d = e ∨ e.Before d := by
  rw [Before, Before, eq_iff]
  omega

/-- **The order of dates is the order of their numbers.** -/
theorem dayNumber_lt_iff (hd : d.IsReal) (he : e.IsReal) :
    d.dayNumber < e.dayNumber ↔ d.Before e := by
  refine ⟨fun h => ?_, dayNumber_lt_of_before hd he⟩
  rcases before_or d e with hbefore | rfl | hafter
  · exact hbefore
  · exact absurd h (lt_irrefl _)
  · exact absurd h (dayNumber_lt_of_before he hd hafter).not_gt

theorem eq_of_dayNumber_eq (hd : d.IsReal) (he : e.IsReal) (h : d.dayNumber = e.dayNumber) :
    d = e := by
  rcases before_or d e with hbefore | rfl | hafter
  · exact absurd h (dayNumber_lt_of_before hd he hbefore).ne
  · rfl
  · exact absurd h.symm (dayNumber_lt_of_before he hd hafter).ne

/-! ### Counting -/

theorem exists_dayAfter (h : d.IsReal) : ∃ e, DayAfter d e := by
  obtain ⟨year, month, day⟩ := d
  obtain ⟨hday, days, hdays, hle⟩ := h
  rcases Nat.lt_or_eq_of_le hle with hlt | rfl
  · exact ⟨_, .inMonth hdays hday hlt⟩
  · by_cases hmonth : month < 12
    · exact ⟨_, .nextMonth hdays hmonth⟩
    · obtain ⟨-, hhigh, hlast⟩ := monthHas_iff.1 hdays
      obtain rfl : month = 12 := le_antisymm hhigh (not_lt.1 hmonth)
      obtain rfl : 31 = day := hlast
      exact ⟨_, .nextYear⟩

theorem exists_dayBefore (h : e.IsReal) : ∃ d, DayAfter d e := by
  obtain ⟨year, month, day⟩ := e
  obtain ⟨hday, days, hdays, hle⟩ := h
  obtain ⟨hlow, hhigh, -⟩ := monthHas_iff.1 hdays
  match day, hday with
  | day + 2, _ => exact ⟨_, .inMonth hdays (Nat.le_add_left _ _) hle⟩
  | 1, _ =>
    match month, hlow with
    | month + 2, _ =>
      exact ⟨_, .nextMonth (monthHas_iff.2 ⟨Nat.le_add_left _ _, Nat.le_of_succ_le hhigh, rfl⟩)
        hhigh⟩
    | 1, _ => exact ⟨_, by simpa using @DayAfter.nextYear (year - 1)⟩

theorem isReal_epoch : IsReal ⟨1970, 1, 1⟩ := ⟨le_rfl, 31, .thirtyOne (by simp), by simp⟩

theorem daysFromEpoch_dayNumber (h : d.IsReal) : DaysFromEpoch d.dayNumber d := by
  -- by induction on the distance from the epoch, from the neighbour that is closer to it
  induction hk : d.dayNumber.natAbs generalizing d with
  | zero =>
    have hzero : d.dayNumber = dayNumber ⟨1970, 1, 1⟩ := Int.natAbs_eq_zero.1 hk
    rw [hzero, eq_of_dayNumber_eq h isReal_epoch hzero]
    exact .epoch
  | succ k ih =>
    rcases lt_or_ge d.dayNumber 0 with hneg | hpos
    · obtain ⟨e, hnext⟩ := exists_dayAfter h
      have hcount := DaysFromEpoch.before (ih hnext.isReal.2 (by rw [hnext.dayNumber_eq]; omega)) hnext
      rwa [hnext.dayNumber_eq, Int.add_sub_cancel] at hcount
    · obtain ⟨e, hnext⟩ := exists_dayBefore h
      have hnumber := hnext.dayNumber_eq
      have hcount := DaysFromEpoch.after (ih hnext.isReal.1 (by omega)) hnext
      rwa [← hnumber] at hcount

/-- **The day number counts the days from 1970-01-01.** -/
theorem daysFromEpoch_iff {n : Int} : DaysFromEpoch n d ↔ d.IsReal ∧ n = d.dayNumber := by
  constructor
  · intro h
    induction h with
    | epoch => exact ⟨isReal_epoch, rfl⟩
    | after _ hnext ih => exact ⟨hnext.isReal.2, by rw [hnext.dayNumber_eq, ih.2]⟩
    | before _ hnext ih => exact ⟨hnext.isReal.1, by rw [ih.2, hnext.dayNumber_eq]; omega⟩
  · rintro ⟨hreal, rfl⟩
    exact daysFromEpoch_dayNumber hreal

example : DaysFromEpoch (-1) ⟨1969, 12, 31⟩ := .before .epoch .nextYear

end Date

end ReleaseDraft

/-
Tessivum.Library.Calendar — days of the calendar and instants that recur.

The module names nothing of the repository.
-/
import Mathlib

namespace Tessivum.Library

/-! # The proleptic Gregorian calendar, by counting

A year has twelve months of the known lengths, and a date is as many days after
the first of January of year one as the years, months and days before it have
(`dayNumber`). The years before it have the days of the leap-year rule
(`daysThroughYear_eq`), and later dates have larger numbers (`dayNumber_lt`), so
a number belongs to one date. -/

namespace Gregorian

/-! ## Months and years -/

/-- Every fourth year, but of the centuries every fourth only. -/
def isLeap (year : Nat) : Prop := year % 4 = 0 ∧ (year % 100 ≠ 0 ∨ year % 400 = 0)

instance (year : Nat) : Decidable (isLeap year) := instDecidableAnd

/-- The days of a month. -/
def monthLength (year : Nat) : Nat → Nat
  | 2 => if isLeap year then 29 else 28
  | 4 => 30
  | 6 => 30
  | 9 => 30
  | 11 => 30
  | _ => 31

/-- A day there is, from year one on. -/
structure RealDate (year month day : Nat) : Prop where
  year_pos : 1 ≤ year
  month_pos : 1 ≤ month
  month_le : month ≤ 12
  day_pos : 1 ≤ day
  day_le : day ≤ monthLength year month

/-- The days of the first months of a year. -/
def daysThroughMonth (year : Nat) : Nat → Nat
  | 0 => 0
  | month + 1 => daysThroughMonth year month + monthLength year (month + 1)

/-- The days of the first years. -/
def daysThroughYear : Nat → Nat
  | 0 => 0
  | year + 1 => daysThroughYear year + daysThroughMonth (year + 1) 12

/-- The days from the first of January of year one up to a date. -/
def dayNumber (year month day : Nat) : Nat :=
  daysThroughYear (year - 1) + daysThroughMonth year (month - 1) + (day - 1)

theorem daysThroughMonth_twelve (year : Nat) :
    daysThroughMonth year 12 = if isLeap year then 366 else 365 := by
  by_cases h : isLeap year <;> simp [daysThroughMonth, monthLength, h]

/-- The leap-year rule over the first years. -/
theorem daysThroughYear_eq (year : Nat) :
    daysThroughYear year = 365 * year + year / 4 - year / 100 + year / 400 := by
  induction year with
  | zero => rfl
  | succ year ih =>
    rw [daysThroughYear, ih, daysThroughMonth_twelve]
    by_cases h : isLeap (year + 1)
    · rw [if_pos h]
      unfold isLeap at h
      omega
    · rw [if_neg h]
      unfold isLeap at h
      omega

/-! ## Order -/

theorem daysThroughMonth_mono (year : Nat) : Monotone (daysThroughMonth year) :=
  monotone_nat_of_le_succ fun _ => Nat.le_add_right _ _

theorem daysThroughYear_mono : Monotone daysThroughYear :=
  monotone_nat_of_le_succ fun _ => Nat.le_add_right _ _

variable {day month year day' month' year' : Nat}

theorem RealDate.lt_month (h : RealDate year month day) :
    daysThroughMonth year (month - 1) + (day - 1) < daysThroughMonth year month := by
  obtain ⟨m, rfl⟩ : ∃ m, month = m + 1 := ⟨month - 1, (Nat.sub_add_cancel h.month_pos).symm⟩
  have hday := h.day_le
  have hpos := h.day_pos
  rw [daysThroughMonth, Nat.add_sub_cancel]
  omega

theorem RealDate.lt_year (h : RealDate year month day) :
    dayNumber year month day < daysThroughYear year := by
  obtain ⟨y, rfl⟩ : ∃ y, year = y + 1 := ⟨year - 1, (Nat.sub_add_cancel h.year_pos).symm⟩
  have hmonth := h.lt_month
  have hyear := daysThroughMonth_mono (y + 1) h.month_le
  rw [dayNumber, daysThroughYear, Nat.add_sub_cancel]
  omega

/-- The order of dates: by year, then month, then day. -/
def Earlier (year month day year' month' day' : Nat) : Prop :=
  year < year' ∨ year = year' ∧ (month < month' ∨ month = month' ∧ day < day')

theorem dayNumber_lt (h : RealDate year month day) (h' : RealDate year' month' day')
    (hlt : Earlier year month day year' month' day') :
    dayNumber year month day < dayNumber year' month' day' := by
  rcases hlt with hyear | ⟨rfl, hmonth | ⟨rfl, hday⟩⟩
  · have hmono := daysThroughYear_mono (show year ≤ year' - 1 by omega)
    exact lt_of_lt_of_le h.lt_year (by rw [dayNumber]; omega)
  · have hmono := daysThroughMonth_mono year (show month ≤ month' - 1 by omega)
    have hin := h.lt_month
    rw [dayNumber, dayNumber]
    omega
  · have hpos := h.day_pos
    rw [dayNumber, dayNumber]
    omega

theorem earlier_trichotomy (year month day year' month' day' : Nat) :
    Earlier year month day year' month' day' ∨
      (year = year' ∧ month = month' ∧ day = day') ∨
      Earlier year' month' day' year month day := by
  unfold Earlier
  omega

theorem earlier_of_dayNumber_lt (h : RealDate year month day) (h' : RealDate year' month' day')
    (hlt : dayNumber year month day < dayNumber year' month' day') :
    Earlier year month day year' month' day' := by
  rcases earlier_trichotomy year month day year' month' day' with hlt' | ⟨rfl, rfl, rfl⟩ | hgt
  · exact hlt'
  · exact absurd hlt (lt_irrefl _)
  · exact absurd (dayNumber_lt h' h hgt) (Nat.lt_asymm hlt)

theorem dayNumber_injective (h : RealDate year month day) (h' : RealDate year' month' day')
    (heq : dayNumber year month day = dayNumber year' month' day') :
    year = year' ∧ month = month' ∧ day = day' := by
  rcases earlier_trichotomy year month day year' month' day' with hlt | hsame | hgt
  · exact absurd heq (dayNumber_lt h h' hlt).ne
  · exact hsame
  · exact absurd heq (dayNumber_lt h' h hgt).ne'

end Gregorian

/-! # The times of something that recurs

A progression is its start and what lies a whole number of intervals after it.
Division finds the last of its times up to a given one
(`progression_isGreatest`) and the first after it (`progression_isLeast`); a
progression that starts at one of its times is part of it (`mem_progression_trans`). -/

section

/-- A start, and every time that many intervals later. -/
def progression (start interval : Int) : Set Int :=
  {time | ∃ steps : Nat, time = start + steps * interval}

variable {start interval : Int}

theorem start_mem_progression (start interval : Int) : start ∈ progression start interval :=
  ⟨0, by simp⟩

variable {time : Int}

theorem mem_progression_trans {later : Int} (htime : time ∈ progression start interval)
    (hlater : later ∈ progression time interval) : later ∈ progression start interval := by
  obtain ⟨m, rfl⟩ := htime
  obtain ⟨n, rfl⟩ := hlater
  refine ⟨m + n, ?_⟩
  push_cast
  ring

theorem modEq_of_mem_progression {time' : Int} (htime : time ∈ progression start interval)
    (htime' : time' ∈ progression start interval) : Int.ModEq interval time time' := by
  obtain ⟨m, rfl⟩ := htime
  obtain ⟨n, rfl⟩ := htime'
  refine Int.modEq_iff_dvd.mpr ⟨(n : Int) - m, ?_⟩
  ring

/-- Whole steps up to a time. -/
theorem steps_mem_progression (h : 0 < interval) (hstart : start ≤ time) :
    start + (time - start) / interval * interval ∈ progression start interval := by
  have hquotient : 0 ≤ (time - start) / interval := Int.ediv_nonneg (by omega) (by omega)
  exact ⟨((time - start) / interval).toNat, by rw [Int.toNat_of_nonneg hquotient]⟩

/-- A time of the progression is before another exactly when it takes fewer steps. -/
theorem steps_le_div (h : 0 < interval) (steps : Nat) :
    start + steps * interval ≤ time ↔ (steps : Int) ≤ (time - start) / interval := by
  rw [Int.le_ediv_iff_mul_le h]
  constructor <;> intro hle <;> omega

/-- The last time of a progression that is not after a given one. -/
theorem progression_isGreatest (h : 0 < interval) (hstart : start ≤ time) :
    IsGreatest (progression start interval ∩ Set.Iic time)
      (start + (time - start) / interval * interval) := by
  refine ⟨⟨steps_mem_progression h hstart, ?_⟩, ?_⟩
  · have hle := Int.ediv_mul_le (time - start) (show interval ≠ 0 by omega)
    exact Set.mem_Iic.mpr (by omega)
  · rintro _ ⟨⟨steps, rfl⟩, hle⟩
    have hsteps := (steps_le_div h steps).mp (Set.mem_Iic.mp hle)
    have hmul := Int.mul_le_mul_of_nonneg_right hsteps (show 0 ≤ interval by omega)
    omega

/-- The first time of a progression that is after a given one. -/
theorem progression_isLeast (h : 0 < interval) (hstart : start ≤ time) :
    IsLeast (progression start interval ∩ Set.Ioi time)
      (start + ((time - start) / interval + 1) * interval) := by
  have hquotient : 0 ≤ (time - start) / interval := Int.ediv_nonneg (by omega) (by omega)
  refine ⟨⟨⟨((time - start) / interval).toNat + 1, ?_⟩, ?_⟩, ?_⟩
  · push_cast
    rw [Int.toNat_of_nonneg hquotient]
  · have hlt := Int.lt_ediv_add_one_mul_self (time - start) h
    exact Set.mem_Ioi.mpr (by omega)
  · rintro _ ⟨⟨steps, rfl⟩, hlt⟩
    have hsteps : (time - start) / interval + 1 ≤ steps := by
      have hnot := (not_congr (steps_le_div h steps)).mp (not_le.mpr (Set.mem_Ioi.mp hlt))
      omega
    have hmul := Int.mul_le_mul_of_nonneg_right hsteps (show 0 ≤ interval by omega)
    omega

end

end Tessivum.Library

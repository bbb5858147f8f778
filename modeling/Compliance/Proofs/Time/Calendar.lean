import Mathlib.Order.Monotone.Basic
import Mathlib.Order.Interval.Set.OrdConnectedLinear
import Mathlib.Tactic.IntervalCases
import Mathlib.Tactic.Linarith
import Compliance.Time.Calendar

/-!
# Days and dates

An era of 400 years has 146097 days.  Without its leap days every year of it has
365, and what this count says about the year of a day is right at the two ends
of every year.  So a number of days gives a valid date, and the date gives the
days back.
-/

namespace Compliance.Time

/-- The days of an era before a year of it. -/
def daysBeforeYear (year : Int) : Int :=
  365 * year + year / 4 - year / 100 + year / 400

/-- The days of an era so far, leap days left out. -/
def plainDays (day : Int) : Int :=
  day - day / 1460 + day / 36524 - day / 146096

theorem plainDays_mono : Monotone plainDays := by
  apply monotone_int_of_le_succ
  intro n
  simp only [plainDays]
  omega

/-- The first day of a year is counted into that year, the last one is not
counted beyond it. -/
theorem plainDays_ends {k : Nat} (hk : k < 400) :
    365 * (k : Int) ≤ plainDays (daysBeforeYear k) ∧
      plainDays (daysBeforeYear (k + 1) - 1) < 365 * ((k : Int) + 1) := by
  have hall : ∀ y : Fin 400, 365 * (y.1 : Int) ≤ plainDays (daysBeforeYear y.1) ∧
      plainDays (daysBeforeYear (y.1 + 1) - 1) < 365 * ((y.1 : Int) + 1) := by
    decide +kernel
  exact hall ⟨k, hk⟩

theorem yearOfEra_bounds {day : Int} (h0 : 0 ≤ day) (h1 : day < 146097) :
    let y := plainDays day / 365
    0 ≤ y ∧ y ≤ 399 ∧ daysBeforeYear y ≤ day ∧ day < daysBeforeYear (y + 1) := by
  intro y
  have hnonneg : 0 ≤ plainDays day := plainDays_mono h0
  have hlast : plainDays day < 365 * 400 := by
    have hle : plainDays day ≤ plainDays 146096 := plainDays_mono (by omega)
    have hend := (plainDays_ends (k := 399) (by omega)).2
    exact lt_of_le_of_lt hle hend
  have hy0 : 0 ≤ y := by omega
  have hy1 : y ≤ 399 := by omega
  obtain ⟨k, hk⟩ := Int.eq_ofNat_of_zero_le hy0
  refine ⟨hy0, hy1, ?_, ?_⟩
  · by_contra hbefore
    rcases Nat.eq_zero_or_pos k with rfl | hpos
    · rw [hk] at hbefore
      exact hbefore h0
    · obtain ⟨j, rfl⟩ : ∃ j, k = j + 1 := ⟨k - 1, by omega⟩
      have hend := (plainDays_ends (k := j) (by omega)).2
      have hle : plainDays day ≤ plainDays (daysBeforeYear (j + 1) - 1) := by
        apply plainDays_mono
        rw [hk] at hbefore
        push_cast at hbefore
        omega
      omega
  · by_contra hbehind
    rcases Nat.lt_or_ge k 399 with hless | hmore
    · have hend := (plainDays_ends (k := k + 1) (by omega)).1
      have hle : plainDays (daysBeforeYear ((k + 1 : Nat) : Int)) ≤ plainDays day := by
        apply plainDays_mono
        rw [hk] at hbehind
        push_cast
        omega
      push_cast at hend hle
      omega
    · have hlastYear : y = 399 := by omega
      rw [hlastYear] at hbehind
      exact hbehind h1

/-- How long the year in front of a year is, counted from March. -/
theorem daysBeforeYear_succ (year : Int) :
    daysBeforeYear (year + 1) =
      daysBeforeYear year + if isLeap (year + 1) = true then 366 else 365 := by
  have hleap : isLeap (year + 1) = true ↔
      (year + 1) % 4 = 0 ∧ ((year + 1) % 100 ≠ 0 ∨ (year + 1) % 400 = 0) := by
    simp [isLeap]
  simp only [daysBeforeYear]
  split
  · rename_i h
    rw [hleap] at h
    omega
  · rename_i h
    rw [hleap] at h
    omega

theorem isLeap_add_era (year era : Int) : isLeap (year + era * 400) = isLeap year := by
  have h4 : (year + era * 400) % 4 = year % 4 := by omega
  have h100 : (year + era * 400) % 100 = year % 100 := by omega
  have h400 : (year + era * 400) % 400 = year % 400 := by omega
  simp [isLeap, h4, h100, h400]

/-- A day in its era, year and month, all counted from March. -/
structure MarchDay where
  era : Int
  yearOfEra : Int
  dayOfYear : Int
  month : Int

def MarchDay.ofDays (days : Int) : MarchDay :=
  let day := (days + 719468) % 146097
  let year := plainDays day / 365
  let dayOfYear := day - (365 * year + year / 4 - year / 100)
  ⟨(days + 719468) / 146097, year, dayOfYear, (5 * dayOfYear + 2) / 153⟩

/-- What is known of the parts of a day. -/
structure MarchDay.Sound (m : MarchDay) : Prop where
  year_nonneg : 0 ≤ m.yearOfEra
  year_le : m.yearOfEra ≤ 399
  day_nonneg : 0 ≤ m.dayOfYear
  day_lt : m.dayOfYear < if isLeap (m.yearOfEra + 1) = true then 366 else 365
  month_eq : m.month = (5 * m.dayOfYear + 2) / 153

theorem MarchDay.sound_ofDays (days : Int) : (ofDays days).Sound := by
  have hday : 0 ≤ (days + 719468) % 146097 ∧ (days + 719468) % 146097 < 146097 := by omega
  generalize hg : (days + 719468) % 146097 = day at hday
  obtain ⟨hy0, hy1, hlow, hhigh⟩ := yearOfEra_bounds hday.1 hday.2
  generalize hyear : plainDays day / 365 = year at hy0 hy1 hlow hhigh
  have hera : year / 400 = 0 := by omega
  have hof : ofDays days = ⟨(days + 719468) / 146097, year,
      day - (365 * year + year / 4 - year / 100),
      (5 * (day - (365 * year + year / 4 - year / 100)) + 2) / 153⟩ := by
    simp only [ofDays, hg, hyear]
  rw [daysBeforeYear_succ] at hhigh
  simp only [daysBeforeYear, hera] at hlow hhigh
  rw [hof]
  refine ⟨hy0, hy1, ?_, ?_, rfl⟩
  · simp only
    omega
  · simp only
    split
    · rename_i hleap
      rw [if_pos hleap] at hhigh
      omega
    · rename_i hleap
      rw [if_neg hleap] at hhigh
      omega

/-- The date of a day, its year counted from January. -/
def MarchDay.date (m : MarchDay) : Date :=
  let month := if m.month < 10 then m.month + 3 else m.month - 9
  let year := m.yearOfEra + m.era * 400
  ⟨if month ≤ 2 then year + 1 else year, month, m.dayOfYear - daysBefore m.month + 1⟩

theorem Date.ofDays_eq (days : Int) : Date.ofDays days = (MarchDay.ofDays days).date := rfl

namespace MarchDay.Sound

variable {m : MarchDay} (h : m.Sound)

include h

theorem dayOfYear_le : m.dayOfYear ≤ 365 := by
  have hlt := h.day_lt
  split at hlt <;> omega

theorem month_bounds : 0 ≤ m.month ∧ m.month ≤ 11 := by
  have hle := h.dayOfYear_le
  have hnonneg := h.day_nonneg
  have hmonth := h.month_eq
  omega

theorem date_bounds : 1 ≤ m.date.month ∧ m.date.month ≤ 12 ∧ 1 ≤ m.date.day ∧
    m.date.day ≤ 31 := by
  have hmonth := h.month_bounds
  have heq := h.month_eq
  simp only [date, daysBefore]
  refine ⟨?_, ?_, by omega, by omega⟩
  · split <;> omega
  · split <;> omega

/-- Each month is as long as the calendar says. -/
theorem date_isValid : m.date.isValid = true := by
  obtain ⟨hmonth1, hmonth12, hday1, -⟩ := h.date_bounds
  have hday : m.date.day ≤ daysInMonth m.date.year m.date.month := by
    have hbounds := h.month_bounds
    have heq := h.month_eq
    have hlt := h.day_lt
    obtain ⟨era, year, dayOfYear, month⟩ := m
    simp only at hbounds heq hlt
    obtain ⟨h0, h11⟩ := hbounds
    interval_cases month
    case «11» =>
      have hleap : isLeap (year + era * 400 + 1) = isLeap (year + 1) := by
        rw [add_right_comm, isLeap_add_era]
      have hfebruary : daysInMonth (year + era * 400 + 1) 2 =
          if isLeap (year + 1) = true then 29 else 28 := by
        rw [← hleap]
        rfl
      have hdate : (⟨era, year, dayOfYear, 11⟩ : MarchDay).date =
          ⟨year + era * 400 + 1, 2, dayOfYear - 337 + 1⟩ := rfl
      rw [hdate]
      simp only [hfebruary]
      split at hlt
      · rename_i hl
        rw [if_pos hl]
        omega
      · rename_i hl
        rw [if_neg hl]
        omega
    all_goals simp [date, daysBefore, daysInMonth]
    all_goals omega
  simp [Date.isValid, hmonth1, hmonth12, hday1, hday]

theorem toDays_date : m.date.toDays = m.era * 146097 +
    (365 * m.yearOfEra + m.yearOfEra / 4 - m.yearOfEra / 100 + m.dayOfYear) - 719468 := by
  have hmonth := h.month_bounds
  have hy0 := h.year_nonneg
  have hy1 := h.year_le
  obtain ⟨era, year, dayOfYear, month⟩ := m
  simp only at hmonth hy0 hy1 ⊢
  by_cases hspring : month < 10
  · have hlate : ¬ month + 3 ≤ 2 := by omega
    simp only [Date.toDays, date, daysBefore, if_pos hspring, if_neg hlate]
    have hmarch : (month + 3 + 9) % 12 = month := by omega
    rw [hmarch]
    omega
  · have hearly : month - 9 ≤ 2 := by omega
    simp only [Date.toDays, date, daysBefore, if_neg hspring, if_pos hearly]
    have hmarch : (month - 9 + 9) % 12 = month := by omega
    rw [hmarch]
    omega

end MarchDay.Sound

theorem Date.toDays_ofDays (days : Int) : (Date.ofDays days).toDays = days := by
  rw [ofDays_eq, (MarchDay.sound_ofDays days).toDays_date]
  simp only [MarchDay.ofDays]
  omega

theorem Date.isValid_ofDays (days : Int) : (Date.ofDays days).isValid = true :=
  (MarchDay.sound_ofDays days).date_isValid

theorem Date.bounds_ofDays (days : Int) :
    1 ≤ (Date.ofDays days).month ∧ (Date.ofDays days).month ≤ 12 ∧
      1 ≤ (Date.ofDays days).day ∧ (Date.ofDays days).day ≤ 31 :=
  (MarchDay.sound_ofDays days).date_bounds

/-- The day 262142-12-31. -/
def lastDay : Int := 95026236

theorem Date.year_ofDays {days : Int} (h0 : 0 ≤ days) (h1 : days ≤ lastDay) :
    0 ≤ (Date.ofDays days).year ∧ (Date.ofDays days).year ≤ 262142 := by
  have hs := MarchDay.sound_ofDays days
  have hy0 := hs.year_nonneg
  have hy1 := hs.year_le
  have hmonth := hs.month_eq
  have hday := hs.day_nonneg
  have hera : 4 ≤ (MarchDay.ofDays days).era ∧ (MarchDay.ofDays days).era ≤ 655 := by
    simp only [MarchDay.ofDays, lastDay] at h1 ⊢
    omega
  have hsum : (MarchDay.ofDays days).era * 146097 +
      (365 * (MarchDay.ofDays days).yearOfEra + (MarchDay.ofDays days).yearOfEra / 4 -
        (MarchDay.ofDays days).yearOfEra / 100 + (MarchDay.ofDays days).dayOfYear) =
      days + 719468 := by
    simp only [MarchDay.ofDays]
    omega
  rw [ofDays_eq]
  generalize MarchDay.ofDays days = m at hy0 hy1 hmonth hday hera hsum
  simp only [MarchDay.date, lastDay] at h1 ⊢
  refine ⟨?_, ?_⟩
  · split <;> omega
  · split <;> omega

end Compliance.Time

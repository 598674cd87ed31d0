import Mathlib.Tactic.IntervalCases
import AlpacaTrading.Market.Option

/-!
# The calendar

The day numbers of `daysFromCivil` and the dates of `civilFromDays` correspond: a day number always
gives a real date, and a real date comes back from its day number.  So a triple of numbers is a
real date exactly when it survives the way to a day number and back.

The algorithm counts the years from March, so that a leap day ends a year.  All but the last step
are about a day in an era of 400 such years.
-/

namespace AlpacaTrading

/-! ## Dates -/

/-- A leap year has 366 days. -/
def IsLeapYear (year : Int) : Prop := year % 4 = 0 ∧ (year % 100 ≠ 0 ∨ year % 400 = 0)

instance (year : Int) : Decidable (IsLeapYear year) := inferInstanceAs (Decidable (_ ∧ _))

/-- The number of days of a month. -/
def daysInMonth (year month : Int) : Int :=
  if month = 2 then if IsLeapYear year then 29 else 28
  else if month = 4 ∨ month = 6 ∨ month = 9 ∨ month = 11 then 30
  else 31

/-- The numbers are a date of the calendar. -/
structure RealDate (year month day : Int) : Prop where
  month_pos : 1 ≤ month
  month_le : month ≤ 12
  day_pos : 1 ≤ day
  day_le : day ≤ daysInMonth year month

/-! ## Eras -/

/-- A year of an era, which begins in March, and a day of that year. -/
structure YearDay (year day : Int) : Prop where
  year_nonneg : 0 ≤ year
  year_lt : year < 400
  day_nonneg : 0 ≤ day
  day_le : day ≤ 365
  leap : day = 365 → IsLeapYear (year + 1)

/-- The day of the era. -/
def dayOfEra (year day : Int) : Int := 365 * year + year / 4 - year / 100 + day

section Era

variable {year day : Int}

theorem YearDay.dayOfEra_nonneg (h : YearDay year day) : 0 ≤ dayOfEra year day := by
  obtain ⟨hy0, hy1, hd0, hd1, -⟩ := h
  rw [dayOfEra]
  omega

theorem YearDay.dayOfEra_lt (h : YearDay year day) : dayOfEra year day < 146097 := by
  obtain ⟨hy0, hy1, hd0, hd1, -⟩ := h
  rw [dayOfEra]
  omega

/-- Every day of an era lies in a year. -/
theorem exists_yearDay {n : Int} (h0 : 0 ≤ n) (h1 : n < 146097) :
    ∃ year day, YearDay year day ∧ n = dayOfEra year day := by
  -- The centuries, the four-year cycles and the years end with a day more where they are leap.
  obtain ⟨c, hc0, hc3, hs0, hs1⟩ : ∃ c, 0 ≤ c ∧ c ≤ 3 ∧ 0 ≤ n - 36524 * c ∧
      (n - 36524 * c < 36524 ∨ c = 3 ∧ n - 36524 * c ≤ 36524) := by
    by_cases h : n / 36524 ≤ 3
    · exact ⟨n / 36524, by omega, h, by omega, by omega⟩
    · exact ⟨3, by omega, by omega, by omega, by omega⟩
  generalize hs : n - 36524 * c = s at hs0 hs1
  obtain ⟨q, hq0, hq1, hu0, hu1⟩ : ∃ q, 0 ≤ q ∧ q ≤ 24 ∧ 0 ≤ s - 1461 * q ∧ s - 1461 * q < 1461 :=
    ⟨s / 1461, by omega, by omega, by omega, by omega⟩
  generalize hu : s - 1461 * q = u at hu0 hu1
  obtain ⟨r, hr0, hr3, ht0, ht1⟩ : ∃ r, 0 ≤ r ∧ r ≤ 3 ∧ 0 ≤ u - 365 * r ∧
      (u - 365 * r < 365 ∨ r = 3 ∧ u - 365 * r ≤ 365) := by
    by_cases h : u / 365 ≤ 3
    · exact ⟨u / 365, by omega, h, by omega, by omega⟩
    · exact ⟨3, by omega, by omega, by omega, by omega⟩
  generalize ht : u - 365 * r = t at ht0 ht1
  refine ⟨100 * c + 4 * q + r, t, ⟨by omega, by omega, by omega, by omega, fun h ↦ ?_⟩, ?_⟩
  · constructor
    · omega
    · omega
  · rw [dayOfEra]
    omega

/-- The year of a day of an era. -/
theorem yearOfEra_eq (h : YearDay year day) :
    (dayOfEra year day - dayOfEra year day / 1460 + dayOfEra year day / 36524 -
      dayOfEra year day / 146096) / 365 = year := by
  obtain ⟨hy0, hy1, hd0, hd1, hleap⟩ := h
  obtain ⟨c, hc⟩ : ∃ c, c = year / 100 := ⟨_, rfl⟩
  obtain ⟨q, hq⟩ : ∃ q, q = year % 100 / 4 := ⟨_, rfl⟩
  obtain ⟨r, hr⟩ : ∃ r, r = year % 4 := ⟨_, rfl⟩
  have hyear : year = 100 * c + 4 * q + r := by omega
  have hn : dayOfEra year day = 36524 * c + 1461 * q + 365 * r + day := by
    rw [dayOfEra]
    omega
  have hlast : day = 365 → r = 3 ∧ (q ≠ 24 ∨ c = 3) := by
    intro h
    obtain ⟨h4, h100⟩ := hleap h
    omega
  have hc0 : 0 ≤ c := by omega
  have hc3 : c ≤ 3 := by omega
  have hq0 : 0 ≤ q := by omega
  have hq1 : q ≤ 24 := by omega
  have hr0 : 0 ≤ r := by omega
  have hr1 : r ≤ 3 := by omega
  rw [hn, hyear]
  clear hn hyear hc hq hr hleap hy0 hy1
  generalize hn : 36524 * c + 1461 * q + 365 * r + day = n
  have h1460 : n / 1460 = 25 * c + q + (24 * c + q + 365 * r + day) / 1460 := by omega
  have h36524 : n / 36524 = c + (1461 * q + 365 * r + day) / 36524 := by omega
  have h146096 : n / 146096 = (1461 * q + 365 * r + day) / 36524 := by omega
  rw [h1460, h36524, h146096]
  omega

/-- The date of a day of an era: only the month remains to be found. -/
theorem civilFromDays_dayOfEra (h : YearDay year day) (era : Int) :
    civilFromDays (era * 146097 + dayOfEra year day - 719468) =
      (year + era * 400 + (if (if (5 * day + 2) / 153 < 10 then (5 * day + 2) / 153 + 3
        else (5 * day + 2) / 153 - 9) ≤ 2 then 1 else 0),
        if (5 * day + 2) / 153 < 10 then (5 * day + 2) / 153 + 3 else (5 * day + 2) / 153 - 9,
        day - (153 * ((5 * day + 2) / 153) + 2) / 5 + 1) := by
  have h0 := h.dayOfEra_nonneg
  have h1 := h.dayOfEra_lt
  have hyear := yearOfEra_eq h
  have hera : (era * 146097 + dayOfEra year day - 719468 + 719468) / 146097 = era := by omega
  have hdoe : era * 146097 + dayOfEra year day - 719468 + 719468 - era * 146097 =
      dayOfEra year day := by omega
  have hday : dayOfEra year day - (365 * year + year / 4 - year / 100) = day := by
    rw [dayOfEra]
    omega
  simp only [civilFromDays, hera, hdoe, hyear, hday]

end Era

/-! ## Days and dates -/

/-- A day number gives a real date. -/
theorem civilFromDays_real (days : Int) :
    RealDate (civilFromDays days).1 (civilFromDays days).2.1 (civilFromDays days).2.2 := by
  obtain ⟨year, day, h, hn⟩ :=
    exists_yearDay (n := days + 719468 - (days + 719468) / 146097 * 146097) (by omega) (by omega)
  have hdays : days = (days + 719468) / 146097 * 146097 + dayOfEra year day - 719468 := by omega
  rw [hdays, civilFromDays_dayOfEra h]
  generalize (days + 719468) / 146097 = era
  obtain ⟨-, -, hd0, hd1, hleap⟩ := h
  obtain ⟨shifted, hshifted⟩ : ∃ shifted, shifted = (5 * day + 2) / 153 := ⟨_, rfl⟩
  have hs0 : 0 ≤ shifted := by omega
  have hs1 : shifted ≤ 11 := by omega
  rw [← hshifted]
  constructor
  · dsimp only
    split <;> omega
  · dsimp only
    split <;> omega
  · dsimp only
    omega
  · dsimp only
    rw [daysInMonth]
    interval_cases shifted
    all_goals norm_num [IsLeapYear]
    all_goals first
      | omega
      | skip
    split
    · omega
    · next hnot =>
      have : day ≠ 365 := fun h365 ↦ hnot (by
        obtain ⟨h4, h100⟩ := hleap h365
        omega)
      omega

/-- The place of a real date in its year: the months begin where the formula has them. -/
theorem RealDate.shifted {year month day : Int} (h : RealDate year month day) :
    let shifted := if 2 < month then month - 3 else month + 9
    let t := (153 * shifted + 2) / 5 + day - 1
    (5 * t + 2) / 153 = shifted ∧ 0 ≤ t ∧ t ≤ 365 ∧ (t = 365 → IsLeapYear year ∧ month = 2) := by
  obtain ⟨hm0, hm1, hd0, hd1⟩ := h
  rw [daysInMonth] at hd1
  interval_cases month
  all_goals norm_num at hd1 ⊢
  all_goals first
    | omega
    | skip
  split at hd1
  · next hleap => exact ⟨by omega, by omega, by omega, fun _ ↦ hleap⟩
  · exact ⟨by omega, by omega, by omega, fun h365 ↦ by omega⟩

/-- A real date comes back from its day number. -/
theorem civilFromDays_daysFromCivil {year month day : Int} (h : RealDate year month day) :
    civilFromDays (daysFromCivil year month day) = (year, month, day) := by
  obtain ⟨hshifted, ht0, ht1, hlast⟩ := h.shifted
  have hm0 := h.month_pos
  have hm1 := h.month_le
  obtain ⟨y, hy⟩ : ∃ y, y = if month ≤ 2 then year - 1 else year := ⟨_, rfl⟩
  generalize hs : (if 2 < month then month - 3 else month + 9) = shifted at *
  generalize ht : (153 * shifted + 2) / 5 + day - 1 = t at *
  have hdays : daysFromCivil year month day =
      y / 400 * 146097 + dayOfEra (y - y / 400 * 400) t - 719468 := by
    simp only [daysFromCivil, dayOfEra, ← hy, hs, ht]
    ring
  have hyearDay : YearDay (y - y / 400 * 400) t := by
    refine ⟨by omega, by omega, ht0, ht1, fun h365 ↦ ?_⟩
    obtain ⟨⟨h4, h100⟩, hfebruary⟩ := hlast h365
    rw [if_pos (by omega)] at hy
    constructor
    · omega
    · omega
  rw [hdays, civilFromDays_dayOfEra hyearDay, hshifted]
  have hmonth : (if shifted < 10 then shifted + 3 else shifted - 9) = month := by
    split at hs <;> split <;> omega
  rw [hmonth, Prod.mk.injEq, Prod.mk.injEq]
  refine ⟨?_, rfl, by omega⟩
  split at hy
  · next hle => rw [if_pos hle]; omega
  · next hle => rw [if_neg hle]; omega

/-- **The numbers that survive the way to a day number and back are the real dates.** -/
theorem civil_roundtrip_iff {year month day : Int} :
    civilFromDays (daysFromCivil year month day) = (year, month, day) ↔ RealDate year month day := by
  constructor
  · intro h
    have hreal := civilFromDays_real (daysFromCivil year month day)
    rwa [h] at hreal
  · exact civilFromDays_daysFromCivil

end AlpacaTrading

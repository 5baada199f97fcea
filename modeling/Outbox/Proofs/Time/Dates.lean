import Mathlib.Tactic.IntervalCases
import Outbox.Time.Calendar

/-! Days and dates. A day of an era is found again by its century, its four years, its year and its day of the year, of
which only the last of each may be longer than the others; so each number of days is a date, and that date's number. -/

namespace Outbox.Calendar

/-- A day of an era: after so many centuries, so many four years of the century and so many years of these, the day of
a year that starts in March. -/
structure Place where
  century : Int
  fours : Int
  year : Int
  day : Int
  century_range : 0 ≤ century ∧ century ≤ 3
  fours_range : 0 ≤ fours ∧ fours ≤ 24
  year_range : 0 ≤ year ∧ year ≤ 3
  day_range : 0 ≤ day ∧ day ≤ 365
  leap : day = 365 → year = 3 ∧ (fours ≤ 23 ∨ century = 3)

namespace Place

variable (p : Place)

def dayOfEra : Int := 36524 * p.century + 1461 * p.fours + 365 * p.year + p.day

def yearOfEra : Int := 100 * p.century + 4 * p.fours + p.year

theorem exists_dayOfEra {d : Int} (hfirst : 0 ≤ d) (hlast : d < 146097) : ∃ p : Place, p.dayOfEra = d := by
  obtain ⟨c, hc, hcentury⟩ : ∃ c : Int, (0 ≤ c ∧ c ≤ 3) ∧ 0 ≤ d - 36524 * c ∧
      (d - 36524 * c < 36524 ∨ c = 3 ∧ d - 36524 * c = 36524) :=
    ⟨if d = 146096 then 3 else d / 36524, by split <;> omega⟩
  obtain ⟨q, hq⟩ : ∃ q : Int, q = (d - 36524 * c) / 1461 := ⟨_, rfl⟩
  obtain ⟨y, hy, hyear⟩ : ∃ y : Int, (0 ≤ y ∧ y ≤ 3) ∧ 0 ≤ d - 36524 * c - 1461 * q - 365 * y ∧
      (d - 36524 * c - 1461 * q - 365 * y < 365 ∨ y = 3 ∧ d - 36524 * c - 1461 * q - 365 * y = 365) :=
    ⟨if d - 36524 * c - 1461 * q = 1460 then 3 else (d - 36524 * c - 1461 * q) / 365, by split <;> omega⟩
  refine ⟨⟨c, q, y, d - 36524 * c - 1461 * q - 365 * y, hc, by omega, hy, by omega, by omega⟩, ?_⟩
  change 36524 * c + 1461 * q + 365 * y + (d - 36524 * c - 1461 * q - 365 * y) = d
  omega

theorem centuries_eq : p.dayOfEra / 36524 - p.dayOfEra / 146096 = p.century := by
  obtain ⟨c, q, y, b, hc, hq, hy, hb, hleap⟩ := p
  change (36524 * c + 1461 * q + 365 * y + b) / 36524 - (36524 * c + 1461 * q + 365 * y + b) / 146096 = c
  by_cases hlast : b = 365 ∧ q = 24
  · obtain ⟨rfl, rfl⟩ := hlast
    obtain ⟨rfl, hfinal | rfl⟩ := hleap rfl <;> omega
  · have hdiv : (36524 * c + 1461 * q + 365 * y + b) / 36524 = c := by omega
    omega

/-- The year is found by leaving out the days that are not in each year. -/
theorem yearOfEra_eq :
    (p.dayOfEra - p.dayOfEra / 1460 + p.dayOfEra / 36524 - p.dayOfEra / 146096) / 365 = p.yearOfEra := by
  have hcenturies := p.centuries_eq
  have hday : p.dayOfEra = 36524 * p.century + 1461 * p.fours + 365 * p.year + p.day := rfl
  have hyear : p.yearOfEra = 100 * p.century + 4 * p.fours + p.year := rfl
  have hcentury := p.century_range
  have hfoursRange := p.fours_range
  have hyearRange := p.year_range
  have hdayRange := p.day_range
  have hleap := p.leap
  -- the days over `1460` for each four years fill four more years only once the leap day is among them
  have hfours : p.dayOfEra / 1460 =
      25 * p.century + p.fours + (24 * p.century + p.fours + 365 * p.year + p.day) / 1460 := by omega
  have hpast : (24 * p.century + p.fours + 365 * p.year + p.day) / 1460 =
      if 24 * p.century + p.fours + 365 * p.year + p.day < 1460 then 0 else 1 := by
    split <;> omega
  rw [hpast] at hfours
  split at hfours <;> omega

theorem dayOfYear_eq : p.dayOfEra - (365 * p.yearOfEra + p.yearOfEra / 4 - p.yearOfEra / 100) = p.day := by
  have hfours := p.fours_range
  have hyear := p.year_range
  rw [dayOfEra, yearOfEra]
  omega

theorem isLeapYear_of_leap (h : p.day = 365) (era : Int) : isLeapYear (p.yearOfEra + era * 400 + 1) := by
  have hfours := p.fours_range
  have hcentury := p.century_range
  obtain ⟨hyear, hlast⟩ := p.leap h
  simp only [isLeapYear, yearOfEra, hyear, Bool.and_eq_true, Bool.or_eq_true, beq_iff_eq, bne_iff_ne]
  omega

theorem yearOfEra_range : 0 ≤ p.yearOfEra ∧ p.yearOfEra < 400 := by
  have hfours := p.fours_range
  have hcentury := p.century_range
  have hyear := p.year_range
  rw [yearOfEra]
  omega

theorem dayOfEra_range : 0 ≤ p.dayOfEra ∧ p.dayOfEra < 146097 := by
  have hfours := p.fours_range
  have hcentury := p.century_range
  have hyear := p.year_range
  have hday := p.day_range
  have hleap := p.leap
  rw [dayOfEra]
  omega

/-- The date of a place in an era. -/
def date (era : Int) : Date :=
  let m := (5 * p.day + 2) / 153
  let month := if m < 10 then m + 3 else m - 9
  ⟨p.yearOfEra + era * 400 + (if month ≤ 2 then 1 else 0), month.toNat, (p.day - (153 * m + 2) / 5 + 1).toNat⟩

theorem dateOf_eq (era : Int) : dateOf (146097 * era + p.dayOfEra - 719468) = p.date era := by
  have hrange : 0 ≤ p.dayOfEra ∧ p.dayOfEra < 146097 := p.dayOfEra_range
  have hera : (146097 * era + p.dayOfEra - 719468 + 719468) / 146097 = era := by omega
  have hday : (146097 * era + p.dayOfEra - 719468 + 719468) % 146097 = p.dayOfEra := by omega
  rw [dateOf, hera, hday, yearOfEra_eq, dayOfYear_eq]
  rfl

theorem isValid_date (era : Int) : (p.date era).isValid := by
  have hday := p.day_range
  have hleap : p.day = 365 → isLeapYear (p.yearOfEra + era * 400 + 1) := fun h => p.isLeapYear_of_leap h era
  obtain ⟨m, hm⟩ : ∃ m, m = (5 * p.day + 2) / 153 := ⟨_, rfl⟩
  have hmonth : 0 ≤ m ∧ m ≤ 11 := by omega
  rw [date, ← hm]
  obtain ⟨hlow, hhigh⟩ := hmonth
  interval_cases m <;> simp [Date.isValid, monthLength] <;> try omega
  -- February
  split
  · omega
  · next hcommon =>
    have := mt hleap hcommon
    omega

theorem dayNumber_date (era : Int) : (p.date era).dayNumber = 146097 * era + p.dayOfEra - 719468 := by
  have hday := p.day_range
  have hyear := p.yearOfEra_range
  obtain ⟨m, hm⟩ : ∃ m, m = (5 * p.day + 2) / 153 := ⟨_, rfl⟩
  have hmonth : 0 ≤ m ∧ m ≤ 11 := by omega
  have hdays := p.dayOfYear_eq
  rw [date, ← hm, Date.dayNumber]
  dsimp only
  by_cases hlate : m < 10
  · rw [if_pos hlate]
    split_ifs <;> omega
  · rw [if_neg hlate]
    split_ifs <;> omega

end Place

theorem lt_hundred_of_isValid {d : Date} (h : d.isValid) : d.month < 100 ∧ d.day < 100 := by
  have hlength : monthLength d.year d.month ≤ 31 := by
    unfold monthLength
    split
    · split <;> decide
    all_goals decide
  simp only [Date.isValid, Bool.and_eq_true, decide_eq_true_eq] at h
  omega

/-- Each number of days is a date, and the number of that date. -/
theorem dateOf_spec (n : Int) : (dateOf n).isValid ∧ (dateOf n).dayNumber = n := by
  obtain ⟨p, hp⟩ := Place.exists_dayOfEra (Int.emod_nonneg (n + 719468) (by decide : (146097 : Int) ≠ 0))
    (Int.emod_lt_of_pos _ (by decide))
  have hn : 146097 * ((n + 719468) / 146097) + p.dayOfEra - 719468 = n := by omega
  rw [← hn, p.dateOf_eq]
  exact ⟨p.isValid_date _, p.dayNumber_date _⟩

end Outbox.Calendar

import HelpDesk.Moment
import Mathlib.Tactic.IntervalCases
import Mathlib.Tactic.SplitIfs

/-! The days of the calendar and their dates are the same thing counted in two ways: every day has a valid date,
and every valid date is the date of its day. The year of a day is found by a division that corrects for the leap
days, so its correctness is stated first, for the centuries, leap cycles and years that a day of an era is made of. -/

namespace HelpDesk.Date

/-- The first day of a year of an era. -/
def firstOf (year : Int) : Int :=
  365 * year + year / 4 - year / 100

/-- The year of an era that has the day. -/
def yearOf (day : Int) : Int :=
  (day - day / 1460 + day / 36524 - day / 146096) / 365

/-- The first day of a month of a year that begins in March. -/
def monthStart (month : Int) : Int :=
  (153 * month + 2) / 5

/-- The date of a day of a year of an era. -/
def dated (era year day : Int) : Date :=
  let month := (5 * day + 2) / 153
  let calendarMonth := if month < 10 then month + 3 else month - 9
  { year := year + era * 400 + (if calendarMonth ≤ 2 then 1 else 0)
    month := calendarMonth.toNat
    day := (day - monthStart month + 1).toNat }

/-- A day of a year of an era. Only a year whose February has a leap day has a 366th. -/
structure OfYear (year day : Int) : Prop where
  years : 0 ≤ year ∧ year < 400
  days : 0 ≤ day ∧ day ≤ 365
  leap : day = 365 → year % 4 = 3 ∧ (year % 100 = 99 → year = 399)

private theorem yearOf_parts {century cycle year day : Int} (centuries : 0 ≤ century ∧ century ≤ 3)
    (cycles : 0 ≤ cycle ∧ cycle ≤ 24) (years : 0 ≤ year ∧ year ≤ 3) (days : 0 ≤ day ∧ day ≤ 365)
    (leap : day = 365 → year = 3 ∧ (cycle = 24 → century = 3)) :
    yearOf (36524 * century + 1461 * cycle + 365 * year + day) = 100 * century + 4 * cycle + year := by
  unfold yearOf
  by_cases last : 36524 * century + 1461 * cycle + 365 * year + day = 146096
  · omega
  · -- Before the last day of an era the corrections count the whole cycles and centuries.
    have passed : (36524 * century + 1461 * cycle + 365 * year + day) / 1460 =
        25 * century + cycle + (24 * century + cycle + 365 * year + day) / 1460 := by omega
    have whole : (36524 * century + 1461 * cycle + 365 * year + day) / 36524 = century := by omega
    have none : (36524 * century + 1461 * cycle + 365 * year + day) / 146096 = 0 := by omega
    rw [passed, whole, none]
    omega

theorem OfYear.yearOf {year day : Int} (is : OfYear year day) : yearOf (firstOf year + day) = year := by
  have years := is.years
  have days := is.days
  have leap := is.leap
  have parts : firstOf year + day =
      36524 * (year / 100) + 1461 * (year % 100 / 4) + 365 * (year % 4) + day := by
    unfold firstOf
    omega
  rw [parts, yearOf_parts (by omega) (by omega) (by omega) days (by omega)]
  omega

theorem OfYear.bounds {year day : Int} (is : OfYear year day) : 0 ≤ firstOf year + day ∧ firstOf year + day < 146097 := by
  have years := is.years
  have days := is.days
  have leap := is.leap
  unfold firstOf
  omega

/-- Every day of an era is a day of one of its years. -/
theorem exists_ofYear {n : Int} (low : 0 ≤ n) (high : n < 146097) : ∃ year day, OfYear year day ∧ n = firstOf year + day := by
  obtain ⟨century, r, split, centuries, rest, last⟩ : ∃ century r : Int, n = 36524 * century + r ∧
      (0 ≤ century ∧ century ≤ 3) ∧ (0 ≤ r ∧ r ≤ 36524) ∧ (r = 36524 → century = 3) :=
    ⟨min (n / 36524) 3, n - 36524 * min (n / 36524) 3, by omega, by omega, by omega, by omega⟩
  obtain ⟨year, day, inCycle, years, days, leap⟩ : ∃ year day : Int, r % 1461 = 365 * year + day ∧
      (0 ≤ year ∧ year ≤ 3) ∧ (0 ≤ day ∧ day ≤ 365) ∧ (day = 365 → year = 3) :=
    ⟨min (r % 1461 / 365) 3, r % 1461 - 365 * min (r % 1461 / 365) 3, by omega, by omega, by omega, by omega⟩
  have fours : (100 * century + 4 * (r / 1461) + year) / 4 = 25 * century + r / 1461 := by omega
  have hundreds : (100 * century + 4 * (r / 1461) + year) / 100 = century := by omega
  refine ⟨100 * century + 4 * (r / 1461) + year, day, ⟨by omega, days, by omega⟩, ?_⟩
  rw [firstOf, fours, hundreds]
  omega

theorem ofDays_eq {era year day : Int} (is : OfYear year day) :
    ofDays (era * 146097 + (firstOf year + day) - 719468) = dated era year day := by
  have bounds := is.bounds
  have eras : (era * 146097 + (firstOf year + day) - 719468 + 719468) / 146097 = era := by omega
  have inEra : (era * 146097 + (firstOf year + day) - 719468 + 719468) % 146097 = firstOf year + day := by omega
  have years := is.yearOf
  have days : firstOf year + day - (365 * year + year / 4 - year / 100) = day := by
    unfold firstOf
    omega
  unfold Date.yearOf at years
  simp only [ofDays, dated, monthStart, eras, inEra, years, days]

theorem exists_parts (days : Int) :
    ∃ era year day, OfYear year day ∧ days = era * 146097 + (firstOf year + day) - 719468 := by
  obtain ⟨year, day, is, split⟩ := exists_ofYear (n := (days + 719468) % 146097) (by omega) (by omega)
  exact ⟨(days + 719468) / 146097, year, day, is, by omega⟩

theorem toDays_dated {era year day : Int} (is : OfYear year day) :
    (dated era year day).toDays = era * 146097 + (firstOf year + day) - 719468 := by
  have years := is.years
  have days := is.days
  have months : 0 ≤ (5 * day + 2) / 153 ∧ (5 * day + 2) / 153 ≤ 11 := by omega
  have monthDay : monthStart ((5 * day + 2) / 153) ≤ day := by
    unfold monthStart
    omega
  generalize split : (5 * day + 2) / 153 = month at months monthDay
  simp only [toDays, dated, split]
  have calendar : (((if month < 10 then month + 3 else month - 9).toNat : Int) + 9) % 12 = month := by
    split_ifs <;> omega
  have counted : (if (if month < 10 then month + 3 else month - 9).toNat ≤ 2 then
      year + era * 400 + (if (if month < 10 then month + 3 else month - 9) ≤ 2 then 1 else 0) - 1
      else year + era * 400 + (if (if month < 10 then month + 3 else month - 9) ≤ 2 then 1 else 0)) =
      year + era * 400 := by
    split_ifs <;> omega
  have eras : (year + era * 400) / 400 = era := by omega
  have inEra : (year + era * 400) % 400 = year := by omega
  have first : (((day - monthStart month + 1).toNat : Nat) : Int) = day - monthStart month + 1 := by omega
  rw [calendar, counted, eras, inEra, first]
  unfold firstOf monthStart
  omega

@[simp] theorem toDays_ofDays (days : Int) : (ofDays days).toDays = days := by
  obtain ⟨era, year, day, is, rfl⟩ := exists_parts days
  rw [ofDays_eq is, toDays_dated is]

/-- The year that begins in a March has a leap day in the February after it. -/
theorem isLeap_next (era : Int) {year : Int} (years : 0 ≤ year ∧ year < 400) :
    isLeap (year + era * 400 + 1) = true ↔ year % 4 = 3 ∧ (year % 100 = 99 → year = 399) := by
  simp only [isLeap, Bool.and_eq_true, Bool.or_eq_true, beq_iff_eq, bne_iff_ne, ne_eq]
  omega

theorem isValid_dated {era year day : Int} (is : OfYear year day) : (dated era year day).isValid = true := by
  have years := is.years
  have days := is.days
  have leap := (isLeap_next era years).mpr
  have last := is.leap
  have months : 0 ≤ (5 * day + 2) / 153 ∧ (5 * day + 2) / 153 ≤ 11 := by omega
  generalize split : (5 * day + 2) / 153 = month at months
  simp only [isValid, dated, daysInMonth, split, monthStart, Bool.and_eq_true, decide_eq_true_eq]
  obtain ⟨low, high⟩ := months
  interval_cases month <;> simp <;> grind

/-- Every valid date is the date of a day. -/
theorem exists_dated {d : Date} (valid : d.isValid = true) : ∃ era year day, OfYear year day ∧ d = dated era year day := by
  obtain ⟨year, month, day⟩ := d
  simp only [isValid, Bool.and_eq_true, decide_eq_true_eq] at valid
  obtain ⟨⟨⟨first, last⟩, low⟩, high⟩ := valid
  -- January and February belong to the year that began in the March before.
  generalize march : (if month ≤ 2 then year - 1 else year) = y
  have leap := isLeap_next (y / 400) (show 0 ≤ y % 400 ∧ y % 400 < 400 by omega)
  refine ⟨y / 400, y % 400, monthStart ((month + 9) % 12) + day - 1, ⟨by omega, ?_, ?_⟩, ?_⟩
  all_goals
    unfold daysInMonth at high
    interval_cases month <;> simp [dated, monthStart] at high march ⊢ <;> grind

theorem ofDays_toDays {d : Date} (valid : d.isValid = true) : ofDays d.toDays = d := by
  obtain ⟨era, year, day, is, rfl⟩ := exists_dated valid
  rw [toDays_dated is, ofDays_eq is]

theorem bounds_of_isValid {d : Date} (valid : d.isValid = true) : d.month ≤ 12 ∧ d.day ≤ 31 := by
  simp only [isValid, Bool.and_eq_true, decide_eq_true_eq] at valid
  have short : daysInMonth d.year d.month ≤ 31 := by
    unfold daysInMonth
    split_ifs <;> omega
  omega

theorem isValid_ofDays (days : Int) : (ofDays days).isValid = true := by
  obtain ⟨era, year, day, is, rfl⟩ := exists_parts days
  rw [ofDays_eq is]
  exact isValid_dated is

end HelpDesk.Date

import GettextTemplate.Calendar
import Mathlib.Tactic.IntervalCases

/-!
Dates of the proleptic Gregorian calendar, counted. The number of a day is told by the rules of the
calendar: which years are leap years and how long the months are. `civil` finds the date by eras of
four hundred years instead, in which each day has its place (`EraDay`). Both agree: the date of a day
has the number of the day, and it is the only date that has it (`dayNumber_civil`,
`civil_dayNumber`).
-/

namespace GettextTemplate.Minute

/-- Every fourth year is a leap year, but of the full centuries only every fourth is one. -/
def isLeap (year : Int) : Bool := year % 4 = 0 && (year % 100 ≠ 0 || year % 400 = 0)

def daysInMonth (year : Int) (month : Nat) : Nat :=
  if month = 2 then if isLeap year then 29 else 28
  else if month ∈ [4, 6, 9, 11] then 30
  else 31

def daysInYear (year : Int) : Int := if isLeap year then 366 else 365

/-- The days from the beginning of year zero to that of a year, with a leap day for every fourth year
but the full centuries that are none. -/
def daysBeforeYear (year : Int) : Int :=
  365 * year + (year + 3) / 4 - (year + 99) / 100 + (year + 399) / 400

def daysBeforeMonth (year : Int) (month : Nat) : Nat :=
  ((List.range' 1 (month - 1)).map (daysInMonth year)).sum

/-- The number of a day by its date, counted from 1970-01-01. -/
def dayNumber : Int × Nat × Nat → Int
  | (year, month, day) =>
    daysBeforeYear year - daysBeforeYear 1970 + daysBeforeMonth year month + (day - 1)

/-- Whether there is such a day. -/
def IsDate : Int × Nat × Nat → Prop
  | (year, month, day) =>
    (1 ≤ month ∧ month ≤ 12) ∧ 1 ≤ day ∧ day ≤ daysInMonth year month

theorem isLeap_iff (year : Int) :
    isLeap year = true ↔ year % 4 = 0 ∧ (year % 100 ≠ 0 ∨ year % 400 = 0) := by
  simp [isLeap]

theorem daysBeforeYear_succ (year : Int) :
    daysBeforeYear (year + 1) = daysBeforeYear year + daysInYear year := by
  unfold daysBeforeYear daysInYear
  by_cases hleap : isLeap year = true
  · have hrule := (isLeap_iff year).mp hleap
    rw [if_pos hleap]
    omega
  · have hrule := mt (isLeap_iff year).mpr hleap
    rw [if_neg hleap]
    omega

/-- A day of an era of four hundred years by its place: the century, the cycle of four years in it, the
year in that, and the day of the year. Only the last year of a cycle has a leap day, and the last
cycle of a century has none unless the era ends with it. -/
structure EraDay where
  century : Nat
  cycle : Nat
  year : Nat
  day : Nat
  century_le : century ≤ 3
  cycle_le : cycle ≤ 24
  year_le : year ≤ 3
  day_le : day ≤ 365
  isLast : day = 365 → year = 3 ∧ (cycle = 24 → century = 3)

namespace EraDay

/-- The number of the day in its era. -/
def number (place : EraDay) : Nat :=
  36524 * place.century + 1461 * place.cycle + 365 * place.year + place.day

/-- The number of its year in the era. -/
def yearNumber (place : EraDay) : Nat := 100 * place.century + 4 * place.cycle + place.year

theorem exists_number_eq {n : Nat} (h : n < 146097) : ∃ place : EraDay, place.number = n := by
  let century := min (n / 36524) 3
  let rest := n - 36524 * century
  let year := min (rest % 1461 / 365) 3
  refine ⟨⟨century, rest / 1461, year, rest % 1461 - 365 * year, ?_, ?_, ?_, ?_, ?_⟩, ?_⟩
  all_goals
    simp only [number, century, rest, year]
    omega

/-- All full centuries of an era are counted by their days, but the last day belongs to the fourth. -/
theorem number_div_century (place : EraDay) :
    place.number / 36524 = place.century + place.number / 146096 := by
  obtain ⟨century, cycle, year, day, hcentury, hcycle, hyear, hday, hlast⟩ := place
  simp only [number]
  have hsum : 36524 * century + 1461 * cycle + 365 * year + day =
      36524 * century + (1461 * cycle + 365 * year + day) := by omega
  rw [hsum, Nat.mul_add_div (by decide)]
  by_cases hend : day = 365 ∧ cycle = 24
  · obtain ⟨rfl, rfl⟩ := hend
    obtain ⟨rfl, hera⟩ := hlast rfl
    obtain rfl := hera rfl
    rfl
  · have hrest : 1461 * cycle + 365 * year + day < 36524 := by omega
    rw [Nat.div_eq_of_lt hrest, Nat.div_eq_of_lt (by omega)]

/-- Cycles are counted by days that lack their leap day. So at most one is counted too many, and that
only on a day that is not the first of its year. -/
theorem exists_number_div_cycle (place : EraDay) :
    ∃ more, place.number / 1460 = 25 * place.century + place.cycle + more ∧
      more ≤ place.day ∧ place.day ≤ 364 + more := by
  obtain ⟨century, cycle, year, day, hcentury, hcycle, hyear, hday, hlast⟩ := place
  refine ⟨(24 * century + cycle + 365 * year + day) / 1460, ?_, ?_, ?_⟩
  · have hsum : 36524 * century + 1461 * cycle + 365 * year + day =
        1460 * (25 * century + cycle) + (24 * century + cycle + 365 * year + day) := by omega
    simp only [number]
    rw [hsum, Nat.mul_add_div (by decide)]
  · dsimp only
    omega
  · dsimp only
    omega

theorem yearNumber_eq (place : EraDay) :
    (place.number - place.number / 1460 + place.number / 36524 - place.number / 146096) / 365 =
      place.yearNumber := by
  obtain ⟨more, hcycles, hleast, hmost⟩ := place.exists_number_div_cycle
  rw [hcycles, place.number_div_century]
  generalize place.number / 146096 = fourth
  simp only [number, yearNumber]
  omega

end EraDay

/-- The date of a day that is counted from the first of March of a year. -/
def fromMarch (year : Int) (dayOfYear : Nat) : Int × Nat × Nat :=
  let march := (5 * dayOfYear + 2) / 153
  let month := if march < 10 then march + 3 else march - 9
  (year + (if month ≤ 2 then 1 else 0), month, dayOfYear - (153 * march + 2) / 5 + 1)

/-- Before the months after February come those two, and after them months of 31 and 30 days by turns,
five of which have 153 days. -/
theorem daysBeforeMonth_add_three (year : Int) {march : Nat} (h : march < 10) :
    (daysBeforeMonth year (march + 3) : Int) =
      daysInYear year - 306 + ((153 * march + 2) / 5 : Nat) := by
  cases hleap : isLeap year <;>
    interval_cases march <;>
      simp [daysBeforeMonth, daysInMonth, daysInYear, List.range', hleap]

/-- The lengths of the months after February by the same rule. -/
theorem daysInMonth_add_three (year : Int) {march : Nat} (h : march < 10) :
    daysInMonth year (march + 3) = (153 * (march + 1) + 2) / 5 - (153 * march + 2) / 5 := by
  interval_cases march <;> rfl

theorem fromMarch_spring {year : Int} {dayOfYear : Nat} (h : dayOfYear < 306) :
    fromMarch year dayOfYear =
      (year, (5 * dayOfYear + 2) / 153 + 3,
        dayOfYear - (153 * ((5 * dayOfYear + 2) / 153) + 2) / 5 + 1) := by
  have hmarch : (5 * dayOfYear + 2) / 153 < 10 := by omega
  simp [fromMarch, hmarch]

theorem fromMarch_january {year : Int} {dayOfYear : Nat} (h : 306 ≤ dayOfYear) (h' : dayOfYear < 337) :
    fromMarch year dayOfYear = (year + 1, 1, dayOfYear - 305) := by
  have hmarch : (5 * dayOfYear + 2) / 153 = 10 := by omega
  simp [fromMarch, hmarch]
  omega

theorem fromMarch_february {year : Int} {dayOfYear : Nat} (h : 337 ≤ dayOfYear) (h' : dayOfYear ≤ 365) :
    fromMarch year dayOfYear = (year + 1, 2, dayOfYear - 336) := by
  have hmarch : (5 * dayOfYear + 2) / 153 = 11 := by omega
  simp [fromMarch, hmarch]
  omega

theorem dayNumber_fromMarch (year : Int) {dayOfYear : Nat} (h : dayOfYear ≤ 365) :
    dayNumber (fromMarch year dayOfYear) =
      daysBeforeYear (year + 1) - daysBeforeYear 1970 - 306 + dayOfYear := by
  rcases Nat.lt_or_ge dayOfYear 306 with hspring | hwinter
  · have hmarch : (5 * dayOfYear + 2) / 153 < 10 := by omega
    rw [fromMarch_spring hspring]
    simp only [dayNumber]
    rw [daysBeforeMonth_add_three year hmarch, daysBeforeYear_succ]
    omega
  rcases Nat.lt_or_ge dayOfYear 337 with hjanuary | hfebruary
  · have hbefore : daysBeforeMonth (year + 1) 1 = 0 := rfl
    rw [fromMarch_january hwinter hjanuary]
    simp only [dayNumber]
    rw [hbefore]
    omega
  · have hbefore : daysBeforeMonth (year + 1) 2 = 31 := rfl
    rw [fromMarch_february hfebruary h]
    simp only [dayNumber]
    rw [hbefore]
    omega

theorem isDate_fromMarch {year : Int} {dayOfYear : Nat} (h : dayOfYear ≤ 365)
    (hleap : dayOfYear = 365 → isLeap (year + 1) = true) : IsDate (fromMarch year dayOfYear) := by
  rcases Nat.lt_or_ge dayOfYear 306 with hspring | hwinter
  · have hmarch : (5 * dayOfYear + 2) / 153 < 10 := by omega
    rw [fromMarch_spring hspring]
    refine ⟨⟨by omega, by omega⟩, by omega, ?_⟩
    rw [daysInMonth_add_three year hmarch]
    omega
  rcases Nat.lt_or_ge dayOfYear 337 with hjanuary | hfebruary
  · rw [fromMarch_january hwinter hjanuary]
    refine ⟨⟨by omega, by omega⟩, by omega, ?_⟩
    simp [daysInMonth]
    omega
  · rw [fromMarch_february hfebruary h]
    refine ⟨⟨by omega, by omega⟩, by omega, ?_⟩
    rcases Nat.lt_or_ge dayOfYear 365 with hcommon | hlast
    · cases hyear : isLeap (year + 1) <;> simp [daysInMonth, hyear] <;> omega
    · simp [daysInMonth, hleap (by omega)]
      omega

theorem exists_era (days : Int) :
    ∃ (era : Int) (place : EraDay), days + 719468 = 146097 * era + place.number := by
  have hday : ((days + 719468) % 146097).toNat < 146097 := by omega
  obtain ⟨place, hplace⟩ := EraDay.exists_number_eq hday
  exact ⟨(days + 719468) / 146097, place, by omega⟩

theorem EraDay.number_lt (place : EraDay) : place.number < 146097 := by
  obtain ⟨century, cycle, year, day, hcentury, hcycle, hyear, hday, hlast⟩ := place
  simp only [number]
  omega

theorem civil_eq {days era : Int} {place : EraDay}
    (h : days + 719468 = 146097 * era + place.number) :
    civil days = fromMarch (400 * era + place.yearNumber) place.day := by
  have hlt := place.number_lt
  have hera : (days + 719468) / 146097 = era := by omega
  have hday : ((days + 719468) % 146097).toNat = place.number := by omega
  have hyear := place.yearNumber_eq
  have hdayOfYear : place.number -
      (365 * place.yearNumber + place.yearNumber / 4 - place.yearNumber / 100) = place.day := by
    obtain ⟨century, cycle, year, day, hcentury, hcycle, hyear, hday, hlast⟩ := place
    simp only [EraDay.number, EraDay.yearNumber]
    omega
  simp only [civil, hera, hday, hyear, hdayOfYear, fromMarch]
  rw [Int.mul_comm]

theorem daysBeforeYear_era (era : Int) (place : EraDay) :
    daysBeforeYear (400 * era + place.yearNumber + 1) =
      146097 * era + (place.number - place.day) + 366 := by
  obtain ⟨century, cycle, year, day, hcentury, hcycle, hyear, hday, hlast⟩ := place
  simp only [daysBeforeYear, EraDay.number, EraDay.yearNumber]
  omega

theorem isLeap_era (era : Int) {place : EraDay} (h : place.day = 365) :
    isLeap (400 * era + place.yearNumber + 1) = true := by
  obtain ⟨century, cycle, year, day, hcentury, hcycle, hyear, hday, hlast⟩ := place
  obtain ⟨rfl, hera⟩ := hlast h
  simp only [isLeap_iff, EraDay.yearNumber]
  omega

theorem dayNumber_civil (days : Int) : dayNumber (civil days) = days := by
  obtain ⟨era, place, h⟩ := exists_era days
  have hepoch : daysBeforeYear 1970 = 719528 := by decide
  rw [civil_eq h, dayNumber_fromMarch _ place.day_le, daysBeforeYear_era, hepoch]
  omega

theorem isDate_civil (days : Int) : IsDate (civil days) := by
  obtain ⟨era, place, h⟩ := exists_era days
  rw [civil_eq h]
  exact isDate_fromMarch place.day_le (isLeap_era era)

/-- A date is that of a day of a year that begins in March. -/
theorem exists_fromMarch_eq {date : Int × Nat × Nat} (h : IsDate date) :
    ∃ year dayOfYear, dayOfYear ≤ 365 ∧ (dayOfYear = 365 → isLeap (year + 1) = true) ∧
      fromMarch year dayOfYear = date := by
  obtain ⟨year, month, day⟩ := date
  obtain ⟨⟨hfirst, hlast⟩, hday, hlength⟩ := h
  match month with
  | 0 => omega
  | 1 =>
    have hbound : day ≤ 31 := hlength
    refine ⟨year - 1, day + 305, by omega, by omega, ?_⟩
    rw [fromMarch_january (by omega) (by omega)]
    simp
  | 2 =>
    refine ⟨year - 1, day + 336, ?_⟩
    rw [Int.sub_add_cancel]
    cases hleap : isLeap year with
    | true =>
      have hbound : day ≤ 29 := by simpa [daysInMonth, hleap] using hlength
      refine ⟨by omega, fun _ => rfl, ?_⟩
      rw [fromMarch_february (by omega) (by omega)]
      simp
    | false =>
      have hbound : day ≤ 28 := by simpa [daysInMonth, hleap] using hlength
      refine ⟨by omega, by omega, ?_⟩
      rw [fromMarch_february (by omega) (by omega)]
      simp
  | march + 3 =>
    have hmarch : march < 10 := by omega
    rw [daysInMonth_add_three year hmarch] at hlength
    have hindex : (5 * ((153 * march + 2) / 5 + (day - 1)) + 2) / 153 = march := by omega
    refine ⟨year, (153 * march + 2) / 5 + (day - 1), by omega, by omega, ?_⟩
    rw [fromMarch_spring (by omega), hindex]
    simp only [Prod.mk.injEq, true_and]
    omega

theorem exists_era_of_year {year : Int} {dayOfYear : Nat} (h : dayOfYear ≤ 365)
    (hleap : dayOfYear = 365 → isLeap (year + 1) = true) :
    ∃ (era : Int) (place : EraDay), 400 * era + place.yearNumber = year ∧ place.day = dayOfYear := by
  refine ⟨year / 400, ⟨(year % 400 / 100).toNat, (year % 100 / 4).toNat, (year % 4).toNat, dayOfYear,
    by omega, by omega, by omega, h, ?_⟩, ?_, rfl⟩
  · intro hlast
    have hrule := (isLeap_iff _).mp (hleap hlast)
    omega
  · simp only [EraDay.yearNumber]
    omega

/-- The date of a day is the only one with the number of that day. -/
theorem civil_dayNumber {date : Int × Nat × Nat} (h : IsDate date) :
    civil (dayNumber date) = date := by
  obtain ⟨year, dayOfYear, hbound, hleap, rfl⟩ := exists_fromMarch_eq h
  obtain ⟨era, place, rfl, rfl⟩ := exists_era_of_year hbound hleap
  have hepoch : daysBeforeYear 1970 = 719528 := by decide
  apply civil_eq
  rw [dayNumber_fromMarch _ hbound, daysBeforeYear_era, hepoch]
  omega

/-- The number of a minute, counted from 1970-01-01 00:00. -/
def number (m : Minute) : Int :=
  1440 * dayNumber (m.year, m.month, m.day) + 60 * m.hour + m.minute

/-- Whether there is such a minute. -/
def IsCivil (m : Minute) : Prop :=
  IsDate (m.year, m.month, m.day) ∧ m.hour < 24 ∧ m.minute < 60

theorem number_ofUnixSeconds (seconds : Int) : (ofUnixSeconds seconds).number = seconds / 60 := by
  have hday := dayNumber_civil (seconds / 60 / 1440)
  simp only [number, ofUnixSeconds, hday]
  omega

theorem isCivil_ofUnixSeconds (seconds : Int) : (ofUnixSeconds seconds).IsCivil := by
  refine ⟨isDate_civil (seconds / 60 / 1440), ?_, ?_⟩
  · simp only [ofUnixSeconds]
    omega
  · simp only [ofUnixSeconds]
    omega

/-- A minute is found from its number. -/
theorem ofUnixSeconds_number {m : Minute} (h : m.IsCivil) : ofUnixSeconds (60 * m.number) = m := by
  obtain ⟨year, month, day, hour, minute⟩ := m
  obtain ⟨hdate, hhour, hminute⟩ := h
  simp only [number] at *
  have hminutes (days : Int) : 60 * (1440 * days + 60 * hour + minute) / 60 / 1440 = days := by omega
  have hrest (days : Int) :
      (60 * (1440 * days + 60 * hour + minute) / 60 % 1440).toNat = 60 * hour + minute := by omega
  simp only [ofUnixSeconds, hminutes, hrest, civil_dayNumber hdate]
  congr 1 <;> omega

theorem eq_of_number_eq {m m' : Minute} (h : m.IsCivil) (h' : m'.IsCivil)
    (hnumber : m.number = m'.number) : m = m' := by
  rw [← ofUnixSeconds_number h, hnumber, ofUnixSeconds_number h']

end GettextTemplate.Minute

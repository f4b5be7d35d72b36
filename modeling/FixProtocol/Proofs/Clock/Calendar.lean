import FixProtocol.Clock.Date
import Mathlib.Tactic.IntervalCases

/-!
# Days and dates

The count of days is the Gregorian calendar's: a year follows another after its days, and a month
another after its days. So days and dates belong together one to one, and a later date is a later
day.

- `Date.dayNumber_nextYear`, `Date.dayNumber_nextMonth`: the first days of years and months.
- `Date.isReal_ofDay`, `Date.dayNumber_ofDay`: every day has a real date, whose day it is.
- `Date.dayNumber_lt_of_before`: a later date is a later day.
- `Date.elapsedDays`, `Date.dayNumber_eq_elapsedDays`: the days since the start of 1970, counted
  year by year and month by month.
-/

namespace FixProtocol.Date

/-! ## Years that start in March -/

/-- Days from the start of the cycle that holds March of year 0 to 1 March of year `y`. -/
def marchDay (y : Int) : Int :=
  y / 400 * daysPerCycle + (daysBeforeYear (y % 400).toNat : Nat)

/-- The days before a year are 365 for each, and one for each leap day. -/
theorem marchDay_eq (y : Int) : marchDay y = 365 * y + y / 4 - y / 100 + y / 400 := by
  unfold marchDay daysBeforeYear daysPerCycle
  omega

/-- A date by the days before its year and before its month. -/
theorem dayNumber_eq (d : Date) :
    d.dayNumber =
      marchDay (d.year - if d.month ≤ 2 then 1 else 0) +
        (daysBeforeMonth (if d.month ≤ 2 then d.month + 9 else d.month - 3) + (d.day - 1) : Nat) -
          epochOffset := by
  unfold dayNumber marchDay
  push_cast
  omega

/-! ## Years, months and days -/

/-- The number of days in a year. -/
def daysInYear (year : Int) : Nat :=
  if isLeapYear year then 366 else 365

theorem isLeapYear_iff {year : Int} :
    isLeapYear year = true ↔ year % 4 = 0 ∧ (year % 100 ≠ 0 ∨ year % 400 = 0) := by
  simp [isLeapYear]

theorem daysInYear_le (year : Int) : daysInYear year ≤ 366 := by
  unfold daysInYear
  split <;> decide

/-- Only a leap year has a day number 365, counted from 0. -/
theorem lt_daysInYear {year : Int} {n : Nat} (h : n ≤ 365)
    (hleap : n = 365 → isLeapYear year = true) : n < daysInYear year := by
  unfold daysInYear
  by_cases hyear : isLeapYear year = true
  · rw [if_pos hyear]
    omega
  · rw [if_neg hyear]
    have hne : n ≠ 365 := fun e => hyear (hleap e)
    omega

/-- The months of a year that starts in March, up to January. -/
theorem daysBeforeMonth_next (year : Int) {m : Nat} (h : m < 11) :
    daysBeforeMonth (m + 1) =
      daysBeforeMonth m + daysInMonth year (if m < 10 then m + 3 else m - 9) := by
  interval_cases m
  all_goals rfl

/-- February is the last month of a year that starts in March, with the leap day if there is one. -/
theorem daysInYear_eq (year : Int) :
    daysInYear year = daysBeforeMonth 11 + daysInMonth year 2 := by
  unfold daysInYear daysInMonth
  by_cases h : isLeapYear year = true
  · rw [if_pos h, if_pos rfl, if_pos h]
    rfl
  · rw [if_neg h, if_pos rfl, if_neg h]
    rfl

/-- The leap day of a year ends the year that started in March before. -/
theorem marchDay_next (y : Int) : marchDay (y + 1) = marchDay y + daysInYear (y + 1) := by
  rw [marchDay_eq, marchDay_eq]
  unfold daysInYear
  by_cases h : isLeapYear (y + 1) = true
  · rw [if_pos h]
    rw [isLeapYear_iff] at h
    omega
  · rw [if_neg h]
    rw [isLeapYear_iff] at h
    omega

/-- The day of a date in January or February. -/
theorem dayNumber_winter {year : Int} {month day : Nat} (h : month ≤ 2) :
    dayNumber ⟨year, month, day⟩ =
      marchDay (year - 1) + (daysBeforeMonth (month + 9) + (day - 1) : Nat) - epochOffset := by
  rw [dayNumber_eq]
  simp only [if_pos h]

/-- The day of a date from March on. -/
theorem dayNumber_summer {year : Int} {month day : Nat} (h : 2 < month) :
    dayNumber ⟨year, month, day⟩ =
      marchDay year + (daysBeforeMonth (month - 3) + (day - 1) : Nat) - epochOffset := by
  rw [dayNumber_eq]
  simp only [if_neg (Nat.not_le.mpr h), Int.sub_zero]

/-- The next year starts after the days of this one. -/
theorem dayNumber_nextYear (year : Int) :
    dayNumber ⟨year + 1, 1, 1⟩ = dayNumber ⟨year, 1, 1⟩ + daysInYear year := by
  have hmarch := marchDay_next (year - 1)
  rw [Int.sub_add_cancel] at hmarch
  rw [dayNumber_winter (by decide), dayNumber_winter (by decide), Int.add_sub_cancel, hmarch]
  omega

/-- The next month starts after the days of this one. -/
theorem dayNumber_nextMonth {year : Int} {month : Nat} (hfirst : 1 ≤ month) (hlast : month < 12) :
    dayNumber ⟨year, month + 1, 1⟩ = dayNumber ⟨year, month, 1⟩ + daysInMonth year month := by
  rcases (by omega : month = 1 ∨ month = 2 ∨ 3 ≤ month) with rfl | rfl | hspring
  · have hlength : daysBeforeMonth 11 = daysBeforeMonth 10 + daysInMonth year 1 :=
      daysBeforeMonth_next year (by decide)
    rw [dayNumber_winter (by decide), dayNumber_winter (by decide)]
    simp only [Nat.reduceAdd, hlength]
    omega
  · have hmarch := marchDay_next (year - 1)
    rw [Int.sub_add_cancel, daysInYear_eq] at hmarch
    have hstart : daysBeforeMonth 0 = 0 := rfl
    rw [dayNumber_summer (by decide), dayNumber_winter (by decide), hmarch]
    simp only [Nat.reduceAdd, Nat.reduceSub, hstart]
    omega
  · have hlength := daysBeforeMonth_next year (by omega : month - 3 < 11)
    rw [if_pos (by omega), Nat.sub_add_cancel hspring, ← Nat.sub_add_comm hspring] at hlength
    rw [dayNumber_summer (by omega), dayNumber_summer hspring, hlength]
    omega

/-- The next year starts after the days of December. -/
theorem dayNumber_december (year : Int) :
    dayNumber ⟨year + 1, 1, 1⟩ = dayNumber ⟨year, 12, 1⟩ + daysInMonth year 12 := by
  have hlength : daysBeforeMonth 10 = daysBeforeMonth 9 + daysInMonth year 12 :=
    daysBeforeMonth_next year (by decide)
  rw [dayNumber_winter (by decide), dayNumber_summer (by decide), Int.add_sub_cancel]
  simp only [Nat.reduceAdd, Nat.reduceSub, hlength]
  omega

/-- A day of a month comes after those before it. -/
theorem dayNumber_day (d : Date) :
    d.dayNumber = dayNumber ⟨d.year, d.month, 1⟩ + (d.day - 1 : Nat) := by
  obtain ⟨year, month, day⟩ := d
  simp only
  by_cases h : month ≤ 2
  · rw [dayNumber_winter h, dayNumber_winter h]
    omega
  · rw [dayNumber_summer (by omega), dayNumber_summer (by omega)]
    omega

/-! ## Dates in order -/

/-- The date comes before the other in the calendar. -/
def Before (d e : Date) : Prop :=
  d.year < e.year ∨ d.year = e.year ∧ (d.month < e.month ∨ d.month = e.month ∧ d.day < e.day)

theorem isReal_iff {d : Date} :
    d.isReal = true ↔
      1 ≤ d.month ∧ d.month ≤ 12 ∧ 1 ≤ d.day ∧ d.day ≤ daysInMonth d.year d.month := by
  simp [isReal, and_assoc]

/-- Of two dates one comes before the other, unless they are the same. -/
theorem before_trichotomy (d e : Date) : d.Before e ∨ d = e ∨ e.Before d := by
  obtain ⟨year, month, day⟩ := d
  obtain ⟨year', month', day'⟩ := e
  unfold Before
  simp only [Date.mk.injEq]
  omega

/-- Later months of a year start later. -/
theorem dayNumber_month_le {year : Int} {m n : Nat} (hm : 1 ≤ m) (hn : n ≤ 12) (h : m ≤ n) :
    dayNumber ⟨year, m, 1⟩ ≤ dayNumber ⟨year, n, 1⟩ := by
  induction n, h using Nat.le_induction with
  | base => exact Int.le_refl _
  | succ n hle ih =>
    have hnext : dayNumber ⟨year, n + 1, 1⟩ = _ := dayNumber_nextMonth (Nat.le_trans hm hle) hn
    have := ih (by omega)
    omega

/-- Later years start later. -/
theorem dayNumber_year_le {y z : Int} (h : y ≤ z) :
    dayNumber ⟨y, 1, 1⟩ ≤ dayNumber ⟨z, 1, 1⟩ := by
  induction z, h using Int.leInduction with
  | base => exact Int.le_refl _
  | succ z _ ih =>
    have := dayNumber_nextYear z
    omega

theorem daysInMonth_le (year : Int) (month : Nat) : daysInMonth year month ≤ 31 := by
  unfold daysInMonth
  split
  · split <;> decide
  · split <;> decide

/-- The days of a real date's month are over before the next month starts. -/
theorem dayNumber_lt_nextMonth {d : Date} (h : d.isReal = true) :
    d.dayNumber < dayNumber ⟨d.year, d.month, 1⟩ + daysInMonth d.year d.month := by
  obtain ⟨-, -, hfirst, hlast⟩ := isReal_iff.mp h
  have hday := d.dayNumber_day
  omega

/-- The days of a real date's year are over before the next year starts. -/
theorem dayNumber_lt_nextYear {d : Date} (h : d.isReal = true) :
    d.dayNumber < dayNumber ⟨d.year + 1, 1, 1⟩ := by
  obtain ⟨hfirst, hlast, -⟩ := isReal_iff.mp h
  have hmonth := dayNumber_lt_nextMonth h
  have hdecember := dayNumber_december d.year
  rcases Nat.lt_or_eq_of_le hlast with hlt | heq
  · have hnext : dayNumber ⟨d.year, d.month + 1, 1⟩ = _ := dayNumber_nextMonth hfirst hlt
    have hle : dayNumber ⟨d.year, d.month + 1, 1⟩ ≤ dayNumber ⟨d.year, 12, 1⟩ :=
      dayNumber_month_le (by omega) (Nat.le_refl 12) hlt
    omega
  · rw [heq] at hmonth
    omega

/-- A real date is not before the first day of its year. -/
theorem dayNumber_year_le_self {d : Date} (h : d.isReal = true) :
    dayNumber ⟨d.year, 1, 1⟩ ≤ d.dayNumber := by
  obtain ⟨hfirst, hlast, -⟩ := isReal_iff.mp h
  have hday := d.dayNumber_day
  have hmonth : dayNumber ⟨d.year, 1, 1⟩ ≤ dayNumber ⟨d.year, d.month, 1⟩ :=
    dayNumber_month_le (Nat.le_refl 1) hlast hfirst
  omega

/-- A later date is a later day. -/
theorem dayNumber_lt_of_before {d e : Date} (hd : d.isReal = true) (he : e.isReal = true)
    (h : d.Before e) : d.dayNumber < e.dayNumber := by
  rcases h with hyear | ⟨hyear, hmonth | ⟨hmonth, hday⟩⟩
  · have hlt := dayNumber_lt_nextYear hd
    have hnext : dayNumber ⟨d.year + 1, 1, 1⟩ ≤ dayNumber ⟨e.year, 1, 1⟩ := dayNumber_year_le hyear
    have hle := dayNumber_year_le_self he
    omega
  · obtain ⟨hfirst, -, -⟩ := isReal_iff.mp hd
    obtain ⟨-, hlast, -⟩ := isReal_iff.mp he
    have hlt := dayNumber_lt_nextMonth hd
    have hstart : dayNumber ⟨d.year, d.month + 1, 1⟩ = _ := dayNumber_nextMonth hfirst (by omega)
    have hnext : dayNumber ⟨d.year, d.month + 1, 1⟩ ≤ dayNumber ⟨d.year, e.month, 1⟩ :=
      dayNumber_month_le (by omega) hlast hmonth
    have hself := e.dayNumber_day
    rw [← hyear] at hself
    omega
  · obtain ⟨-, -, hfirst, -⟩ := isReal_iff.mp hd
    have hself := d.dayNumber_day
    have hother := e.dayNumber_day
    rw [← hyear, ← hmonth] at hother
    omega

/-! ## The date of a day -/

/-- The days before a year by its century, its group of four years and its place in the group. -/
theorem daysBeforeYear_parts {century four year : Nat} (hfour : four ≤ 24) (hyear : year ≤ 3) :
    daysBeforeYear (century * 100 + four * 4 + year) =
      century * 36524 + four * 1461 + year * 365 := by
  have hleap : (century * 100 + four * 4 + year) / 4 = century * 25 + four := by omega
  have hcentury : (century * 100 + four * 4 + year) / 100 = century := by omega
  unfold daysBeforeYear
  rw [hleap, hcentury]
  omega

/-- A day of a cycle by its century: a day is over only in the last. -/
theorem century_parts {d : Nat} (h : d < 146097) :
    ∃ century rest : Nat, min (d / 36524) 3 = century ∧ d - century * 36524 = rest ∧
      d = century * 36524 + rest ∧ century ≤ 3 ∧ rest ≤ 36524 ∧ (century < 3 → rest < 36524) := by
  by_cases hlast : d / 36524 < 3
  · exact ⟨d / 36524, d % 36524, by omega, by omega, by omega, by omega, by omega,
      fun _ => by omega⟩
  · exact ⟨3, d - 3 * 36524, by omega, rfl, by omega, by omega, by omega, fun h => by omega⟩

/-- A day of four years by its year: a day is over only in the last. -/
theorem fourYears_parts {d : Nat} (h : d < 1461) :
    ∃ year rest : Nat, min (d / 365) 3 = year ∧ d = year * 365 + rest ∧ year ≤ 3 ∧ rest ≤ 365 ∧
      (year < 3 → rest < 365) := by
  by_cases hlast : d / 365 < 3
  · exact ⟨d / 365, d % 365, by omega, by omega, by omega, by omega, fun _ => by omega⟩
  · exact ⟨3, d - 3 * 365, by omega, by omega, by omega, by omega, fun h => by omega⟩

/-- The year found for a day of a cycle started at most 365 days before; so many only if it is the
last year of four, and the last century if those are the last four. -/
theorem yearOfCycleDay_parts {d : Nat} (h : d < 146097) :
    ∃ century four year rest : Nat, century ≤ 3 ∧ four ≤ 24 ∧ year ≤ 3 ∧
      yearOfCycleDay d = century * 100 + four * 4 + year ∧
      d = century * 36524 + four * 1461 + year * 365 + rest ∧ rest ≤ 365 ∧
      (rest = 365 → year = 3 ∧ (four = 24 → century = 3)) := by
  obtain ⟨century, inCentury, hmin, hsub, hd, hcentury, hin, hshort⟩ := century_parts h
  have hrem : inCentury - inCentury / 1461 * 1461 = inCentury % 1461 := by omega
  obtain ⟨year, rest, hyearMin, hinFour, hyear, hrest, hyearShort⟩ :=
    fourYears_parts (Nat.mod_lt inCentury (by decide : 0 < 1461))
  have hsplit := Nat.div_add_mod' inCentury 1461
  rw [hinFour] at hsplit
  refine ⟨century, inCentury / 1461, year, rest, hcentury, ?_, hyear, ?_, ?_, hrest, ?_⟩
  · exact Nat.le_of_lt_succ (Nat.div_lt_of_lt_mul (Nat.lt_of_le_of_lt hin (by decide)))
  · simp only [yearOfCycleDay, hmin, hsub, hrem, hyearMin]
  · rw [hd, Nat.add_assoc, Nat.add_assoc, hsplit]
  · intro hfull
    -- Such a day is the last of 1461, and after 24 groups of these only the last century has it.
    clear hmin hsub hyearMin
    refine ⟨by omega, fun hlast => ?_⟩
    by_contra hne
    have := hshort (by omega)
    omega

/-- A year is a leap year if it is the last of four, and of its cycle if it ends a century. -/
theorem isLeapYear_of_parts {cycle : Int} {century four : Nat} (hfour : four ≤ 24)
    (hlast : four = 24 → century = 3) :
    isLeapYear (cycle * 400 + (century * 100 + four * 4 + 3 : Nat) + 1) = true := by
  rw [isLeapYear_iff]
  by_cases hlastFour : four = 24
  · have := hlast hlastFour
    omega
  · omega

/-- The date of a day: the year from March that holds the day, and the month of that year that
holds it. -/
theorem ofDay_eq (n : Int) :
    ∃ (year : Int) (inYear : Nat),
      marchDay year + inYear = n + epochOffset ∧ inYear < daysInYear (year + 1) ∧
      ofDay n =
        let m := (5 * inYear + 2) / 153
        { year := year + (if m < 10 then 0 else 1)
          month := if m < 10 then m + 3 else m - 9
          day := inYear - daysBeforeMonth m + 1 } := by
  obtain ⟨cycle, hcycle⟩ : ∃ cycle, (n + epochOffset) / daysPerCycle = cycle := ⟨_, rfl⟩
  obtain ⟨d, hd⟩ : ∃ d, ((n + epochOffset) % daysPerCycle).toNat = d := ⟨_, rfl⟩
  have hlt : d < 146097 := by
    unfold daysPerCycle at hd
    omega
  have hn : n + epochOffset = cycle * daysPerCycle + d := by
    unfold daysPerCycle at *
    omega
  obtain ⟨century, four, year, rest, hcentury, hfour, hyear, hy, hparts, hrest, hfull⟩ :=
    yearOfCycleDay_parts hlt
  have hstart : daysBeforeYear (yearOfCycleDay d) = _ := hy ▸ daysBeforeYear_parts hfour hyear
  have hin : d - daysBeforeYear (yearOfCycleDay d) = rest := by omega
  have hyearLt : yearOfCycleDay d < 400 := by omega
  refine ⟨cycle * 400 + yearOfCycleDay d, rest, ?_, lt_daysInYear hrest ?_, ?_⟩
  · have hquot : (cycle * 400 + (yearOfCycleDay d : Int)) / 400 = cycle := by omega
    have hrem : ((cycle * 400 + (yearOfCycleDay d : Int)) % 400).toNat = yearOfCycleDay d := by
      omega
    unfold marchDay
    rw [hquot, hrem, hn]
    omega
  · intro hleap
    obtain ⟨hlast, hcenturyLast⟩ := hfull hleap
    rw [hy, hlast]
    exact isLeapYear_of_parts hfour hcenturyLast
  · simp only [ofDay, hcycle, hd, hin]

/-- The month that holds a day of a year from March. -/
theorem month_spec {year : Int} {inYear : Nat} (h : inYear < daysInYear year) :
    (5 * inYear + 2) / 153 ≤ 11 ∧ daysBeforeMonth ((5 * inYear + 2) / 153) ≤ inYear ∧
      inYear < daysBeforeMonth ((5 * inYear + 2) / 153 + 1) := by
  have hlength := daysInYear_le year
  unfold daysBeforeMonth
  omega

/-- Every day has a date of the calendar. -/
theorem isReal_ofDay (n : Int) : (ofDay n).isReal = true := by
  obtain ⟨year, inYear, -, hlt, heq⟩ := ofDay_eq n
  obtain ⟨hlast, hstart, hend⟩ := month_spec hlt
  rw [heq, isReal_iff]
  simp only
  generalize (5 * inYear + 2) / 153 = m at *
  refine ⟨by split <;> omega, by split <;> omega, by omega, ?_⟩
  -- Only the length of February depends on the year, and it ends the year.
  by_cases hm : m < 11
  · rw [daysBeforeMonth_next (year + if m < 10 then 0 else 1) hm] at hend
    omega
  · obtain rfl : m = 11 := by omega
    rw [daysInYear_eq] at hlt
    simp only [Nat.reduceLT, if_false, Nat.reduceSub]
    omega

/-- The day of the date of a day is the day. -/
theorem dayNumber_ofDay (n : Int) : (ofDay n).dayNumber = n := by
  obtain ⟨year, inYear, hn, hlt, heq⟩ := ofDay_eq n
  obtain ⟨hlast, hstart, -⟩ := month_spec hlt
  rw [heq]
  simp only
  generalize (5 * inYear + 2) / 153 = m at *
  by_cases hm : m < 10
  · simp only [if_pos hm, Int.add_zero]
    rw [dayNumber_summer (by omega), Nat.add_sub_cancel, Nat.add_sub_cancel]
    omega
  · simp only [if_neg hm]
    rw [dayNumber_winter (by omega), Int.add_sub_cancel, Nat.sub_add_cancel (by omega),
      Nat.add_sub_cancel]
    omega

/-- A day lies in a year that started by then, or in a later one. -/
theorem le_year_ofDay {n year : Int} (h : dayNumber ⟨year, 1, 1⟩ ≤ n) : year ≤ (ofDay n).year := by
  by_contra hlt
  have hnext := dayNumber_lt_nextYear (isReal_ofDay n)
  rw [dayNumber_ofDay] at hnext
  have hle : dayNumber ⟨(ofDay n).year + 1, 1, 1⟩ ≤ dayNumber ⟨year, 1, 1⟩ :=
    dayNumber_year_le (by omega)
  omega

/-- A day lies before the years that start after it. -/
theorem year_ofDay_lt {n year : Int} (h : n < dayNumber ⟨year, 1, 1⟩) : (ofDay n).year < year := by
  by_contra hle
  have hself := dayNumber_year_le_self (isReal_ofDay n)
  rw [dayNumber_ofDay] at hself
  have hyear : dayNumber ⟨year, 1, 1⟩ ≤ dayNumber ⟨(ofDay n).year, 1, 1⟩ :=
    dayNumber_year_le (by omega)
  omega

/-- The date of a later day is later. -/
theorem before_ofDay {m n : Int} (h : m < n) : (ofDay m).Before (ofDay n) := by
  rcases before_trichotomy (ofDay m) (ofDay n) with hlt | heq | hgt
  · exact hlt
  · have hday : (ofDay m).dayNumber = (ofDay n).dayNumber := by rw [heq]
    rw [dayNumber_ofDay, dayNumber_ofDay] at hday
    omega
  · have hday := dayNumber_lt_of_before (isReal_ofDay n) (isReal_ofDay m) hgt
    rw [dayNumber_ofDay, dayNumber_ofDay] at hday
    omega

/-! ## Days counted one by one -/

/-- The days of the given number of years, the first of which is 1970. -/
def daysOfYears (years : Nat) : Nat :=
  ((List.range years).map fun (k : Nat) => daysInYear (1970 + k)).sum

/-- The days of the given number of months, the first of which is the year's January. -/
def daysOfMonths (year : Int) (months : Nat) : Nat :=
  ((List.range months).map fun k => daysInMonth year (k + 1)).sum

/-- The days from 1 January 1970 to a date, through all the years and months in between. -/
def elapsedDays (d : Date) : Nat :=
  daysOfYears (d.year - 1970).toNat + daysOfMonths d.year (d.month - 1) + (d.day - 1)

theorem daysOfYears_succ (years : Nat) :
    daysOfYears (years + 1) = daysOfYears years + daysInYear (1970 + years) := by
  simp [daysOfYears, List.range_succ]

theorem daysOfMonths_succ (year : Int) (months : Nat) :
    daysOfMonths year (months + 1) = daysOfMonths year months + daysInMonth year (months + 1) := by
  simp [daysOfMonths, List.range_succ]

theorem dayNumber_year (years : Nat) : dayNumber ⟨1970 + years, 1, 1⟩ = daysOfYears years := by
  induction years with
  | zero => rfl
  | succ years ih =>
    have hnext := dayNumber_nextYear (1970 + years)
    rw [daysOfYears_succ, Int.natCast_add years 1, ← Int.add_assoc, Int.natCast_one, hnext, ih]
    rfl

theorem dayNumber_month {year : Int} {months : Nat} (h : months < 12) :
    dayNumber ⟨year, months + 1, 1⟩ = dayNumber ⟨year, 1, 1⟩ + daysOfMonths year months := by
  induction months with
  | zero => exact (Int.add_zero _).symm
  | succ months ih =>
    have ih := ih (by omega)
    rw [dayNumber_nextMonth (by omega) h, ih, daysOfMonths_succ]
    omega

/-- The day of a date is the number of days from 1 January 1970 to it. -/
theorem dayNumber_eq_elapsedDays {d : Date} (hyear : 1970 ≤ d.year) (hreal : d.isReal = true) :
    d.dayNumber = d.elapsedDays := by
  obtain ⟨hfirst, hlast, -, -⟩ := isReal_iff.mp hreal
  have hself := d.dayNumber_day
  have hmonth : dayNumber ⟨d.year, d.month - 1 + 1, 1⟩ = _ := dayNumber_month (by omega)
  have hyears := dayNumber_year (d.year - 1970).toNat
  rw [Int.toNat_of_nonneg (by omega), show 1970 + (d.year - 1970) = d.year by omega] at hyears
  rw [Nat.sub_add_cancel hfirst] at hmonth
  unfold elapsedDays
  omega

end FixProtocol.Date

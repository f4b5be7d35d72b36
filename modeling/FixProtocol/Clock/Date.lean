/-!
# Dates of the Gregorian calendar

Days are counted from 1 January 1970. The count runs through cycles of 400 years, which all have the
same 146097 days; inside a cycle a year starts in March, so that a leap day is the last of its year.

- `Date.ofDay n`: the date of day `n`.
- `Date.dayNumber d`: the day of date `d`.
- `Date.isReal`: a month from 1 to 12 and a day that the month has.
-/

namespace FixProtocol

/-- A date; months and days count from 1. -/
structure Date where
  year : Int
  month : Nat
  day : Nat
deriving DecidableEq, Repr

namespace Date

/-- Days in a cycle of 400 years. -/
def daysPerCycle : Int := 146097

/-- Days from the first day of the cycle that starts in March of the year 0 to 1 January 1970. -/
def epochOffset : Int := 719468

/-- Days before the given month in a year that starts in March; March is month 0. -/
def daysBeforeMonth (m : Nat) : Nat :=
  (153 * m + 2) / 5

/-- The year in its cycle that holds the given day of the cycle. Centuries have 36524 days and four
years 1461, but the last century of a cycle and the last year of four are a day longer. -/
def yearOfCycleDay (d : Nat) : Nat :=
  let century := min (d / 36524) 3
  let inCentury := d - century * 36524
  let four := inCentury / 1461
  let inFour := inCentury - four * 1461
  century * 100 + four * 4 + min (inFour / 365) 3

/-- Days of a cycle before its year `y`. -/
def daysBeforeYear (y : Nat) : Nat :=
  y * 365 + y / 4 - y / 100

/-- The date of day `n`. -/
def ofDay (n : Int) : Date :=
  let shifted := n + epochOffset
  let cycle := shifted / daysPerCycle
  let d := (shifted % daysPerCycle).toNat
  let y := yearOfCycleDay d
  let inYear := d - daysBeforeYear y
  let m := (5 * inYear + 2) / 153
  { year := cycle * 400 + y + (if m < 10 then 0 else 1)
    month := if m < 10 then m + 3 else m - 9
    day := inYear - daysBeforeMonth m + 1 }

/-- The day of date `d`. -/
def dayNumber (d : Date) : Int :=
  let fromMarch := d.year - (if d.month ≤ 2 then 1 else 0)
  let cycle := fromMarch / 400
  let y := (fromMarch % 400).toNat
  let m := if d.month ≤ 2 then d.month + 9 else d.month - 3
  cycle * daysPerCycle + (daysBeforeYear y + daysBeforeMonth m + (d.day - 1) : Nat) - epochOffset

/-- Is this a leap year? -/
def isLeapYear (y : Int) : Bool :=
  y % 4 = 0 && (y % 100 ≠ 0 || y % 400 = 0)

/-- The number of days in a month of a year. -/
def daysInMonth (year : Int) (month : Nat) : Nat :=
  if month = 2 then (if isLeapYear year then 29 else 28)
  else if month = 4 ∨ month = 6 ∨ month = 9 ∨ month = 11 then 30
  else 31

/-- A month from 1 to 12 and a day that the month has. -/
def isReal (d : Date) : Bool :=
  1 ≤ d.month && d.month ≤ 12 && 1 ≤ d.day && d.day ≤ daysInMonth d.year d.month

end Date

end FixProtocol

/-!
# The calendar

Proleptic Gregorian dates, counted in days from 1970-01-01. A year is counted from March, so that
the leap day is its last day, and a cycle of 400 years is divided into centuries, groups of four
years, and years.
-/

namespace RunLedger.Time

/-- A day of the Gregorian calendar. -/
structure Date where
  year : Int
  month : Nat
  day : Nat
deriving DecidableEq, Repr, Inhabited

/-- The number of days from 0000-03-01 to 1970-01-01. -/
def epochDay : Int := 719468

/-- The date that lies `days` days after 1970-01-01. -/
def Date.ofDays (days : Int) : Date :=
  let n := days + epochDay
  let cycle := n / 146097
  let inCycle := (n % 146097).toNat
  let century := min (inCycle / 36524) 3
  let inCentury := inCycle - 36524 * century
  let group := inCentury / 1461
  let inGroup := inCentury % 1461
  let year := min (inGroup / 365) 3
  let inYear := inGroup - 365 * year
  let monthFromMarch := (5 * inYear + 2) / 153
  let day := inYear - (153 * monthFromMarch + 2) / 5 + 1
  let yearFromMarch := 400 * cycle + (100 * century + 4 * group + year : Nat)
  if monthFromMarch < 10 then ⟨yearFromMarch, monthFromMarch + 3, day⟩
  else ⟨yearFromMarch + 1, monthFromMarch - 9, day⟩

/-- The number of days from 1970-01-01 to a date. -/
def Date.toDays (d : Date) : Int :=
  let early := d.month ≤ 2
  let yearFromMarch := if early then d.year - 1 else d.year
  let monthFromMarch := if early then d.month + 9 else d.month - 3
  let cycle := yearFromMarch / 400
  let inCycle := (yearFromMarch % 400).toNat
  let inYear := (153 * monthFromMarch + 2) / 5 + d.day - 1
  146097 * cycle + (365 * inCycle + inCycle / 4 - inCycle / 100 + inYear : Nat) - epochDay

/-- Whether a year has a leap day. -/
def isLeapYear (year : Int) : Bool :=
  year % 4 = 0 && (year % 100 != 0 || year % 400 = 0)

/-- The number of days of a month. -/
def daysInMonth (year : Int) (month : Nat) : Nat :=
  if month = 2 then (if isLeapYear year then 29 else 28)
  else if month = 4 || month = 6 || month = 9 || month = 11 then 30
  else 31

/-- Whether month and day exist in the calendar. -/
def Date.isValid (d : Date) : Bool :=
  1 ≤ d.month && d.month ≤ 12 && 1 ≤ d.day && d.day ≤ daysInMonth d.year d.month

/-- Whether a date is the last of its month. -/
def Date.isMonthEnd (d : Date) : Bool :=
  d.day = daysInMonth d.year d.month

end RunLedger.Time

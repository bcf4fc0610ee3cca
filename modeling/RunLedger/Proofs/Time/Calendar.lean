import RunLedger.Time.Calendar

/-!
# Days and dates

Every day has a date that exists in the calendar, and the date tells the day. A day is looked up in
the cycle of 400 years: its century, group of four years, year and day of the year, counted from
March, are small numbers from which both its date and its number can be computed.
-/

namespace RunLedger.Time

/-- A day in the cycle of 400 years. Years begin in March, so a leap day is the last day of the last
year of a group; of the groups that end a century only the last of a cycle has one. -/
structure MarchDay where
  cycle : Int
  century : Nat
  group : Nat
  year : Nat
  day : Nat
  century_le : century ≤ 3
  group_le : group ≤ 24
  year_le : year ≤ 3
  day_le : day ≤ 365
  leap : day = 365 → year = 3 ∧ (group = 24 → century = 3)

namespace MarchDay

variable (p : MarchDay)

/-- The year in which the March before a day lies. -/
def yearFromMarch : Int := 400 * p.cycle + (100 * p.century + 4 * p.group + p.year : Nat)

/-- How many months begin after that March. -/
def month : Nat := (5 * p.day + 2) / 153

/-- The day of the month, counted from 1. -/
def dayOfMonth : Nat := p.day - (153 * p.month + 2) / 5 + 1

def date : Date :=
  if p.month < 10 then ⟨p.yearFromMarch, p.month + 3, p.dayOfMonth⟩
  else ⟨p.yearFromMarch + 1, p.month - 9, p.dayOfMonth⟩

def toDays : Int :=
  146097 * p.cycle + (36524 * p.century + 1461 * p.group + 365 * p.year + p.day : Nat) - epochDay

/-- Every day has a place in a cycle, and its date is that of the place. -/
theorem exists_ofDays (days : Int) :
    ∃ p : MarchDay, p.toDays = days ∧ Date.ofDays days = p.date := by
  let inCycle := ((days + epochDay) % 146097).toNat
  let century := min (inCycle / 36524) 3
  let inCentury := inCycle - 36524 * century
  let inGroup := inCentury % 1461
  let year := min (inGroup / 365) 3
  have inCycle_lt : inCycle < 146097 := by omega
  -- The last century of a cycle and the last year of a group may be a day longer than the others,
  -- so these two quotients are cut off at 3.
  let p : MarchDay :=
    { cycle := (days + epochDay) / 146097
      century := century
      group := inCentury / 1461
      year := year
      day := inGroup - 365 * year
      century_le := by omega
      group_le := by omega
      year_le := by omega
      day_le := by omega
      leap := by omega }
  refine ⟨p, ?_, rfl⟩
  show 146097 * ((days + epochDay) / 146097) +
    (36524 * century + 1461 * (inCentury / 1461) + 365 * year + (inGroup - 365 * year) : Nat) -
      epochDay = days
  omega

/-- Where a month begins, and how many days of the year are left in it. -/
theorem month_spec : p.month ≤ 11 ∧ (153 * p.month + 2) / 5 ≤ p.day ∧
    p.day ≤ (153 * p.month + 2) / 5 + 30 := by
  have day_le := p.day_le
  unfold month
  omega

/-- The number of a day whose month is counted from March. -/
def count (year : Int) (month day : Nat) : Int :=
  let inCycle := (year % 400).toNat
  146097 * (year / 400) +
    (365 * inCycle + inCycle / 4 - inCycle / 100 + ((153 * month + 2) / 5 + day - 1) : Nat) -
      epochDay

/-- The day number of a date is the count of the days from March on. -/
theorem toDays_eq_count : p.date.toDays = count p.yearFromMarch p.month p.dayOfMonth := by
  have month_le := p.month_spec.1
  unfold date
  split
  · have late : ¬ p.month + 3 ≤ 2 := by omega
    have back : p.month + 3 - 3 = p.month := by omega
    simp only [Date.toDays, late, ↓reduceIte, back, count]
  · have early : p.month - 9 ≤ 2 := by omega
    have back : p.month - 9 + 9 = p.month := by omega
    simp only [Date.toDays, early, ↓reduceIte, back, Int.add_sub_cancel, count]

theorem toDays_date : p.date.toDays = p.toDays := by
  obtain ⟨_, begun, _⟩ := p.month_spec
  have century_le := p.century_le
  have group_le := p.group_le
  have year_le := p.year_le
  have cycle : p.yearFromMarch / 400 = p.cycle := by
    unfold yearFromMarch
    omega
  have inCycle : (p.yearFromMarch % 400).toNat = 100 * p.century + 4 * p.group + p.year := by
    unfold yearFromMarch
    omega
  rw [toDays_eq_count, count, toDays, cycle, inCycle, dayOfMonth]
  omega

/-- The second, fourth, seventh and ninth month have 30 days; the last has 28, or 29 if the leap day
exists. -/
theorem dayOfMonth_le : p.dayOfMonth ≤ 31 ∧
    (p.month = 1 ∨ p.month = 3 ∨ p.month = 6 ∨ p.month = 8 → p.dayOfMonth ≤ 30) ∧
    (p.month = 11 → p.dayOfMonth ≤ 29 ∧ (p.dayOfMonth = 29 → p.day = 365)) := by
  have day_le := p.day_le
  unfold dayOfMonth month
  omega

/-- Where a year from March has a 366th day, it ends in a leap year. -/
theorem isLeapYear_of_leap (leap : p.day = 365) : isLeapYear (p.yearFromMarch + 1) = true := by
  obtain ⟨last, century⟩ := p.leap leap
  have group_le := p.group_le
  have by_four : (p.yearFromMarch + 1) % 4 = 0 := by
    unfold yearFromMarch
    omega
  have by_century : (p.yearFromMarch + 1) % 100 ≠ 0 ∨ (p.yearFromMarch + 1) % 400 = 0 := by
    unfold yearFromMarch
    omega
  simpa [isLeapYear, by_four] using by_century

/-- The day of the month exists. -/
theorem dayOfMonth_le_daysInMonth : p.dayOfMonth ≤ daysInMonth p.date.year p.date.month := by
  obtain ⟨month_le, _, _⟩ := p.month_spec
  obtain ⟨most, short, last⟩ := p.dayOfMonth_le
  unfold date daysInMonth
  split
  · dsimp only
    rw [if_neg (by omega)]
    split
    · rename_i thirty
      simp only [Bool.or_eq_true, decide_eq_true_eq] at thirty
      exact short (by omega)
    · exact most
  · dsimp only
    split
    · obtain ⟨fits, leap⟩ := last (by omega)
      split
      · exact fits
      · rename_i common
        have notLast : p.dayOfMonth ≠ 29 := fun same => common (p.isLeapYear_of_leap (leap same))
        omega
    · rw [if_neg]
      · exact most
      · simp only [Bool.or_eq_true, decide_eq_true_eq]
        omega

theorem isValid_date : p.date.isValid = true := by
  have days := p.dayOfMonth_le_daysInMonth
  have month_le := p.month_spec.1
  have months : 1 ≤ p.date.month ∧ p.date.month ≤ 12 ∧ p.date.day = p.dayOfMonth := by
    unfold date
    split <;> refine ⟨?_, ?_, rfl⟩ <;> simp only <;> omega
  obtain ⟨least, most, isDay⟩ := months
  have first : 1 ≤ p.dayOfMonth := Nat.le_add_left ..
  rw [← isDay] at days first
  simp [Date.isValid, least, most, first, days]

end MarchDay

/-- A day is read back from its date. -/
theorem Date.toDays_ofDays (days : Int) : (Date.ofDays days).toDays = days := by
  obtain ⟨p, same, isDate⟩ := MarchDay.exists_ofDays days
  rw [isDate, p.toDays_date, same]

/-- The date of any day exists, before 1970 and after. -/
theorem Date.isValid_ofDays (days : Int) : (Date.ofDays days).isValid = true := by
  obtain ⟨p, _, isDate⟩ := MarchDay.exists_ofDays days
  rw [isDate]
  exact p.isValid_date

theorem daysInMonth_le (year : Int) (month : Nat) : daysInMonth year month ≤ 31 := by
  unfold daysInMonth
  split
  · split <;> decide
  · split <;> decide

/-- The month and the day of a date have at most two digits. -/
theorem Date.le_of_isValid {d : Date} (valid : d.isValid = true) : d.month ≤ 12 ∧ d.day ≤ 31 := by
  simp only [Date.isValid, Bool.and_eq_true, decide_eq_true_eq] at valid
  obtain ⟨⟨⟨_, month_le⟩, _⟩, day_le⟩ := valid
  exact ⟨month_le, Nat.le_trans day_le (daysInMonth_le d.year d.month)⟩

end RunLedger.Time

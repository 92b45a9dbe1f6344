/-!
# Dates

Days of the proleptic Gregorian calendar, counted from the first of January 1970. A year is counted
from the first of March on, so that the leap day is the last day of its year.
-/

namespace Masthead.Calendar

/-- A day of the Gregorian calendar. -/
structure Date where
  year : Int
  month : Nat
  day : Nat
  deriving DecidableEq, Repr

/-- A day and a time on it. -/
structure Moment where
  date : Date
  hour : Nat
  minute : Nat
  second : Nat
  deriving DecidableEq, Repr

/-- Days in a cycle of 400 years. -/
def daysPerCycle : Int := 146097

/-- Days from the first of March of the year 0 to the first of January 1970. -/
def epochShift : Int := 719468

namespace Date

/-- The day that lies `days` after the first of January 1970. -/
def ofDays (days : Int) : Date :=
  let shifted := days + epochShift
  let cycle := shifted / daysPerCycle
  let dayOfCycle := (shifted % daysPerCycle).toNat
  -- With the leap days behind it taken off, every year has 365 days.
  let yearOfCycle :=
    (dayOfCycle - dayOfCycle / 1460 + dayOfCycle / 36524 - dayOfCycle / 146096) / 365
  let dayOfYear := dayOfCycle - (365 * yearOfCycle + yearOfCycle / 4 - yearOfCycle / 100)
  -- From March on, any five months in a row have 153 days.
  let monthFromMarch := (5 * dayOfYear + 2) / 153
  let day := dayOfYear - (153 * monthFromMarch + 2) / 5 + 1
  let month := if monthFromMarch < 10 then monthFromMarch + 3 else monthFromMarch - 9
  let year := (yearOfCycle : Int) + cycle * 400
  ⟨if month ≤ 2 then year + 1 else year, month, day⟩

/-- The days from the first of January 1970 to a day. -/
def toDays (date : Date) : Int :=
  let year := if date.month ≤ 2 then date.year - 1 else date.year
  let cycle := year / 400
  let yearOfCycle := (year % 400).toNat
  let monthFromMarch := if date.month > 2 then date.month - 3 else date.month + 9
  let dayOfYear := (153 * monthFromMarch + 2) / 5 + date.day - 1
  let dayOfCycle := yearOfCycle * 365 + yearOfCycle / 4 - yearOfCycle / 100 + dayOfYear
  cycle * daysPerCycle + (dayOfCycle : Int) - epochShift

def isLeapYear (year : Int) : Bool :=
  year % 4 == 0 && (year % 100 != 0 || year % 400 == 0)

def daysInMonth (year : Int) (month : Nat) : Nat :=
  if month == 2 then (if isLeapYear year then 29 else 28)
  else if month == 4 || month == 6 || month == 9 || month == 11 then 30 else 31

end Date

/-- Seconds since the beginning of 1970, in Universal Time. -/
abbrev Instant := Int

def secondsPerDay : Int := 86400

/-- The moment that a clock shows which is `offset` seconds ahead of Universal Time. -/
def Moment.ofInstant (offset : Int) (instant : Instant) : Moment :=
  let local' := instant + offset
  let second := (local' % secondsPerDay).toNat
  ⟨Date.ofDays (local' / secondsPerDay), second / 3600, second / 60 % 60, second % 60⟩

def isYearInRange (year : Int) : Bool :=
  -262143 ≤ year && year ≤ 262142

/-- Whether an instant lies in a year for which dates are computed. -/
def Instant.isInRange (instant : Instant) : Bool :=
  isYearInRange (Date.ofDays (instant / secondsPerDay)).year

end Masthead.Calendar

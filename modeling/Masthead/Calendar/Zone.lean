import Masthead.Text.White
import Masthead.Calendar.Date

/-!
# Time zones

How far the clocks of a zone are ahead of Universal Time. A zone keeps one offset all the year
round, or it has a season in which clocks are put forward; the season begins and ends on a certain
Sunday of a month, at a time told by one of three clocks.
-/

namespace Masthead.Calendar

/-- The clock by which the time of a change is told. -/
inductive ChangeClock
  | universal
  | standard
  | daylight
  deriving DecidableEq, Repr

/-- A Sunday of a month. -/
inductive SundayOfMonth
  | nth (count : Nat)
  | last
  deriving DecidableEq, Repr

/-- The yearly change to or from the season with clocks put forward. -/
structure ClockChange where
  month : Nat
  sunday : SundayOfMonth
  seconds : Int
  clock : ChangeClock
  deriving Repr

/-- The offset of a zone, in seconds ahead of Universal Time. -/
inductive ZoneRule
  | fixed (offset : Int)
  | seasonal (offset advance : Int) (begins ends : ClockChange)
  deriving Repr

namespace ClockChange

/-- The day of a year on which the change falls; day 3 of the epoch was a Sunday. -/
def day (change : ClockChange) (year : Int) : Int :=
  let onOrAfter (days : Int) : Int := days + (3 - days) % 7
  match change.sunday with
  | .nth count => onOrAfter (Date.toDays ⟨year, change.month, 1⟩) + 7 * ((count : Int) - 1)
  | .last => onOrAfter (Date.toDays ⟨year, change.month, Date.daysInMonth year change.month⟩ - 6)

/-- The instant of the change in a year, for a zone's offset and advance. -/
def instant (offset advance : Int) (change : ClockChange) (year : Int) : Instant :=
  let ahead := match change.clock with
    | .universal => 0
    | .standard => offset
    | .daylight => offset + advance
  change.day year * secondsPerDay + change.seconds - ahead

end ClockChange

namespace ZoneRule

/-- The offset that is in force at an instant. -/
def offsetAt : ZoneRule → Instant → Int
  | fixed offset, _ => offset
  | seasonal offset advance begins ends, instant =>
    -- The year of standard time will do, as no change lies near the turn of a year.
    let year := (Moment.ofInstant offset instant).date.year
    let first := begins.instant offset advance year
    let last := ends.instant offset advance year
    let isForward :=
      -- In the southern half of the world the season lasts over the turn of the year.
      if first ≤ last then first ≤ instant && instant < last
      else first ≤ instant || instant < last
    if isForward then offset + advance else offset

def universal : ZoneRule := fixed 0

private def hours (count : Int) : Int := 3600 * count

private def minutes (count : Int) : Int := 60 * count

/-- From the second Sunday of March to the first of November. -/
private def northAmerican (offset : Int) : ZoneRule :=
  seasonal offset (hours 1) ⟨3, .nth 2, hours 2, .standard⟩ ⟨11, .nth 1, hours 2, .daylight⟩

/-- From the last Sunday of March to the last of October. -/
private def european (offset : Int) : ZoneRule :=
  seasonal offset (hours 1) ⟨3, .last, hours 1, .universal⟩ ⟨10, .last, hours 1, .universal⟩

/-- The zones that are known by name: eighteen of them, each with the rule that has held since 2012
for every year. What the clocks of a zone did before, and all other zones, are out of scope; a
program with the whole database of zones tells another time there. -/
def named : List (Text × ZoneRule) := [
  ("UTC", universal),
  ("GMT", universal),
  ("Etc/GMT+5", fixed (hours (-5))),
  ("Etc/GMT-14", fixed (hours 14)),
  ("Asia/Seoul", fixed (hours 9)),
  ("Asia/Tokyo", fixed (hours 9)),
  ("Asia/Kolkata", fixed (hours 5 + minutes 30)),
  ("Asia/Kathmandu", fixed (hours 5 + minutes 45)),
  ("Pacific/Kiritimati", fixed (hours 14)),
  ("America/New_York", northAmerican (hours (-5))),
  ("America/Los_Angeles", northAmerican (hours (-8))),
  ("America/St_Johns", northAmerican (-(hours 3 + minutes 30))),
  ("Europe/London", european 0),
  ("Europe/Dublin", european 0),
  ("Europe/Berlin", european (hours 1)),
  ("Australia/Sydney",
    seasonal (hours 10) (hours 1) ⟨10, .nth 1, hours 2, .standard⟩ ⟨4, .nth 1, hours 2, .standard⟩),
  ("Australia/Lord_Howe",
    seasonal (hours 10 + minutes 30) (minutes 30)
      ⟨10, .nth 1, hours 2, .standard⟩ ⟨4, .nth 1, hours 2, .daylight⟩),
  ("Pacific/Chatham",
    seasonal (hours 12 + minutes 45) (hours 1)
      ⟨9, .last, hours 2 + minutes 45, .standard⟩ ⟨4, .nth 1, hours 2 + minutes 45, .standard⟩)]

/-- The zone of a name; blank, missing and unknown names mean Universal Time. So do the names of
zones that are out of scope. -/
def ofName (name : Option Text) : ZoneRule :=
  match name.bind fun text => valueOf? (Text.trim text) named with
  | some rule => rule
  | none => universal

end ZoneRule

end Masthead.Calendar

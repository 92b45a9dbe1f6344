import Masthead.Text.Pieces
import Masthead.Text.Numeral
import Masthead.Calendar.Zone

/-!
# Written dates

Dates are written by patterns of six tokens. The year has four characters at least and every other
part two; whatever is no token is copied.
-/

namespace Masthead.Calendar

/-- A part of a moment that a pattern names. -/
inductive DatePart
  | year
  | month
  | day
  | hour
  | minute
  | second
  deriving DecidableEq, Repr

namespace DatePart

def all : List DatePart := [year, month, day, hour, minute, second]

/-- The token that stands for a part in a pattern. -/
def written : DatePart → Text
  | year => "YYYY"
  | month => "MM"
  | day => "DD"
  | hour => "HH"
  | minute => "mm"
  | second => "ss"

/-- The token at the beginning of a text, with the characters it takes. -/
def read? (text : Text) : Option (DatePart × Nat) :=
  (all.find? fun part => Text.startsWith part.written text).map fun part =>
    (part, part.written.length)

def value (moment : Moment) : DatePart → Text
  | year => Text.paddedInteger 4 moment.date.year
  | month => Text.paddedDecimal 2 moment.date.month
  | day => Text.paddedDecimal 2 moment.date.day
  | hour => Text.paddedDecimal 2 moment.hour
  | minute => Text.paddedDecimal 2 moment.minute
  | second => Text.paddedDecimal 2 moment.second

end DatePart

/-- Writes a moment by a pattern. -/
def Moment.format (moment : Moment) (pattern : Text) : Text :=
  Text.render (DatePart.value moment) (Text.cut DatePart.read? pattern)

namespace Instant

/-- The moment shown by the clocks of a named zone. -/
def inZone (instant : Instant) (zone : Option Text) : Moment :=
  Moment.ofInstant ((ZoneRule.ofName zone).offsetAt instant) instant

/-- The year in Universal Time. -/
def year (instant : Instant) : Int :=
  (Moment.ofInstant 0 instant).date.year

/-- The day in a zone, with strokes between its parts. -/
def today (instant : Instant) (zone : Option Text) : Text :=
  (instant.inZone zone).format "YYYY/MM/DD"

/-- The day and time in a zone. -/
def timestamp (instant : Instant) (zone : Option Text) : Text :=
  (instant.inZone zone).format "YYYY-MM-DD HH:mm:ss"

def yearIn (instant : Instant) (zone : Option Text) : Text :=
  (instant.inZone zone).format "YYYY"

/-- The year in Universal Time, as text. -/
def currentYear (instant : Instant) : Text :=
  Text.paddedInteger 4 instant.year

/-- Whether a text is a year from 1900 to ten years after the instant. -/
def acceptsYear (instant : Instant) (text : Text) : Bool :=
  match Text.integer? (Text.trim text) with
  | some year => 1900 ≤ year && year ≤ instant.year + 10
  | none => false

end Instant

end Masthead.Calendar

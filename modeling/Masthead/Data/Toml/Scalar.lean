import Masthead.Data.Decimal
import Masthead.Data.Value
import Masthead.Calendar.Date

/-!
# Bare values

Values that are written without quotes and brackets: truth values, whole numbers in four bases,
numbers with a fraction or an exponent, and dates and times.
-/

namespace Masthead.Data.Toml

def isBareValue (character : Char) : Bool :=
  character.isAlphanum || "+-_.:".toList.contains character

/-- The digits of a numeral in which single underscores may stand between digits. -/
def underscored? (isDigit : Char → Bool) (text : Text) : Option Text :=
  let groups := Text.splitOn '_' text
  if groups.all fun group => !group.isEmpty && group.all isDigit then some groups.flatten else none

/-- Decimal digits without a zero in front of others. -/
def decimalDigits? (text : Text) : Option Text :=
  (underscored? Char.isDigit text).filter fun digits =>
    digits.length = 1 || digits.head? ≠ some '0'

/-- A numeral without its sign, and whether the sign is a minus. -/
def unsigned : Text → Bool × Text
  | '-' :: rest => (true, rest)
  | '+' :: rest => (false, rest)
  | text => (false, text)

/-- An integer with its sign. Integers have 128 bits, and only those without a sign use all of
them for the magnitude. -/
def signed? (isNegative : Bool) (magnitude : Nat) : Option Value :=
  if isNegative then
    if magnitude ≤ Nat.pow 2 127 then some (.integer (-(magnitude : Int))) else none
  else if magnitude < Nat.pow 2 128 then some (.integer magnitude) else none

/-- A numeral in a base that is named by a letter behind a zero. -/
def inBase? (base : Nat) (digits : Text) : Option Value := do
  let digits ← underscored? (fun character => (Text.digitValue? base character).isSome) digits
  let magnitude ← Text.natural? base digits
  signed? false magnitude

def integer? : Text → Option Value
  | '0' :: 'x' :: digits => inBase? 16 digits
  | '0' :: 'o' :: digits => inBase? 8 digits
  | '0' :: 'b' :: digits => inBase? 2 digits
  | text => do
    let (isNegative, rest) := unsigned text
    let digits ← decimalDigits? rest
    let magnitude ← Text.natural? 10 digits
    signed? isNegative magnitude

/-- Whether a text is an exponent behind its letter. -/
def isExponent (text : Text) : Bool :=
  (underscored? Char.isDigit (unsigned text).2).isSome

/-- Whether a text is a number with a fraction, an exponent or both, or one of the words for
what is no finite number. -/
def isFractional (text : Text) : Bool :=
  let rest := (unsigned text).2
  let mantissa := rest.takeWhile fun character => !Decimal.isExponentLetter character
  let exponent := rest.dropWhile fun character => !Decimal.isExponentLetter character
  let isWhole (digits : Text) : Bool := (decimalDigits? digits).isSome
  let exponentFits := exponent.isEmpty || isExponent (exponent.drop 1)
  if rest = ("inf" : Text) ∨ rest = ("nan" : Text) then true
  else match Text.splitOn '.' mantissa with
    | [whole] => isWhole whole && !exponent.isEmpty && exponentFits
    | [whole, fraction] =>
      isWhole whole && (underscored? Char.isDigit fraction).isSome && exponentFits
    | _ => false

/-! ## Dates and times -/

/-- A number of exactly `count` digits at the beginning of a text. -/
def digits? (count : Nat) (text : Text) : Option (Nat × Text) :=
  let digits := text.take count
  if digits.length = count ∧ digits.all Char.isDigit then
    (Text.natural? 10 digits).map fun number => (number, text.drop count)
  else none

/-- A day of the calendar at the beginning of a text, and what follows it. -/
def day? (text : Text) : Option (Text × Text) := do
  let (year, rest) ← digits? 4 text
  let rest ← Text.after? "-" rest
  let (month, rest) ← digits? 2 rest
  let rest ← Text.after? "-" rest
  let (day, rest) ← digits? 2 rest
  if 1 ≤ month ∧ month ≤ 12 ∧ 1 ≤ day ∧ day ≤ Calendar.Date.daysInMonth year month then
    some (text.take 10, rest)
  else none

/-- An hour and a minute at the beginning of a text, and what follows them. -/
def minutes? (text : Text) : Option (Text × Text) := do
  let (hour, rest) ← digits? 2 text
  let rest ← Text.after? ":" rest
  let (minute, rest) ← digits? 2 rest
  if hour ≤ 23 ∧ minute ≤ 59 then some (text.take 5, rest) else none

/-- How many digits of a fraction of a second count. -/
def fractionLimit : Nat := 9

/-- A fraction of a second in as few digits as are needed. -/
def fractionText (digits : Text) : Text :=
  let kept := ((digits.take fractionLimit).reverse.dropWhile (· == '0')).reverse
  if kept.isEmpty then [] else '.' :: kept

/-- The seconds of a time, and what follows them. Without any the minute has just begun. -/
def seconds? : Text → Option (Text × Text)
  | ':' :: text => do
    let (second, rest) ← digits? 2 text
    let written := ':' :: text.take 2
    -- A leap second has the number 60.
    if second > 60 then none
    else match rest with
      | '.' :: fraction =>
        let digits := fraction.takeWhile Char.isDigit
        if digits.isEmpty then none
        else some (written ++ fractionText digits, fraction.dropWhile Char.isDigit)
      | _ => some (written, rest)
  | text => some (":00", text)

/-- A time of day at the beginning of a text, and what follows it. -/
def time? (text : Text) : Option (Text × Text) := do
  let (minutes, rest) ← minutes? text
  let (seconds, after) ← seconds? rest
  some (minutes ++ seconds, after)

/-- The offset from Universal Time that a text is, which may be empty. -/
def offset? : Text → Option Text
  | [] => some []
  | ['Z'] => some ['Z']
  | ['z'] => some ['Z']
  | sign :: offset =>
    if sign = '+' ∨ sign = '-' then
      match minutes? offset with
      | some (minutes, []) =>
        -- No offset at all is written with a plus, whichever sign it had.
        some (if minutes = ("00:00" : Text) then "+00:00" else sign :: minutes)
      | _ => none
    else none

/-- A day, a time of day, or both with an offset or without, in their full form. -/
def moment? (text : Text) : Option Text :=
  match day? text with
  | none =>
    match time? text with
    | some (time, []) => some time
    | _ => none
  | some (day, []) => some day
  | some (day, separator :: rest) =>
    if separator = 'T' ∨ separator = 't' ∨ separator = ' ' then do
      let (time, after) ← time? rest
      let offset ← offset? after
      some (day ++ ('T' :: time) ++ offset)
    else none

/-- The key under which a table holds the text of a day or a time. -/
def momentKey : Text := "$__toml_private_datetime"

/-! ## Bare values -/

/-- The value of a bare text. A day or a time becomes a table with its text. -/
def bare? (text : Text) : Option Value :=
  if text = ("true" : Text) then some (.boolean true)
  else if text = ("false" : Text) then some (.boolean false)
  else match integer? text with
    | some value => some value
    | none =>
      if isFractional text then
        if (Decimal.ofNumeral (text.filter (· ≠ '_'))).isOverflowing then none
        else some (.number text)
      else (moment? text).map fun moment => .table [(momentKey, .text moment)]

/-- The bare value that a text begins with. A blank between a day and a time belongs to it. -/
def readBare? (text : Text) : Option (Value × Text) :=
  let first := text.takeWhile isBareValue
  let rest := text.dropWhile isBareValue
  match rest with
  | ' ' :: character :: more =>
    if (day? first).any (·.2.isEmpty) ∧ character.isDigit then
      let second := (character :: more).takeWhile isBareValue
      (bare? (first ++ (' ' :: second))).map fun value =>
        (value, (character :: more).dropWhile isBareValue)
    else (bare? first).map fun value => (value, rest)
  | _ => (bare? first).map fun value => (value, rest)

end Masthead.Data.Toml

import Masthead.Text.Basic

/-!
# Decimal numerals

Whole numbers as decimal texts, with leading zeros up to a width, and the numbers that such texts
denote.
-/

namespace Masthead.Text

def digitCharacter (digit : Nat) : Char :=
  Char.ofNat ('0'.toNat + digit % 10)

/-- The decimal numeral without leading zeros. -/
def decimal (number : Nat) : Text :=
  if number < 10 then [digitCharacter number]
  else decimal (number / 10) ++ [digitCharacter number]

/-- Zeros in front of `text` up to `width` characters. -/
def zeroPadded (width : Nat) (text : Text) : Text :=
  List.replicate (width - text.length) '0' ++ text

/-- The decimal numeral with at least `width` digits. -/
def paddedDecimal (width number : Nat) : Text :=
  zeroPadded width (decimal number)

/-- The numeral of an integer in at least `width` characters, its sign among them. -/
def paddedInteger (width : Nat) (number : Int) : Text :=
  if number < 0 then '-' :: paddedDecimal (width - 1) number.natAbs
  else paddedDecimal width number.natAbs

def integer (number : Int) : Text :=
  paddedInteger 0 number

/-- The value of a digit in a base up to sixteen. -/
def digitValue? (base : Nat) (character : Char) : Option Nat :=
  let value :=
    if '0' ≤ character ∧ character ≤ '9' then some (character.toNat - '0'.toNat)
    else if 'a' ≤ character ∧ character ≤ 'f' then some (character.toNat - 'a'.toNat + 10)
    else if 'A' ≤ character ∧ character ≤ 'F' then some (character.toNat - 'A'.toNat + 10)
    else none
  value.filter (· < base)

/-- The number with the digits of `text` behind those of `sofar`. -/
def readDigits? (base : Nat) (sofar : Nat) : Text → Option Nat
  | [] => some sofar
  | character :: rest =>
    match digitValue? base character with
    | some digit => readDigits? base (sofar * base + digit) rest
    | none => none

/-- The number that a non-empty text of digits denotes. -/
def natural? (base : Nat) (text : Text) : Option Nat :=
  if text.isEmpty then none else readDigits? base 0 text

/-- The number of a decimal numeral that is at most `limit`. -/
def naturalUpTo? (limit : Nat) (text : Text) : Option Nat :=
  (natural? 10 text).filter (· ≤ limit)

/-- The integer of a decimal numeral with an optional sign. -/
def integer? : Text → Option Int
  | '-' :: digits => (natural? 10 digits).map fun magnitude => -(magnitude : Int)
  | '+' :: digits => (natural? 10 digits).map fun magnitude => (magnitude : Int)
  | digits => (natural? 10 digits).map fun magnitude => (magnitude : Int)

end Masthead.Text

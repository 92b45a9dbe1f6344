import Masthead.Text.Numeral

/-!
# Decimals

Quotients of whole numbers, decimals that are digits times a power of ten, and the decimal that a
numeral denotes. A numeral may be so great that no number can be held for it.
-/

namespace Masthead.Data

/-- A quotient of whole numbers; the denominator is not zero. -/
structure Ratio where
  numerator : Nat
  denominator : Nat

namespace Ratio

def lessOrEqual (ratio other : Ratio) : Bool :=
  ratio.numerator * other.denominator ≤ other.numerator * ratio.denominator

def lessThan (ratio other : Ratio) : Bool :=
  ratio.numerator * other.denominator < other.numerator * ratio.denominator

/-- The ratio times a power of `base`. -/
def scale (ratio : Ratio) (base : Nat) (exponent : Int) : Ratio :=
  ⟨ratio.numerator * Nat.pow base exponent.toNat, ratio.denominator * Nat.pow base (-exponent).toNat⟩

def floor (ratio : Ratio) : Nat :=
  ratio.numerator / ratio.denominator

end Ratio

/-- A decimal `digits * 10 ^ exponent`. -/
structure Decimal where
  digits : Nat
  exponent : Int

def Decimal.ratio (decimal : Decimal) : Ratio :=
  (Ratio.mk decimal.digits 1).scale 10 decimal.exponent

namespace Decimal

def isExponentLetter (character : Char) : Bool :=
  character == 'e' || character == 'E'

/-- The magnitude of a numeral, which may have a sign, a fraction and an exponent. -/
def ofNumeral (numeral : Text) : Decimal :=
  let unsigned := numeral.dropWhile fun character => character == '+' || character == '-'
  let mantissa := unsigned.takeWhile fun character => !isExponentLetter character
  let exponent := (unsigned.dropWhile fun character => !isExponentLetter character).drop 1
  let whole := mantissa.takeWhile (· ≠ '.')
  let fraction := (mantissa.dropWhile (· ≠ '.')).drop 1
  ⟨(Text.natural? 10 (whole ++ fraction)).getD 0,
    (Text.integer? exponent).getD 0 - fraction.length⟩

/-- The least magnitude that is too great for a binary fraction of 53 digits and an exponent of
eleven: half a step above the greatest one. -/
def overflowLimit : Nat := Nat.pow 2 1024 - Nat.pow 2 970

/-- The count of digits in the limit. -/
def overflowDigits : Nat := 309

/-- Whether a decimal is too great to be held. Only among those with as many digits as the limit
are the numbers compared, so that no great power of ten is needed. -/
def isOverflowing (decimal : Decimal) : Bool :=
  let size := (Text.decimal decimal.digits).length + decimal.exponent
  if decimal.digits = 0 ∨ size < overflowDigits then false
  else if overflowDigits < size then true
  else (Ratio.mk overflowLimit 1).lessOrEqual decimal.ratio

end Decimal

end Masthead.Data

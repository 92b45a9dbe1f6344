import Masthead.Data.Decimal

/-!
# Shortest decimals

A number of seconds is held in a binary fraction of 53 digits. It is written with the fewest
decimal digits that read back as the same fraction, and of those with the ones nearest to it.
All comparisons are made between whole numbers.
-/

namespace Masthead.Data

/-- A binary fraction `mantissa * 2 ^ exponent`. At the lower edge of a binade the next smaller
fraction lies only half as far away as the next greater one. -/
structure BinaryFraction where
  mantissa : Nat
  exponent : Int
  isLowerEdge : Bool

namespace BinaryFraction

/-- The parts of a finite number that is not negative. -/
def ofFloat (number : Float) : BinaryFraction :=
  let bits := number.toBits.toNat
  let biased : Nat := bits / Nat.pow 2 52 % 2048
  let fraction : Nat := bits % Nat.pow 2 52
  ⟨if biased = 0 then fraction else fraction + Nat.pow 2 52, ((max biased 1 : Nat) : Int) - 1075,
    fraction == 0 && 1 < biased⟩

def ratio (fraction : BinaryFraction) : Ratio :=
  (Ratio.mk fraction.mantissa 1).scale 2 fraction.exponent

/-- Whether a decimal is read back as this fraction: it lies nearer to it than to its neighbours,
or halfway if the mantissa is even. -/
def absorbs (fraction : BinaryFraction) (decimal : Decimal) : Bool :=
  -- In quarters of the last digit the points halfway to both neighbours are whole numbers.
  let quarters := 4 * fraction.mantissa
  let low :=
    (Ratio.mk (quarters - if fraction.isLowerEdge then 1 else 2) 4).scale 2 fraction.exponent
  let high := (Ratio.mk (quarters + 2) 4).scale 2 fraction.exponent
  let value := decimal.ratio
  if fraction.mantissa % 2 = 0 then low.lessOrEqual value && value.lessOrEqual high
  else low.lessThan value && value.lessThan high

/-- The exponent of ten just above a positive ratio, searched among `fuel` many below one. -/
def magnitudeBelowOne (ratio : Ratio) : (fuel : Nat) → Int
  | 0 => 0
  | fuel + 1 =>
    if ratio.denominator ≤ ratio.numerator * 10 then 0
    else magnitudeBelowOne ⟨ratio.numerator * 10, ratio.denominator⟩ fuel - 1

/-- The exponent of ten just above a positive ratio. -/
def magnitude (ratio : Ratio) : Int :=
  if ratio.denominator ≤ ratio.numerator then (Text.decimal ratio.floor).length
  else magnitudeBelowOne ratio 400

/-- The decimals of some count of digits next to the fraction, the nearer one first. -/
def neighbours (fraction : BinaryFraction) (count : Nat) : List Decimal :=
  let exponent := magnitude fraction.ratio - count
  let scaled := fraction.ratio.scale 10 (-exponent)
  let below := scaled.floor
  let remainder := 2 * (scaled.numerator - below * scaled.denominator)
  let isBelowNearer := remainder < scaled.denominator
    || (remainder == scaled.denominator && below % 2 == 0)
  let decimals := [⟨below, exponent⟩, ⟨below + 1, exponent⟩]
  if isBelowNearer then decimals else decimals.reverse

/-- The shortest decimal that is read back as the fraction. -/
def shortest (fraction : BinaryFraction) : Decimal :=
  if fraction.mantissa = 0 then ⟨0, 0⟩
  else
    -- Seventeen decimal digits tell any two fractions of 53 binary digits apart.
    ((List.range 17).findSome? fun count =>
      (fraction.neighbours (count + 1)).find? fraction.absorbs).getD ⟨0, 0⟩

end BinaryFraction

namespace Decimal

/-- Numbers below this power of ten are written without an exponent. -/
def plainUpTo : Int := 16

/-- Numbers from this power of ten on are written without an exponent. -/
def plainFrom : Int := -4

/-- A decimal with a point, and an exponent only where it is very great or small. -/
def text (decimal : Decimal) : Text :=
  if decimal.digits = 0 then "0.0"
  else
    let digits := Text.decimal decimal.digits
    let point := (digits.length : Int) + decimal.exponent
    if 0 ≤ decimal.exponent ∧ point ≤ plainUpTo then
      digits ++ List.replicate decimal.exponent.toNat '0' ++ ".0".toList
    else if 0 < point ∧ point ≤ plainUpTo then
      digits.take point.toNat ++ ('.' :: digits.drop point.toNat)
    else if plainFrom ≤ point ∧ point ≤ 0 then
      "0.".toList ++ List.replicate (-point).toNat '0' ++ digits
    else
      let fraction : Text := if digits.length = 1 then [] else '.' :: digits.drop 1
      let sign : Text := if 0 < point then "e+" else "e"
      digits.take 1 ++ fraction ++ sign ++ Text.integer (point - 1)

end Decimal

def secondsText (milliseconds : Nat) : Text :=
  let seconds := Float.ofNat (milliseconds / 1000)
  let part := Float.ofNat (milliseconds % 1000 * 1000000) / 1000000000
  (BinaryFraction.ofFloat (seconds + part)).shortest.text

end Masthead.Data

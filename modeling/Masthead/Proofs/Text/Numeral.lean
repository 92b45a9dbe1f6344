import Masthead.Text.Numeral
import Masthead.Text.Word

/-!
# Numerals read back

A decimal numeral has digits in it and nothing else, and read as a number it is the number that it
has been written for, with zeros in front of it or without. A greater number has no shorter numeral.
-/

namespace Masthead.Text

/-- The digits that numerals are written with. -/
def decimalDigits : Text := "0123456789"

theorem digitCharacter_mem (digit : Nat) : digitCharacter digit ∈ decimalDigits := by
  have digits : ∀ digit < 10, Char.ofNat ('0'.toNat + digit) ∈ decimalDigits := by decide
  exact digits _ (Nat.mod_lt _ (by decide))

theorem digitValue?_digitCharacter (digit : Nat) : digitValue? 10 (digitCharacter digit) = some (digit % 10) := by
  have digits : ∀ digit < 10, digitValue? 10 (Char.ofNat ('0'.toNat + digit)) = some digit := by decide
  exact digits _ (Nat.mod_lt _ (by decide))

/-! ## Characters of numerals -/

theorem mem_decimalDigits_of_mem_decimal {number : Nat} {character : Char} (member : character ∈ decimal number) :
    character ∈ decimalDigits := by
  induction number using decimal.induct with
  | case1 number small =>
    rw [decimal, if_pos small, List.mem_singleton] at member
    exact member ▸ digitCharacter_mem number
  | case2 number large inductionHypothesis =>
    rw [decimal, if_neg large, List.mem_append, List.mem_singleton] at member
    rcases member with member | rfl
    · exact inductionHypothesis member
    · exact digitCharacter_mem number

theorem mem_decimalDigits_of_mem_paddedDecimal {width number : Nat} {character : Char}
    (member : character ∈ paddedDecimal width number) : character ∈ decimalDigits := by
  rw [paddedDecimal, zeroPadded, List.mem_append] at member
  rcases member with member | member
  · rw [List.eq_of_mem_replicate member]
    decide
  · exact mem_decimalDigits_of_mem_decimal member

theorem of_mem_paddedInteger {width : Nat} {number : Int} {character : Char}
    (member : character ∈ paddedInteger width number) : character = '-' ∨ character ∈ decimalDigits := by
  unfold paddedInteger at member
  split at member
  · exact (List.mem_cons.mp member).imp_right mem_decimalDigits_of_mem_paddedDecimal
  · exact .inr (mem_decimalDigits_of_mem_paddedDecimal member)

theorem isDigit_of_mem_decimalDigits {character : Char} (member : character ∈ decimalDigits) :
    isDigit character = true := by
  have digits : decimalDigits.all isDigit = true := by decide
  exact List.all_eq_true.mp digits character member

theorem decimal_ne_nil (number : Nat) : decimal number ≠ [] := by
  rw [decimal]
  split <;> simp

theorem paddedDecimal_ne_nil (width number : Nat) : paddedDecimal width number ≠ [] :=
  List.append_ne_nil_of_right_ne_nil _ (decimal_ne_nil number)

theorem paddedInteger_ne_nil (width : Nat) (number : Int) : paddedInteger width number ≠ [] := by
  unfold paddedInteger
  split
  · exact List.cons_ne_nil _ _
  · exact paddedDecimal_ne_nil _ _

/-! ## Lengths of numerals -/

/-- The numeral of a greater number is no shorter. -/
theorem length_decimal_le {number other : Nat} (le : number ≤ other) :
    (decimal number).length ≤ (decimal other).length := by
  induction number using decimal.induct generalizing other with
  | case1 number small =>
    rw [decimal, if_pos small]
    exact List.length_pos_iff.mpr (decimal_ne_nil other)
  | case2 number large inductionHypothesis =>
    have otherLarge : ¬ other < 10 := by omega
    have shorter := inductionHypothesis (Nat.div_le_div_right le)
    rw [decimal.eq_def number, if_neg large, decimal.eq_def other, if_neg otherLarge, List.length_append, List.length_append]
    exact Nat.add_le_add_right shorter _

theorem length_paddedDecimal (width number : Nat) :
    (paddedDecimal width number).length = max width (decimal number).length := by
  rw [paddedDecimal, zeroPadded, List.length_append, List.length_replicate]
  omega

theorem length_paddedDecimal_le {number other : Nat} (width : Nat) (le : number ≤ other) :
    (paddedDecimal width number).length ≤ (paddedDecimal width other).length := by
  have shorter := length_decimal_le le
  rw [length_paddedDecimal, length_paddedDecimal]
  omega

/-! ## Numbers of numerals -/

theorem readDigits?_append (base sofar : Nat) (text more : Text) :
    readDigits? base sofar (text ++ more)
      = (readDigits? base sofar text).bind fun number => readDigits? base number more := by
  induction text generalizing sofar with
  | nil => rfl
  | cons character text inductionHypothesis =>
    rw [List.cons_append, readDigits?, readDigits?]
    cases digitValue? base character with
    | none => rfl
    | some digit => exact inductionHypothesis _

theorem readDigits?_decimal (number : Nat) : readDigits? 10 0 (decimal number) = some number := by
  induction number using decimal.induct with
  | case1 number small =>
    rw [decimal, if_pos small, readDigits?, digitValue?_digitCharacter]
    dsimp only
    rw [readDigits?, Nat.mod_eq_of_lt small, Nat.zero_mul, Nat.zero_add]
  | case2 number large inductionHypothesis =>
    rw [decimal, if_neg large, readDigits?_append, inductionHypothesis, Option.bind_some, readDigits?,
      digitValue?_digitCharacter]
    dsimp only
    rw [readDigits?, Nat.div_add_mod']

theorem natural?_decimal (number : Nat) : natural? 10 (decimal number) = some number := by
  rw [natural?, if_neg (by simpa using decimal_ne_nil number), readDigits?_decimal]

theorem natural?_paddedDecimal (width number : Nat) : natural? 10 (paddedDecimal width number) = some number := by
  have zeros (count : Nat) : readDigits? 10 0 (List.replicate count '0') = some 0 := by
    induction count with
    | zero => rfl
    | succ count inductionHypothesis => exact inductionHypothesis
  rw [natural?, if_neg (by simpa using paddedDecimal_ne_nil width number), paddedDecimal, zeroPadded,
    readDigits?_append, zeros, Option.bind_some, readDigits?_decimal]

theorem eq_of_paddedDecimal_eq {width number other : Nat} (same : paddedDecimal width number = paddedDecimal width other) :
    number = other := by
  have read := natural?_paddedDecimal width number
  rw [same, natural?_paddedDecimal] at read
  exact (Option.some.inj read).symm

theorem naturalUpTo?_paddedDecimal {limit number : Nat} (width : Nat) (within : number ≤ limit) :
    naturalUpTo? limit (paddedDecimal width number) = some number := by
  rw [naturalUpTo?, natural?_paddedDecimal, Option.filter_some, if_pos (by simpa using within)]

end Masthead.Text

import Masthead.Text.Numeral
import Masthead.Proofs.Text.Pieces

/-!
# Texts within one line

A text that holds no part of a terminator can stand within a line. Numerals can, and so can what is
rendered from pieces that can.
-/

namespace Masthead

open Text

/-- A text that holds no part of a terminator. -/
def Unbroken (text : Text) : Prop :=
  '\n' ∉ text ∧ '\r' ∉ text

instance (text : Text) : Decidable (Unbroken text) :=
  inferInstanceAs (Decidable ('\n' ∉ text ∧ '\r' ∉ text))

namespace Unbroken

theorem of_subset {text other : Text} (unbroken : Unbroken other) (inside : ∀ character ∈ text, character ∈ other) :
    Unbroken text :=
  ⟨fun member => unbroken.1 (inside _ member), fun member => unbroken.2 (inside _ member)⟩

theorem append {text other : Text} (unbroken : Unbroken text) (otherUnbroken : Unbroken other) :
    Unbroken (text ++ other) :=
  ⟨fun member => (List.mem_append.mp member).elim unbroken.1 otherUnbroken.1,
    fun member => (List.mem_append.mp member).elim unbroken.2 otherUnbroken.2⟩

theorem cons {character : Char} {text : Text} (single : Unbroken [character]) (unbroken : Unbroken text) :
    Unbroken (character :: text) :=
  single.append unbroken

theorem replicate {character : Char} (single : Unbroken [character]) (count : Nat) :
    Unbroken (List.replicate count character) :=
  single.of_subset fun _ member => List.mem_singleton.mpr (List.eq_of_mem_replicate member)

/-- A template that is filled token by token stays within one line if what is written for the tokens does. -/
theorem render_cut {Token : Type} {read? : Text → Option (Token × Nat)} {write : Token → Text} {text : Text}
    (unbroken : Unbroken text) (written : ∀ token, .token token ∈ cut read? text → Unbroken (write token)) :
    Unbroken (Text.render write (cut read? text)) := by
  constructor <;> intro member <;> rcases mem_render_iff.mp member with member | ⟨token, member, inside⟩
  · exact unbroken.1 (mem_of_plain_mem_cut member)
  · exact (written token member).1 inside
  · exact unbroken.2 (mem_of_plain_mem_cut member)
  · exact (written token member).2 inside

/-! ## Numerals -/

theorem digitCharacter (digit : Nat) : Unbroken [Text.digitCharacter digit] := by
  have digits : ∀ digit < 10, Unbroken [Char.ofNat ('0'.toNat + digit)] := by decide
  exact digits _ (Nat.mod_lt _ (by decide))

theorem decimal (number : Nat) : Unbroken (Text.decimal number) := by
  induction number using Text.decimal.induct with
  | case1 number small =>
    rw [Text.decimal, if_pos small]
    exact digitCharacter number
  | case2 number large inductionHypothesis =>
    rw [Text.decimal, if_neg large]
    exact inductionHypothesis.append (digitCharacter number)

theorem paddedDecimal (width number : Nat) : Unbroken (Text.paddedDecimal width number) :=
  (replicate (by decide) _).append (decimal number)

theorem paddedInteger (width : Nat) (number : Int) : Unbroken (Text.paddedInteger width number) := by
  unfold Text.paddedInteger
  split
  · exact cons (by decide) (paddedDecimal _ _)
  · exact paddedDecimal _ _

end Unbroken

end Masthead

import Masthead.Text.Basic
import Masthead.Text.Case

/-!
# Signs in lower case

Lowering a text makes no new signs: a character below the letters of ASCII stands in the lower case
of a text only where it stood in the text.
-/

namespace Masthead.Text

theorem caseRuns_reach_no_sign : ∀ run ∈ caseRuns, 0x41 ≤ (run.first : Int) + run.offset := by
  decide +kernel

theorem toLower_of_low : ∀ code < 0x80, (Char.ofNat code).toLower.toNat < 0x41 →
    (Char.ofNat code).toLower = Char.ofNat code := by
  decide

theorem toNat_of_ofNat_eq {code : Nat} {character : Char} (equal : Char.ofNat code = character)
    (positive : 0 < character.toNat) : character.toNat = code := by
  subst equal
  unfold Char.ofNat at positive ⊢
  by_cases valid : code.isValidChar
  · rw [dif_pos valid]
    rfl
  · rw [dif_neg valid] at positive
    exact absurd positive (by decide)

/-- Only a sign itself becomes a sign in lower case. -/
theorem eq_of_lowerCharacter {character mark : Char} {more : Text} (positive : 0 < mark.toNat)
    (low : mark.toNat < 0x41) (lowered : lowerCharacter character = mark :: more) :
    character = mark ∧ more = [] := by
  unfold lowerCharacter at lowered
  split at lowered
  · next ascii =>
    simp only [List.cons.injEq] at lowered
    have unchanged := toLower_of_low character.toNat ascii
    rw [Char.ofNat_toNat, lowered.1] at unchanged
    exact ⟨(unchanged low).symm, lowered.2.symm⟩
  · split at lowered
    · -- The dotted capital of Turkish becomes a letter with a mark.
      simp only [List.cons.injEq] at lowered
      rw [← lowered.1] at low
      exact absurd low (by decide)
    · split at lowered
      · next run found =>
        simp only [List.cons.injEq] at lowered
        -- No run of the table reaches below the letters.
        have reach := caseRuns_reach_no_sign run (List.mem_of_find?_eq_some found)
        have held := List.find?_some found
        simp only [CaseRun.holds, Bool.and_eq_true, decide_eq_true_eq] at held
        have value := toNat_of_ofNat_eq lowered.1 positive
        omega
      · simp only [List.cons.injEq] at lowered
        exact ⟨lowered.1, lowered.2.symm⟩

theorem lowerCharacter_ne_nil (character : Char) : lowerCharacter character ≠ [] := by
  unfold lowerCharacter
  split
  · simp
  · split
    · simp
    · split <;> simp

/-- A sign at the beginning of the lower case stood at the beginning of the text. -/
theorem eq_of_lowerAfter {mark : Char} {before text more : Text} (positive : 0 < mark.toNat)
    (low : mark.toNat < 0x41) (lowered : lowerAfter before text = mark :: more) :
    ∃ rest, text = mark :: rest ∧ lowerAfter (mark :: before) rest = more := by
  cases text with
  | nil => cases lowered
  | cons character rest =>
    simp only [lowerAfter] at lowered
    split at lowered
    · -- The sigma has two small forms, and neither is a sign.
      have head := congrArg List.head? lowered
      split at head
      all_goals
        simp only [List.cons_append, List.nil_append, List.head?_cons, Option.some.injEq] at head
        rw [← head] at low
        exact absurd low (by decide)
    · cases form : lowerCharacter character with
      | nil => exact absurd form (lowerCharacter_ne_nil character)
      | cons first others =>
        rw [form, List.cons_append, List.cons.injEq] at lowered
        obtain ⟨rfl, rfl⟩ := eq_of_lowerCharacter positive low (lowered.1 ▸ form)
        exact ⟨rest, rfl, by simpa using lowered.2⟩

end Masthead.Text

import Masthead.Diff.Script

/-!
# Equal lines on both sides

Lines that stand one behind the other on both sides and are the same, found by counting them from
their beginning or from their end.
-/

namespace Masthead.Diff.Sides

variable {sides : Sides} {old new count more : Nat}

/-- Whether so many lines from two positions on are the same on both sides. -/
def Agrees (sides : Sides) (old new count : Nat) : Prop :=
  ∀ index < count, sides.old[old + index]? = sides.new[new + index]?

theorem agrees_zero (sides : Sides) (old new : Nat) : sides.Agrees old new 0 :=
  fun _ before => nomatch before

theorem agrees_add_iff : sides.Agrees old new (count + more) ↔
    sides.Agrees old new count ∧ sides.Agrees (old + count) (new + count) more := by
  constructor
  · intro agrees
    refine ⟨fun index before => agrees index (by omega), fun index before => ?_⟩
    rw [Nat.add_assoc, Nat.add_assoc]
    exact agrees (count + index) (by omega)
  · rintro ⟨first, second⟩ index before
    by_cases early : index < count
    · exact first index early
    · have later := second (index - count) (by omega)
      rwa [show old + count + (index - count) = old + index by omega,
        show new + count + (index - count) = new + index by omega] at later

theorem Agrees.slice_eq (agrees : sides.Agrees old new count) :
    (sides.old.toList.drop old).take count = (sides.new.toList.drop new).take count := by
  refine List.ext_getElem? fun index => ?_
  rw [List.getElem?_take, List.getElem?_take]
  split
  · next before => simpa using agrees index before
  · rfl

/-! ## Counting from the beginning -/

theorem equalAhead_le (sides : Sides) (old new limit : Nat) : sides.equalAhead old new limit ≤ limit := by
  fun_induction equalAhead sides old new limit with
  | case1 => exact Nat.le_refl _
  | case2 old new limit same inductionHypothesis => omega
  | case3 => exact Nat.zero_le _

theorem agrees_equalAhead (sides : Sides) (old new limit : Nat) :
    sides.Agrees old new (sides.equalAhead old new limit) := by
  fun_induction equalAhead sides old new limit with
  | case1 => exact agrees_zero _ _ _
  | case2 old new limit same inductionHypothesis =>
    rw [Nat.add_comm, agrees_add_iff]
    refine ⟨fun index before => ?_, inductionHypothesis⟩
    rw [Nat.lt_one_iff.mp before]
    exact beq_iff_eq.mp same
  | case3 => exact agrees_zero _ _ _

/-- Lines that are the same are all counted. -/
theorem equalAhead_of_agrees {limit : Nat} (agrees : sides.Agrees old new limit) :
    sides.equalAhead old new limit = limit := by
  induction limit generalizing old new with
  | zero => rfl
  | succ limit inductionHypothesis =>
    rw [Nat.add_comm, agrees_add_iff] at agrees
    have same : sides.agree old new = true := beq_iff_eq.mpr (agrees.1 0 Nat.zero_lt_one)
    rw [equalAhead, if_pos same, inductionHypothesis agrees.2]

/-! ## Counting from the end -/

theorem equalBehind_le (sides : Sides) (old new limit : Nat) : sides.equalBehind old new limit ≤ limit := by
  fun_induction equalBehind sides old new limit with
  | case1 => exact Nat.le_refl _
  | case2 old new limit same inductionHypothesis => omega
  | case3 => exact Nat.zero_le _

theorem agrees_equalBehind {limit : Nat} (oldRoom : limit ≤ old) (newRoom : limit ≤ new) :
    sides.Agrees (old - sides.equalBehind old new limit) (new - sides.equalBehind old new limit)
      (sides.equalBehind old new limit) := by
  fun_induction equalBehind sides old new limit with
  | case1 => exact agrees_zero _ _ _
  | case2 old new limit same inductionHypothesis =>
    have bound := equalBehind_le sides (old - 1) (new - 1) limit
    rw [agrees_add_iff]
    refine ⟨?_, fun index before => ?_⟩
    · rw [Nat.add_comm, ← Nat.sub_sub, ← Nat.sub_sub]
      exact inductionHypothesis (by omega) (by omega)
    · rw [Nat.lt_one_iff.mp before]
      have last := beq_iff_eq.mp same
      rwa [show old - (equalBehind sides (old - 1) (new - 1) limit + 1) + equalBehind sides (old - 1) (new - 1) limit + 0
          = old - 1 by omega,
        show new - (equalBehind sides (old - 1) (new - 1) limit + 1) + equalBehind sides (old - 1) (new - 1) limit + 0
          = new - 1 by omega]
  | case3 => exact agrees_zero _ _ _

end Masthead.Diff.Sides

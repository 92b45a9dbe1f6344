import Masthead.Diff.Unified
import Masthead.Proofs.Diff.Compaction

/-!
# Hunks hold all changes

The blocks are cut into hunks by leaving out kept lines only. What stands between two hunks, before the first or behind
the last one, is therefore the same on both sides.
-/

namespace Masthead.Diff

variable {sides : Sides} {start stop here : Nat × Nat} {old new size count more : Nat} {block : Block}
  {blocks others current : List Block}

/-- Whether some blocks begin with kept lines. -/
def BeginsKept : List Block → Prop
  | .keep _ _ _ :: _ => True
  | _ => False

/-- Hunks that lead from one place to another, with lines between them that are the same on both sides. Where such lines
are left out before a hunk, it begins with some that are kept. -/
inductive Hunks (sides : Sides) : Nat × Nat → List (List Block) → Nat × Nat → Prop
  | nil {old new count : Nat} (agrees : sides.Agrees old new count) : Hunks sides (old, new) [] (old + count, new + count)
  | cons {old new count : Nat} {between stop : Nat × Nat} {hunk : List Block} {hunks : List (List Block)}
    (agrees : sides.Agrees old new count) (kept : count = 0 ∨ BeginsKept hunk) (nonempty : hunk ≠ [])
    (way : Blocks sides (old + count, new + count) hunk between) (rest : Hunks sides between hunks stop) :
    Hunks sides (old, new) (hunk :: hunks) stop

namespace Hunks

/-- Equal lines behind the last hunk are left out with those that already are. -/
theorem extend {hunks : List (List Block)} (leads : Hunks sides start hunks (old, new))
    (agrees : sides.Agrees old new more) : Hunks sides start hunks (old + more, new + more) := by
  generalize place : (old, new) = stop at leads
  induction leads with
  | @nil first second count before =>
    obtain ⟨rfl, rfl⟩ := Prod.mk.inj place
    rw [Nat.add_assoc, Nat.add_assoc]
    exact .nil (Sides.agrees_add_iff.mpr ⟨before, agrees⟩)
  | cons before kept nonempty way _ inductionHypothesis => exact .cons before kept nonempty way (inductionHypothesis place)

end Hunks

/-! ## Trimmed ends -/

theorem blocks_trimFirst (way : Blocks sides (old, new) blocks stop) :
    ∃ count, sides.Agrees old new count ∧ (count = 0 ∨ BeginsKept (trimFirst blocks)) ∧
      Blocks sides (old + count, new + count) (trimFirst blocks) stop := by
  unfold trimFirst
  split
  · next _ first second size blocks =>
    cases way with
    | cons first rest =>
      obtain ⟨some, here, rfl, agrees⟩ := first
      obtain ⟨rfl, rfl⟩ := Prod.mk.inj here
      have parts : size = (size - contextRadius) + (size - (size - contextRadius)) := by omega
      obtain ⟨before, behind⟩ := Sides.agrees_add_iff.mp (parts ▸ agrees)
      refine ⟨size - contextRadius, before, .inr trivial, .cons ⟨?_, rfl, ?_, behind⟩ rest⟩
      · simp only [contextRadius]
        omega
      · rw [Nat.add_assoc, Nat.add_assoc, ← parts]
  · exact ⟨0, sides.agrees_zero _ _, .inl rfl, way⟩

theorem blocks_trimLast (way : Blocks sides start blocks stop) :
    ∃ here count, sides.Agrees here.1 here.2 count ∧ stop = (here.1 + count, here.2 + count) ∧
      Blocks sides start (trimLast blocks) here := by
  fun_induction trimLast blocks generalizing start with
  | case1 => exact ⟨stop, 0, sides.agrees_zero _ _, rfl, way⟩
  | case2 old new size =>
    cases way with
    | cons first rest =>
      cases rest
      obtain ⟨some, rfl, rfl, agrees⟩ := first
      have parts : size = min size contextRadius + (size - contextRadius) := by omega
      obtain ⟨before, behind⟩ := Sides.agrees_add_iff.mp (parts ▸ agrees)
      refine ⟨(old + min size contextRadius, new + min size contextRadius), size - contextRadius, behind, ?_,
        .single ⟨?_, rfl, rfl, before⟩⟩
      · rw [Nat.add_assoc, Nat.add_assoc, ← parts]
      · simp only [contextRadius]
        omega
  | case3 block blocks _ inductionHypothesis =>
    cases way with
    | cons first rest =>
      obtain ⟨here, count, agrees, ends, way⟩ := inductionHypothesis rest
      exact ⟨here, count, agrees, ends, .cons first way⟩

theorem beginsKept_trimLast (kept : BeginsKept blocks) : BeginsKept (trimLast blocks) := by
  unfold trimLast
  split
  · exact kept
  · trivial
  · next block blocks _ =>
    cases block with
    | keep => trivial
    | change => exact kept

/-! ## Cutting -/

/-- Blocks without a change are the same on both sides. -/
theorem exists_agrees_of_not_holdsChange (unchanged : holdsChange blocks = false)
    (way : Blocks sides (old, new) blocks.reverse stop) :
    ∃ count, sides.Agrees old new count ∧ stop = (old + count, new + count) := by
  unfold holdsChange at unchanged
  split at unchanged
  · cases way
    exact ⟨0, sides.agrees_zero _ _, rfl⟩
  · cases way with
    | cons first rest =>
      cases rest
      obtain ⟨-, here, rfl, agrees⟩ := first
      obtain ⟨rfl, rfl⟩ := Prod.mk.inj here
      exact ⟨_, agrees, rfl⟩
  · exact nomatch unchanged

/-- A hunk that is ended within kept lines begins as it has been begun. -/
theorem BeginsKept.ended (kept : BeginsKept (others ++ .keep old new size :: blocks)) :
    BeginsKept (others ++ [.keep old new more]) := by
  cases others with
  | nil => trivial
  | cons block others => cases block <;> exact kept

/-- A long run of kept lines ends one hunk and begins another, with equal lines between the two. -/
theorem Block.Leads.cut (leads : Block.Leads sides start stop (.keep old new size)) (long : contextRadius * 2 < size) :
    Block.Leads sides start (old + contextRadius, new + contextRadius) (.keep old new contextRadius) ∧
      sides.Agrees (old + contextRadius) (new + contextRadius) (size - contextRadius * 2) ∧
      Block.Leads sides (old + contextRadius + (size - contextRadius * 2), new + contextRadius + (size - contextRadius * 2))
        stop (.keep (old + (size - contextRadius)) (new + (size - contextRadius)) (size - (size - contextRadius))) := by
  obtain ⟨-, rfl, rfl, agrees⟩ := leads
  have parts : size = contextRadius + (size - contextRadius * 2) + contextRadius := by omega
  obtain ⟨front, behind⟩ := Sides.agrees_add_iff.mp (parts ▸ agrees)
  obtain ⟨ended, omitted⟩ := Sides.agrees_add_iff.mp front
  have skipped : size - contextRadius = contextRadius + (size - contextRadius * 2) := by omega
  have left : size - (size - contextRadius) = contextRadius := by omega
  rw [left, skipped]
  refine ⟨⟨by decide, rfl, rfl, ended⟩, omitted, by decide, ?_, ?_, behind⟩
  · rw [Nat.add_assoc, Nat.add_assoc]
  · exact Prod.ext (by dsimp only; omega) (by dsimp only; omega)

/-- The hunks that are cut from blocks lead through all of them, when `current` has been begun behind equal lines. -/
theorem hunks_hunksAfter (agrees : sides.Agrees old new count) (kept : count = 0 ∨ BeginsKept (current.reverse ++ blocks))
    (way : Blocks sides (old + count, new + count) (current.reverse ++ blocks) stop) :
    Hunks sides (old, new) (hunksAfter current blocks) stop := by
  induction blocks generalizing current old new count with
  | nil =>
    rw [List.append_nil] at kept way
    unfold hunksAfter
    split
    · next holds =>
      refine .cons agrees kept ?_ way ?_
      · rintro none
        rw [List.reverse_eq_nil_iff.mp none] at holds
        exact nomatch holds
      · exact .nil (sides.agrees_zero stop.1 stop.2)
    · next unchanged =>
      obtain ⟨size, behind, rfl⟩ := exists_agrees_of_not_holdsChange (Bool.eq_false_iff.mpr unchanged) way
      rw [Nat.add_assoc, Nat.add_assoc]
      exact .nil (Sides.agrees_add_iff.mpr ⟨agrees, behind⟩)
  | cons block blocks inductionHypothesis =>
    -- A block that does not end the hunk is one more block that it has begun with.
    have continued : Hunks sides (old, new) (hunksAfter (block :: current) blocks) stop := by
      apply inductionHypothesis agrees
      · simpa using kept
      · simpa using way
    unfold hunksAfter
    split
    · next first second size =>
      split
      · next long =>
        obtain ⟨here, front, way⟩ := Way.append_iff.mp way
        cases way with
        | cons keep rest =>
          obtain ⟨ending, omitted, beginning⟩ := keep.cut long
          refine .cons agrees ?_ ?_ ?_ (inductionHypothesis omitted (.inr trivial) (.cons beginning rest))
          · rw [List.reverse_cons]
            exact kept.imp_right BeginsKept.ended
          · rw [List.reverse_cons]
            exact List.append_ne_nil_of_right_ne_nil _ (List.cons_ne_nil _ _)
          · rw [List.reverse_cons]
            obtain ⟨-, rfl, -, -⟩ := keep
            exact front.append (.single ending)
      · exact continued
    · exact continued

/-- The hunks of a comparison lead through both sides. -/
theorem hunks_hunks (sides : Sides) :
    Hunks sides (0, 0) (hunks (Diff.blocks sides)) (sides.old.size, sides.new.size) := by
  obtain ⟨count, before, kept, way⟩ := blocks_trimFirst (blocks_blocks sides)
  obtain ⟨⟨old, new⟩, more, behind, ends, way⟩ := blocks_trimLast way
  have leads : Hunks sides (0, 0) (hunks (Diff.blocks sides)) (old, new) :=
    hunks_hunksAfter before (kept.imp_right beginsKept_trimLast) way
  rw [ends]
  exact leads.extend behind

/-- There are no hunks where nothing has been changed. -/
theorem hunks_of_eq (same : sides.old = sides.new) : hunks (Diff.blocks sides) = [] := by
  rw [blocks_of_eq same]
  split
  · rfl
  · have short : ¬ contextRadius * 2 < min (sides.old.size - (sides.old.size - contextRadius)) contextRadius := by
      simp only [contextRadius]
      omega
    rw [hunks, trimFirst, trimLast, hunksAfter, if_neg short]
    rfl

end Masthead.Diff

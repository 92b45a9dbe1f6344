import Mathlib.Data.List.Nodup
import Mathlib.Tactic.ByContra
import Masthead.Proofs.Diff.Agreement

/-!
# The middle of a way

The place where the two halves of a way meet lies within the window. A half may well leave the
window, since its furthest position on a diagonal is the one furthest from its beginning, inside or
not. But then it has been at the edge of the window before, on a neighbouring diagonal, and on the
diagonals where the halves can meet they would have met there.
-/

namespace Masthead.Diff

/-- The diagonals that a step reaches: those up to its own number, every second one. -/
def Reaches (step diagonal : Int) : Prop :=
  -step ≤ diagonal ∧ diagonal ≤ step ∧ (step - diagonal) % 2 = 0

theorem mem_diagonals {step : Nat} {diagonal : Int} (member : diagonal ∈ diagonals step) : Reaches step diagonal := by
  obtain ⟨index, inRange, rfl⟩ := List.mem_map.mp member
  have bound := List.mem_range.mp inRange
  refine ⟨?_, ?_, ?_⟩ <;> omega

theorem mem_diagonals_of_reaches {step : Nat} {diagonal : Int} (reaches : Reaches step diagonal) :
    diagonal ∈ diagonals step := by
  obtain ⟨low, high, parity⟩ := reaches
  refine List.mem_map.mpr ⟨((step - diagonal) / 2).toNat, List.mem_range.mpr ?_, ?_⟩ <;> omega

theorem nodup_diagonals (step : Nat) : (diagonals step).Nodup := by
  refine List.Nodup.map ?_ List.nodup_range
  intro index other same
  simp only at same
  omega

namespace Frontier

variable {frontier before after : Frontier} {capacity oldSize newSize step : Nat} {diagonal : Int}

/-! ## Positions on diagonals -/

/-- Whether a frontier has a place for every diagonal that some steps can read. -/
structure HasRoom (capacity : Nat) (frontier : Frontier) : Prop where
  offset : frontier.offset = capacity + 1
  size : frontier.reached.size = 2 * capacity + 3

theorem hasRoom_start (capacity : Nat) : (start capacity).HasRoom capacity :=
  ⟨rfl, Array.size_replicate⟩

theorem furthest_start (capacity : Nat) (diagonal : Int) : (start capacity).furthest diagonal = 0 := by
  rw [furthest, start, Array.getD_eq_getD_getElem?, Array.getElem?_replicate]
  split <;> rfl

theorem HasRoom.set (hasRoom : frontier.HasRoom capacity) (diagonal : Int) (position : Nat) :
    (frontier.set diagonal position).HasRoom capacity :=
  ⟨hasRoom.offset, (Array.size_setIfInBounds ..).trans hasRoom.size⟩

theorem furthest_set_self (hasRoom : frontier.HasRoom capacity) {position : Nat} (low : -(capacity : Int) ≤ diagonal)
    (high : diagonal ≤ capacity) : (frontier.set diagonal position).furthest diagonal = position := by
  have inBounds : (diagonal + (frontier.offset : Int)).toNat < frontier.reached.size := by
    rw [hasRoom.offset, hasRoom.size]
    omega
  simp [furthest, index, Frontier.set, inBounds]

theorem furthest_set_of_ne (hasRoom : frontier.HasRoom capacity) {position : Nat} {other : Int}
    (low : -(capacity : Int) ≤ diagonal) (otherLow : -(capacity : Int) - 1 ≤ other) (differ : other ≠ diagonal) :
    (frontier.set diagonal position).furthest other = frontier.furthest other := by
  have indexes : (diagonal + (frontier.offset : Int)).toNat ≠ (other + (frontier.offset : Int)).toNat := by
    rw [hasRoom.offset]
    omega
  simp [furthest, index, Frontier.set, Array.getElem?_setIfInBounds_ne indexes]

/-! ## One step of one half -/

/-- What is known of a frontier behind a step: how its positions on neighbouring diagonals lie to each other, those of
the step itself and those of the step before. Outside of the window a half goes on along its edge only. -/
structure IsAfter (oldSize newSize : Nat) (step : Int) (frontier : Frontier) : Prop where
  ahead : ∀ diagonal, Reaches step diagonal → diagonal ≤ frontier.furthest diagonal
  fromAbove : ∀ diagonal, Reaches step diagonal → Reaches (step - 1) (diagonal + 1) →
    frontier.furthest (diagonal + 1) ≤ frontier.furthest diagonal
  fromLeft : ∀ diagonal, Reaches step diagonal → Reaches (step - 1) (diagonal - 1) →
    frontier.furthest (diagonal - 1) + 1 ≤ frontier.furthest diagonal
  beyondOld : ∀ diagonal, Reaches step diagonal → oldSize < frontier.furthest diagonal →
    Reaches (step - 1) (diagonal - 1) ∧ frontier.furthest diagonal ≤ frontier.furthest (diagonal - 1) + 1
  beyondNew : ∀ diagonal, Reaches step diagonal → newSize + diagonal < frontier.furthest diagonal →
    Reaches (step - 1) (diagonal + 1) ∧ frontier.furthest diagonal ≤ frontier.furthest (diagonal + 1)
  untouched : step = -1 → ∀ diagonal, frontier.furthest diagonal = 0

theorem isAfter_start (capacity oldSize newSize : Nat) : (start capacity).IsAfter oldSize newSize (-1) := by
  refine ⟨?_, ?_, ?_, ?_, ?_, fun _ diagonal => furthest_start capacity diagonal⟩
  all_goals
    rintro diagonal ⟨low, high, -⟩
    omega

/-- A step comes to a diagonal from the neighbour that is further ahead. -/
theorem entry_cases (isAfter : before.IsAfter oldSize newSize (step - 1)) (reaches : Reaches step diagonal) :
    (step = 0 ∧ diagonal = 0 ∧ before.entry step diagonal = 0) ∨
      (Reaches (step - 1) (diagonal + 1) ∧ before.entry step diagonal = before.furthest (diagonal + 1) ∧
        (Reaches (step - 1) (diagonal - 1) → before.furthest (diagonal - 1) + 1 ≤ before.furthest (diagonal + 1))) ∨
      (Reaches (step - 1) (diagonal - 1) ∧ before.entry step diagonal = before.furthest (diagonal - 1) + 1 ∧
        (Reaches (step - 1) (diagonal + 1) → before.furthest (diagonal + 1) ≤ before.furthest (diagonal - 1) + 1)) := by
  obtain ⟨low, high, parity⟩ := reaches
  by_cases first : step = 0
  · have middle : diagonal = 0 := by omega
    have zero := isAfter.untouched (by omega) (diagonal + 1)
    refine .inl ⟨first, middle, ?_⟩
    rw [entry, if_pos (.inl (by omega))]
    exact zero
  · unfold entry Reaches
    dsimp only
    split <;> omega

theorem entry_ahead (isAfter : before.IsAfter oldSize newSize (step - 1)) (reaches : Reaches step diagonal) :
    diagonal ≤ before.entry step diagonal := by
  rcases entry_cases isAfter reaches with ⟨-, isMiddle, -⟩ | ⟨above, equal, -⟩ | ⟨left, equal, -⟩
  · omega
  · have behind := isAfter.ahead _ above
    omega
  · have behind := isAfter.ahead _ left
    omega

/-- A step that leaves the window on the old side comes from its edge on the diagonal to the left. -/
theorem entry_beyondOld (isAfter : before.IsAfter oldSize newSize (step - 1)) (reaches : Reaches step diagonal)
    (beyond : oldSize < before.entry step diagonal) :
    Reaches (step - 1) (diagonal - 1) ∧ before.entry step diagonal ≤ before.furthest (diagonal - 1) + 1 := by
  rcases entry_cases isAfter reaches with ⟨-, -, equal⟩ | ⟨above, equal, -⟩ | ⟨left, equal, -⟩
  · omega
  · -- It was outside before, two steps behind the diagonal to the left that is reached now.
    obtain ⟨earlier, atEdge⟩ := isAfter.beyondOld _ above (equal ▸ beyond)
    rw [Int.add_sub_cancel] at earlier atEdge
    have left : Reaches (step - 1) (diagonal - 1) := by
      obtain ⟨low, high, parity⟩ := earlier
      obtain ⟨-, -, aboveParity⟩ := above
      refine ⟨?_, ?_, ?_⟩ <;> omega
    have onward := isAfter.fromAbove _ left (by rwa [Int.sub_add_cancel])
    rw [Int.sub_add_cancel] at onward
    exact ⟨left, by omega⟩
  · exact ⟨left, Nat.le_of_eq equal⟩

/-- A step that leaves the window on the new side comes from its edge on the diagonal above. -/
theorem entry_beyondNew (isAfter : before.IsAfter oldSize newSize (step - 1)) (reaches : Reaches step diagonal)
    (beyond : newSize + diagonal < before.entry step diagonal) :
    Reaches (step - 1) (diagonal + 1) ∧ before.entry step diagonal ≤ before.furthest (diagonal + 1) := by
  rcases entry_cases isAfter reaches with ⟨-, isMiddle, equal⟩ | ⟨above, equal, -⟩ | ⟨left, equal, -⟩
  · omega
  · exact ⟨above, Nat.le_of_eq equal⟩
  · obtain ⟨earlier, atEdge⟩ := isAfter.beyondNew _ left (by omega)
    rw [Int.sub_add_cancel] at earlier atEdge
    have above : Reaches (step - 1) (diagonal + 1) := by
      obtain ⟨low, high, parity⟩ := earlier
      obtain ⟨-, -, leftParity⟩ := left
      refine ⟨?_, ?_, ?_⟩ <;> omega
    have onward := isAfter.fromLeft _ above (by rwa [Int.add_sub_cancel])
    rw [Int.add_sub_cancel] at onward
    exact ⟨above, by omega⟩

/-- A position with the equal lines behind it, which do not lead out of the window. -/
def Follows (oldSize newSize : Nat) (diagonal : Int) (position equal : Nat) : Prop :=
  equal = 0 ∨ (position + equal ≤ oldSize ∧ position + equal ≤ newSize + diagonal)

theorem IsAfter.next (isAfter : before.IsAfter oldSize newSize (step - 1))
    (moved : ∀ diagonal, Reaches step diagonal → ∃ equal,
      after.furthest diagonal = before.entry step diagonal + equal ∧
        Follows oldSize newSize diagonal (before.entry step diagonal) equal)
    (kept : ∀ diagonal, Reaches (step - 1) diagonal → after.furthest diagonal = before.furthest diagonal) :
    after.IsAfter oldSize newSize step := by
  refine ⟨?_, ?_, ?_, ?_, ?_, fun isFirst => by omega⟩
  · intro diagonal reaches
    obtain ⟨equal, position, -⟩ := moved diagonal reaches
    have ahead := entry_ahead isAfter reaches
    omega
  · intro diagonal reaches above
    obtain ⟨equal, position, -⟩ := moved diagonal reaches
    rw [kept _ above]
    rcases entry_cases isAfter reaches with ⟨isFirst, -, -⟩ | ⟨-, entered, -⟩ | ⟨-, entered, greater⟩
    · obtain ⟨low, high, -⟩ := above
      omega
    · omega
    · have bound := greater above
      omega
  · intro diagonal reaches left
    obtain ⟨equal, position, -⟩ := moved diagonal reaches
    rw [kept _ left]
    rcases entry_cases isAfter reaches with ⟨isFirst, -, -⟩ | ⟨-, entered, greater⟩ | ⟨-, entered, -⟩
    · obtain ⟨low, high, -⟩ := left
      omega
    · have bound := greater left
      omega
    · omega
  · intro diagonal reaches beyond
    obtain ⟨equal, position, inside⟩ := moved diagonal reaches
    have stays : equal = 0 := inside.resolve_right fun within => by omega
    obtain ⟨left, bound⟩ := entry_beyondOld isAfter reaches (by omega)
    rw [kept _ left]
    exact ⟨left, by omega⟩
  · intro diagonal reaches beyond
    obtain ⟨equal, position, inside⟩ := moved diagonal reaches
    have stays : equal = 0 := inside.resolve_right fun within => by omega
    obtain ⟨above, bound⟩ := entry_beyondNew isAfter reaches (by omega)
    rw [kept _ above]
    exact ⟨above, by omega⟩

/-- Whether a frontier has come to no edge of the window on the diagonals that lie so near to its far corner. -/
def IsInside (oldSize newSize : Nat) (step distance : Int) (frontier : Frontier) : Prop :=
  ∀ diagonal, Reaches step diagonal → -distance ≤ diagonal - (oldSize - newSize) →
    diagonal - (oldSize - newSize) ≤ distance →
    frontier.furthest diagonal < oldSize ∧ frontier.furthest diagonal < newSize + diagonal

/-- Near the far corner, a step does not leave the window unless the edge was reached before. -/
theorem entry_within (isAfter : before.IsAfter oldSize newSize (step - 1)) (reaches : Reaches step diagonal)
    {distance : Int} (near : step - 1 ≤ distance) (inside : before.IsInside oldSize newSize (step - 1) (distance - 1))
    (low : -distance ≤ diagonal - (oldSize - newSize)) (high : diagonal - (oldSize - newSize) ≤ distance)
    (parity : (distance - (diagonal - (oldSize - newSize))) % 2 = 0) :
    before.entry step diagonal ≤ oldSize ∧ before.entry step diagonal ≤ newSize + diagonal := by
  by_contra outside
  by_cases beyond : oldSize < before.entry step diagonal
  · obtain ⟨left, leftBound⟩ := entry_beyondOld isAfter reaches beyond
    -- The diagonal to the left is too far from the corner to be known, so this is the lowest one that is near it.
    have lowest : diagonal - (oldSize - newSize) = -distance := by
      by_contra higher
      have edge := inside _ left (by omega) (by omega)
      omega
    obtain ⟨above, aboveBound⟩ := entry_beyondNew isAfter reaches (by omega)
    by_cases corner : distance = 0
    · obtain ⟨leftLow, -, -⟩ := left
      obtain ⟨-, aboveHigh, -⟩ := above
      omega
    · have edge := inside _ above (by omega) (by omega)
      omega
  · obtain ⟨above, aboveBound⟩ := entry_beyondNew isAfter reaches (by omega)
    have highest : diagonal - (oldSize - newSize) = distance := by
      by_contra lower
      have edge := inside _ above (by omega) (by omega)
      omega
    omega

/-! ## A step along its diagonals -/

/-- One half of a step: on each of some diagonals, the position that is reached there with the equal lines behind it,
up to the first diagonal on which the other half is met. -/
def sweep (step : Nat) (equal : Int → Nat → Nat) (meets : Int → Nat → Prop)
    [∀ diagonal reached, Decidable (meets diagonal reached)]
    (found : Int → Nat → Nat × Nat) (frontier : Frontier) : List Int → Advance
  | [] => .ok frontier
  | diagonal :: others =>
    let position := frontier.entry step diagonal
    let reached := position + equal diagonal position
    if meets diagonal reached then .error (found diagonal position)
    else sweep step equal meets found (frontier.set diagonal reached) others

/-- What one half of a step comes to, where `before` is the frontier at its beginning. -/
def Sweeps (capacity step : Nat) (equal : Int → Nat → Nat) (meets : Int → Nat → Prop) (found : Int → Nat → Nat × Nat)
    (before : Frontier) (diagonals : List Int) : Advance → Prop
  | .ok after => after.HasRoom capacity ∧
      (∀ diagonal ∈ diagonals,
        after.furthest diagonal = before.entry step diagonal + equal diagonal (before.entry step diagonal) ∧
          ¬ meets diagonal (after.furthest diagonal)) ∧
      ∀ diagonal, -(capacity : Int) - 1 ≤ diagonal → diagonal ∉ diagonals →
        after.furthest diagonal = before.furthest diagonal
  | .error place => ∃ diagonal ∈ diagonals, place = found diagonal (before.entry step diagonal) ∧
      meets diagonal (before.entry step diagonal + equal diagonal (before.entry step diagonal))

variable {equal : Int → Nat → Nat} {meets : Int → Nat → Prop} [∀ diagonal reached, Decidable (meets diagonal reached)]
  {found : Int → Nat → Nat × Nat}

/-- A position that is put on one diagonal of a step is not read on the others. -/
theorem entry_set (hasRoom : before.HasRoom capacity) (within : step ≤ capacity) {other : Int} {position : Nat}
    (reaches : Reaches step diagonal) (otherReaches : Reaches step other) :
    (before.set diagonal position).entry step other = before.entry step other := by
  obtain ⟨low, high, parity⟩ := reaches
  obtain ⟨otherLow, otherHigh, otherParity⟩ := otherReaches
  rw [entry, entry, furthest_set_of_ne hasRoom (by omega) (by omega) (by omega),
    furthest_set_of_ne hasRoom (by omega) (by omega) (by omega)]

theorem sweeps_sweep (hasRoom : before.HasRoom capacity) (within : step ≤ capacity) {diagonals : List Int}
    (inStep : ∀ diagonal ∈ diagonals, Reaches step diagonal) (distinct : diagonals.Nodup) :
    Sweeps capacity step equal meets found before diagonals (sweep step equal meets found before diagonals) := by
  induction diagonals generalizing before with
  | nil => exact ⟨hasRoom, by simp, fun _ _ _ => rfl⟩
  | cons diagonal others inductionHypothesis =>
    obtain ⟨fresh, othersDistinct⟩ := List.nodup_cons.mp distinct
    obtain ⟨reaches, othersInStep⟩ := List.forall_mem_cons.mp inStep
    obtain ⟨low, high, -⟩ := reaches
    let reached := before.entry step diagonal + equal diagonal (before.entry step diagonal)
    rw [sweep]
    split
    · next met => exact ⟨diagonal, List.mem_cons_self, rfl, met⟩
    · next unmet =>
      have rest := inductionHypothesis (hasRoom.set diagonal reached) othersInStep othersDistinct
      have entries : ∀ other ∈ others, (before.set diagonal reached).entry step other = before.entry step other :=
        fun other member => entry_set hasRoom within (inStep _ List.mem_cons_self) (othersInStep _ member)
      cases result : sweep step equal meets found (before.set diagonal reached) others with
      | error place =>
        rw [result] at rest
        obtain ⟨other, member, place, met⟩ := rest
        rw [entries other member] at place met
        exact ⟨other, List.mem_cons_of_mem _ member, place, met⟩
      | ok after =>
        rw [result] at rest
        obtain ⟨room, moved, kept⟩ := rest
        refine ⟨room, fun other member => ?_, fun other otherLow absent => ?_⟩
        · rcases List.mem_cons.mp member with rfl | later
          · have here := (kept other (by omega) fresh).trans
              (furthest_set_self hasRoom (by omega) (by omega))
            exact ⟨here, here ▸ unmet⟩
          · obtain ⟨there, apart⟩ := moved other later
            rw [entries other later] at there
            exact ⟨there, apart⟩
        · obtain ⟨differ, otherAbsent⟩ := not_or.mp (fun either => absent (List.mem_cons.mpr either))
          rw [kept other otherLow otherAbsent, furthest_set_of_ne hasRoom (by omega) otherLow differ]

end Frontier

/-! ## Both halves -/

open Frontier

variable {sides : Sides} {window : Window} {forward backward : Frontier} {capacity step : Nat} {diagonal : Int}

/-- The line on the new side of a position on a diagonal. -/
def newAt (diagonal : Int) (old : Nat) : Nat :=
  ((old : Int) - diagonal).toNat

/-- The equal lines that follow a position, counted from the beginning of a window. -/
def equalFrom (sides : Sides) (window : Window) (diagonal : Int) (old : Nat) : Nat :=
  if old < window.oldSize ∧ newAt diagonal old < window.newSize then
    sides.equalAhead (window.oldStart + old) (window.newStart + newAt diagonal old)
      (min (window.oldSize - old) (window.newSize - newAt diagonal old))
  else 0

/-- The equal lines that follow a position, counted from the end of a window. -/
def equalTo (sides : Sides) (window : Window) (diagonal : Int) (old : Nat) : Nat :=
  if old < window.oldSize ∧ newAt diagonal old < window.newSize then
    sides.equalBehind (window.oldStop - old) (window.newStop - newAt diagonal old)
      (min (window.oldSize - old) (window.newSize - newAt diagonal old))
  else 0

/-- The place of a position that is counted from the beginning of a window. -/
def placeFrom (window : Window) (diagonal : Int) (old : Nat) : Nat × Nat :=
  (window.oldStart + old, window.newStart + newAt diagonal old)

/-- The place behind the equal lines that follow a position, counted from the end of a window. -/
def placeTo (sides : Sides) (window : Window) (diagonal : Int) (old : Nat) : Nat × Nat :=
  (window.oldStop - (old + equalTo sides window diagonal old),
    window.newStop - (newAt diagonal old + equalTo sides window diagonal old))

/-- Whether a half that has reached a position on a diagonal meets the other one there. -/
def Meets (window : Window) (isTold : Prop) (distance : Int) (opposite : Frontier) (diagonal : Int) (reached : Nat) : Prop :=
  isTold ∧ ((diagonal - slant window).natAbs : Int) ≤ distance ∧
    window.oldSize ≤ reached + opposite.furthest (-(diagonal - slant window))

instance (window : Window) (isTold : Prop) [Decidable isTold] (distance : Int) (opposite : Frontier) (diagonal : Int)
    (reached : Nat) : Decidable (Meets window isTold distance opposite diagonal reached) :=
  inferInstanceAs (Decidable (_ ∧ _ ∧ _))

theorem advance_eq_sweep (diagonals : List Int) :
    advance sides window backward step forward diagonals
      = sweep step (equalFrom sides window) (Meets window (slant window % 2 ≠ 0) ((step : Int) - 1) backward)
          (placeFrom window) forward diagonals := by
  induction diagonals generalizing forward with
  | nil => rfl
  | cons diagonal others inductionHypothesis =>
    rw [advance, sweep]
    exact if_congr Iff.rfl rfl inductionHypothesis

theorem retreat_eq_sweep (diagonals : List Int) :
    retreat sides window forward step backward diagonals
      = sweep step (equalTo sides window) (Meets window (slant window % 2 = 0) step forward) (placeTo sides window)
          backward diagonals := by
  induction diagonals generalizing backward with
  | nil => rfl
  | cons diagonal others inductionHypothesis =>
    rw [retreat, sweep]
    exact if_congr (and_congr_right' (and_congr_left' Int.ofNat_le.symm)) rfl inductionHypothesis

theorem follows_equalFrom {old : Nat} (ahead : diagonal ≤ old) :
    Follows window.oldSize window.newSize diagonal old (equalFrom sides window diagonal old) := by
  unfold equalFrom
  split
  · next inside =>
    have bound := sides.equalAhead_le (window.oldStart + old) (window.newStart + newAt diagonal old)
      (min (window.oldSize - old) (window.newSize - newAt diagonal old))
    unfold newAt at inside bound ⊢
    exact .inr ⟨by omega, by omega⟩
  · exact .inl rfl

theorem follows_equalTo {old : Nat} (ahead : diagonal ≤ old) :
    Follows window.oldSize window.newSize diagonal old (equalTo sides window diagonal old) := by
  unfold equalTo
  split
  · next inside =>
    have bound := sides.equalBehind_le (window.oldStop - old) (window.newStop - newAt diagonal old)
      (min (window.oldSize - old) (window.newSize - newAt diagonal old))
    unfold newAt at inside bound ⊢
    exact .inr ⟨by omega, by omega⟩
  · exact .inl rfl

/-- Behind a step in which the halves have not met, a half has come to no edge where it could have met the other. -/
theorem isInside_of_not_meets {after opposite : Frontier} {isTold : Prop} {distance : Int} (told : isTold)
    (isAfter : opposite.IsAfter window.oldSize window.newSize distance)
    (parity : ((step : Int) - slant window - distance) % 2 = 0)
    (unmet : ∀ diagonal ∈ diagonals step, ¬ Meets window isTold distance opposite diagonal (after.furthest diagonal)) :
    after.IsInside window.oldSize window.newSize step distance := by
  intro diagonal reaches low high
  have apart := unmet diagonal (mem_diagonals_of_reaches reaches)
  obtain ⟨-, -, stepParity⟩ := reaches
  unfold Meets slant at apart
  unfold slant at parity
  have behind := isAfter.ahead (-(diagonal - (window.oldSize - window.newSize))) ⟨by omega, by omega, by omega⟩
  have far : ¬ window.oldSize ≤
      after.furthest diagonal + opposite.furthest (-(diagonal - (window.oldSize - window.newSize))) :=
    fun meets => apart ⟨told, by omega, meets⟩
  omega

/-- What one half of a step comes to: it meets the other half inside the window, or it is behind the step. -/
def Halfway (window : Window) (capacity step : Nat) (isTold : Prop) (distance : Int) (found : Int → Nat → Nat × Nat) :
    Advance → Prop
  | .ok after => after.HasRoom capacity ∧ after.IsAfter window.oldSize window.newSize step ∧
      (isTold → after.IsInside window.oldSize window.newSize step distance)
  | .error place => ∃ (diagonal : Int) (old : Nat), place = found diagonal old ∧
      diagonal ≤ old ∧ old ≤ window.oldSize ∧ old ≤ window.newSize + diagonal

theorem halfway_sweep {before opposite : Frontier} {isTold : Prop} [Decidable isTold] {distance : Int}
    {equal : Int → Nat → Nat} {found : Int → Nat → Nat × Nat} (hasRoom : before.HasRoom capacity) (within : step ≤ capacity)
    (isAfter : before.IsAfter window.oldSize window.newSize (step - 1))
    (follows : ∀ (diagonal : Int) (old : Nat), diagonal ≤ old →
      Follows window.oldSize window.newSize diagonal old (equal diagonal old))
    (near : step - 1 ≤ distance) (parity : isTold → ((step : Int) - slant window - distance) % 2 = 0)
    (oppositeAfter : opposite.IsAfter window.oldSize window.newSize distance)
    (inside : isTold → before.IsInside window.oldSize window.newSize (step - 1) (distance - 1)) :
    Halfway window capacity step isTold distance found
      (sweep step equal (Meets window isTold distance opposite) found before (diagonals step)) := by
  have swept : Sweeps capacity step equal (Meets window isTold distance opposite) found before (diagonals step)
      (sweep step equal (Meets window isTold distance opposite) found before (diagonals step)) :=
    sweeps_sweep hasRoom within (fun _ => mem_diagonals) (nodup_diagonals step)
  cases result : sweep step equal (Meets window isTold distance opposite) found before (diagonals step) with
  | error place =>
    rw [result] at swept
    obtain ⟨diagonal, member, rfl, told, near', -⟩ := swept
    have reaches := mem_diagonals member
    have even := parity told
    obtain ⟨-, -, stepParity⟩ := id reaches
    unfold slant at near' even
    obtain ⟨oldWithin, newWithin⟩ :=
      entry_within isAfter reaches near (inside told) (by omega) (by omega) (by omega)
    exact ⟨diagonal, _, rfl, entry_ahead isAfter reaches, oldWithin, newWithin⟩
  | ok after =>
    rw [result] at swept
    obtain ⟨room, moved, kept⟩ := swept
    refine ⟨room, isAfter.next (fun diagonal reaches => ?_) fun diagonal reaches => ?_, fun told => ?_⟩
    · exact ⟨_, (moved diagonal (mem_diagonals_of_reaches reaches)).1, follows _ _ (entry_ahead isAfter reaches)⟩
    · -- The diagonals of the step before lie between those of this one.
      obtain ⟨low, high, parity⟩ := reaches
      refine kept diagonal (by omega) fun member => ?_
      obtain ⟨-, -, other⟩ := mem_diagonals member
      omega
    · exact isInside_of_not_meets told oppositeAfter (parity told) fun diagonal member => (moved diagonal member).2

/-- What is known of both halves before a step. -/
structure Halves (window : Window) (capacity step : Nat) (forward backward : Frontier) : Prop where
  forwardRoom : forward.HasRoom capacity
  backwardRoom : backward.HasRoom capacity
  forwardAfter : forward.IsAfter window.oldSize window.newSize (step - 1)
  backwardAfter : backward.IsAfter window.oldSize window.newSize (step - 1)
  forwardInside : slant window % 2 ≠ 0 →
    forward.IsInside window.oldSize window.newSize (step - 1) ((step : Int) - 1 - 1)
  backwardInside : slant window % 2 = 0 →
    backward.IsInside window.oldSize window.newSize (step - 1) (step - 1)

theorem Halves.halfway_advance (halves : Halves window capacity step forward backward) (within : step ≤ capacity) :
    Halfway window capacity step (slant window % 2 ≠ 0) (step - 1) (placeFrom window)
      (advance sides window backward step forward (diagonals step)) := by
  rw [advance_eq_sweep]
  exact halfway_sweep halves.forwardRoom within halves.forwardAfter (fun _ _ => follows_equalFrom) (Int.le_refl _)
    (fun odd => by omega) halves.backwardAfter halves.forwardInside

theorem Halves.halfway_retreat (halves : Halves window capacity step forward backward) (within : step ≤ capacity)
    {onward : Frontier} (isAfter : onward.IsAfter window.oldSize window.newSize step) :
    Halfway window capacity step (slant window % 2 = 0) step (placeTo sides window)
      (retreat sides window onward step backward (diagonals step)) := by
  rw [retreat_eq_sweep]
  exact halfway_sweep halves.backwardRoom within halves.backwardAfter (fun _ _ => follows_equalTo) (by omega)
    (fun even => by omega) isAfter halves.backwardInside

/-- Whether a window ends where it begins or later. -/
structure Window.IsSpan (window : Window) : Prop where
  old : window.oldStart ≤ window.oldStop
  new : window.newStart ≤ window.newStop

/-- Whether a place lies within a window. -/
structure Window.Contains (window : Window) (place : Nat × Nat) : Prop where
  oldStart : window.oldStart ≤ place.1
  oldStop : place.1 ≤ window.oldStop
  newStart : window.newStart ≤ place.2
  newStop : place.2 ≤ window.newStop

variable {old : Nat}

theorem contains_placeFrom (isSpan : window.IsSpan) (oldWithin : old ≤ window.oldSize)
    (newWithin : old ≤ window.newSize + diagonal) : window.Contains (placeFrom window diagonal old) := by
  obtain ⟨oldSpan, newSpan⟩ := isSpan
  unfold Window.oldSize at oldWithin
  unfold Window.newSize at newWithin
  constructor <;> simp only [placeFrom, newAt] <;> omega

theorem contains_placeTo (isSpan : window.IsSpan) (ahead : diagonal ≤ old) (oldWithin : old ≤ window.oldSize)
    (newWithin : old ≤ window.newSize + diagonal) : window.Contains (placeTo sides window diagonal old) := by
  obtain ⟨oldSpan, newSpan⟩ := isSpan
  have inside : Follows window.oldSize window.newSize diagonal old (equalTo sides window diagonal old) :=
    follows_equalTo ahead
  unfold Follows at inside
  unfold Window.oldSize at oldWithin inside
  unfold Window.newSize at newWithin inside
  constructor <;> simp only [placeTo, newAt] <;> omega

/-- The halves meet inside the window, if they meet. -/
theorem contains_meet? (isSpan : window.IsSpan) {steps : Nat} {place : Nat × Nat} (within : step + steps ≤ capacity + 1)
    (halves : Halves window capacity step forward backward)
    (met : meet? sides window step forward backward steps = some place) : window.Contains place := by
  induction steps generalizing step forward backward with
  | zero => cases met
  | succ steps inductionHypothesis =>
    have first : Halfway _ _ _ _ _ _ (advance sides window backward step forward (diagonals step)) :=
      halves.halfway_advance (by omega)
    rw [meet?] at met
    cases advanced : advance sides window backward step forward (diagonals step) with
    | error found =>
      rw [advanced] at first met
      obtain ⟨diagonal, old, rfl, -, oldWithin, newWithin⟩ := first
      cases met
      exact contains_placeFrom isSpan oldWithin newWithin
    | ok onward =>
      rw [advanced] at first met
      obtain ⟨forwardRoom, forwardAfter, forwardInside⟩ := first
      have second : Halfway _ _ _ _ _ _ (retreat sides window onward step backward (diagonals step)) :=
        halves.halfway_retreat (by omega) forwardAfter
      dsimp only at met
      cases retreated : retreat sides window onward step backward (diagonals step) with
      | error found =>
        rw [retreated] at second met
        obtain ⟨diagonal, old, rfl, ahead, oldWithin, newWithin⟩ := second
        cases met
        exact contains_placeTo isSpan ahead oldWithin newWithin
      | ok back =>
        rw [retreated] at second met
        obtain ⟨backwardRoom, backwardAfter, backwardInside⟩ := second
        have number : ((step + 1 : Nat) : Int) - 1 = step := by omega
        have next : Halves window capacity (step + 1) onward back :=
          ⟨forwardRoom, backwardRoom, by rwa [number], by rwa [number], by rwa [number], by rwa [number]⟩
        exact inductionHypothesis (by omega) next met

/-- The middle of a way through a window lies within it. -/
theorem contains_middle? (isSpan : window.IsSpan) {place : Nat × Nat} (found : middle? sides window = some place) :
    window.Contains place := by
  let capacity := stepLimit window.oldSize window.newSize
  have begun := isAfter_start capacity window.oldSize window.newSize
  have halves : Halves window capacity 0 (start capacity) (start capacity) := by
    refine ⟨hasRoom_start _, hasRoom_start _, begun, begun, ?_, ?_⟩
    all_goals
      rintro - diagonal ⟨low, high, -⟩
      omega
  exact contains_meet? isSpan (by omega) halves found

end Masthead.Diff

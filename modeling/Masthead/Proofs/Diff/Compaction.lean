import Masthead.Diff.Compaction
import Masthead.Proofs.Diff.Script

/-!
# Tidier scripts lead the same way

Moving a block along equal lines, joining it with another one and taking neighbouring blocks
together as changes leaves a script that leads through both sides as before.
-/

namespace Masthead.Diff

variable {sides : Sides} {start stop : Nat × Nat} {runs : List Run}
  {old new size otherOld otherNew otherSize count : Nat}

/-! ## One move -/

/-- Kept lines behind others are one run with them. -/
theorem runs_joined (way : Runs sides start (.keep old new size :: .keep otherOld otherNew otherSize :: runs) stop) :
    Runs sides start (.keep old new (size + otherSize) :: runs) stop := by
  cases way with
  | cons first rest =>
    cases rest with
    | cons second rest =>
      obtain ⟨some, rfl, rfl, agrees⟩ := first
      obtain ⟨-, here, rfl, otherAgrees⟩ := second
      obtain ⟨rfl, rfl⟩ := Prod.mk.inj here
      refine .cons ⟨Nat.add_pos_left some _, rfl, ?_, Sides.agrees_add_iff.mpr ⟨agrees, otherAgrees⟩⟩ rest
      rw [Nat.add_assoc, Nat.add_assoc]

variable {position otherPosition : Nat}

theorem runs_deletions
    (way : Runs sides start (.delete old size position :: .delete otherOld otherSize otherPosition :: runs) stop) :
    Runs sides start (.delete old (size + otherSize) position :: runs) stop := by
  cases way with
  | cons first rest =>
    cases rest with
    | cons second rest =>
      obtain ⟨some, here, rfl⟩ := first
      obtain ⟨-, rfl, rfl⟩ := second
      exact .cons ⟨Nat.add_pos_left some _, here, by rw [Nat.add_assoc]⟩ rest

theorem runs_insertions
    (way : Runs sides start (.insert position new size :: .insert otherPosition otherNew otherSize :: runs) stop) :
    Runs sides start (.insert position new (size + otherSize) :: runs) stop := by
  cases way with
  | cons first rest =>
    cases rest with
    | cons second rest =>
      obtain ⟨some, here, rfl⟩ := first
      obtain ⟨-, rfl, rfl⟩ := second
      exact .cons ⟨Nat.add_pos_left some _, here, by rw [Nat.add_assoc]⟩ rest

/-- Whether a run is a deletion or an insertion. -/
def Run.IsMoved : Run → Prop
  | .keep _ _ _ => False
  | _ => True

theorem Run.isMoved_iff {run : Run} : run.IsMoved ↔ ∀ old new size, run ≠ .keep old new size := by
  cases run <;> simp [IsMoved]

/-- A deletion and an insertion change places. -/
theorem runs_swapped {run other : Run} (isMoved : run.IsMoved) (otherIsMoved : other.IsMoved)
    (differ : isDeletion run ≠ isDeletion other) (way : Runs sides start (run :: other :: runs) stop) :
    Runs sides start (other :: run :: runs) stop := by
  cases way with
  | cons first rest =>
    cases rest with
    | cons second rest =>
      cases run <;> cases other <;>
        simp only [Run.IsMoved, isDeletion, ne_eq, not_true_eq_false] at isMoved otherIsMoved differ
      all_goals
        obtain ⟨some, here, rfl⟩ := first
        obtain ⟨otherSome, there, rfl⟩ := second
        exact .cons ⟨otherSome, there, rfl⟩ (.cons ⟨some, here, rfl⟩ rest)

/-! ## Moves along equal lines -/

/-- An insertion behind kept lines goes up over the last of them. -/
theorem runs_raised (isRoom : 0 < count) (room : count ≤ size) (otherRoom : count ≤ otherSize)
    (agrees : sides.Agrees (old + size - count) (otherNew + otherSize - count) count)
    (way : Runs sides start (.keep old new size :: .insert position otherNew otherSize :: runs) stop) :
    Runs sides start ((if size - count = 0 then [] else [.keep old new (size - count)]) ++
      .insert (position - count) (otherNew - count) otherSize ::
        .keep (old + size - count) (otherNew + otherSize - count) count :: runs) stop := by
  cases way with
  | cons first rest =>
    cases rest with
    | cons second rest =>
      obtain ⟨-, rfl, rfl, kept⟩ := first
      obtain ⟨some, rfl, rfl⟩ := second
      have parts : size = size - count + count := by omega
      have front := (Sides.agrees_add_iff.mp (parts ▸ kept)).1
      refine (runs_kept front).append (.cons ⟨some, ?_, rfl⟩ (.cons ⟨isRoom, ?_, ?_, agrees⟩ rest))
      all_goals simp only [Prod.mk.injEq]
      all_goals omega

/-- An insertion before kept lines goes down over the first of them. -/
theorem runs_sunk (isRoom : 0 < count) (room : count ≤ otherSize) (agrees : sides.Agrees otherOld new count)
    (way : Runs sides start (.insert position new size :: .keep otherOld otherNew otherSize :: runs) stop) :
    Runs sides start (.keep otherOld new count :: .insert (position + count) (new + count) size ::
      ((if otherSize - count = 0 then [] else [.keep (otherOld + count) (otherNew + count) (otherSize - count)])
        ++ runs)) stop := by
  cases way with
  | cons first rest =>
    cases rest with
    | cons second rest =>
      obtain ⟨some, here, rfl⟩ := first
      obtain ⟨-, there, rfl, kept⟩ := second
      obtain ⟨firstOld, rfl⟩ := Prod.mk.inj there
      have parts : otherSize = count + (otherSize - count) := by omega
      have back := (Sides.agrees_add_iff.mp (parts ▸ kept)).2
      have stops : (otherOld + otherSize, new + size + otherSize)
          = (otherOld + count + (otherSize - count), new + size + count + (otherSize - count)) :=
        Prod.ext (by simp only; omega) (by simp only; omega)
      rw [stops] at rest
      refine .cons ⟨isRoom, Prod.ext firstOld here, rfl, agrees⟩
        (.cons ⟨some, rfl, ?_⟩ ((runs_kept back).append rest))
      rw [Nat.add_right_comm]

/-! ## Places -/

namespace Place

/-- The whole script that a place stands in. -/
def whole (place : Place) : List Run :=
  place.before.reverse ++ place.run :: place.behind

/-- Whether the run of a place can be moved, in a script that leads from one place to another. -/
structure Leads (sides : Sides) (start stop : Nat × Nat) (place : Place) : Prop where
  isMoved : place.run.IsMoved
  runs : Runs sides start place.whole stop

variable {before above behind below : List Run} {run other : Run}

theorem Leads.of_above (leads : Leads sides start stop ⟨other :: above, run, behind⟩) {others : List Run} {place : Place}
    (isMoved : place.run.IsMoved) (same : place.whole = above.reverse ++ others)
    (moved : ∀ between, Runs sides between (other :: run :: behind) stop → Runs sides between others stop) :
    Leads sides start stop place := by
  refine ⟨isMoved, same ▸ Way.congr_behind moved ?_⟩
  simpa [whole] using leads.runs

theorem Leads.of_below (leads : Leads sides start stop ⟨before, run, other :: below⟩) {others : List Run} {place : Place}
    (isMoved : place.run.IsMoved) (same : place.whole = before.reverse ++ others)
    (moved : ∀ between, Runs sides between (run :: other :: below) stop → Runs sides between others stop) :
    Leads sides start stop place :=
  ⟨isMoved, same ▸ Way.congr_behind moved leads.runs⟩

theorem Leads.ne_zero_above (leads : Leads sides start stop ⟨.keep old new size :: above, run, behind⟩) : size ≠ 0 := by
  have way := leads.runs
  simp only [whole, List.reverse_cons, List.append_assoc, List.singleton_append] at way
  obtain ⟨between, -, way⟩ := Way.append_iff.mp way
  cases way with
  | cons first _ => exact Nat.ne_of_gt first.1

theorem Leads.ne_zero_below (leads : Leads sides start stop ⟨before, run, .keep old new size :: below⟩) : size ≠ 0 := by
  obtain ⟨between, -, way⟩ := Way.append_iff.mp leads.runs
  cases way with
  | cons _ way =>
    cases way with
    | cons second _ => exact Nat.ne_of_gt second.1

theorem runs_keptBehind {kept : Run}
    (way : Runs sides start (.keep (kept.oldStop - count) (new + size - count) count :: behind) stop) :
    Runs sides start (keptBehind count kept (.insert position new size) behind) stop := by
  unfold keptBehind
  split
  · next otherOld otherNew otherSize rest =>
    -- The kept run below begins where the new one ends, so that they are one.
    have joined := runs_joined way
    cases way with
    | cons first others =>
      cases others with
      | cons second others =>
        obtain ⟨-, rfl, rfl, -⟩ := first
        obtain ⟨-, here, -, -⟩ := second
        obtain ⟨rfl, rfl⟩ := Prod.mk.inj here
        rwa [Nat.add_sub_cancel, Nat.add_sub_cancel, Nat.add_comm otherSize]
  · exact way

theorem runs_keptBefore {behind : List Run}
    (way : Runs sides start (before.reverse ++ .keep old new count :: behind) stop) :
    Runs sides start ((keptBefore count (.keep old otherNew otherSize) (.insert position new size) before).reverse ++ behind)
      stop := by
  unfold keptBefore
  split
  · next above =>
    rw [List.reverse_cons, List.append_assoc] at way ⊢
    exact Way.congr_behind (fun _ => runs_joined) way
  · rwa [List.reverse_cons, List.append_assoc]

/-- An insertion goes up over lines that are equal to those at its end. -/
theorem Leads.passAbove (leads : Leads sides start stop ⟨.keep old new size :: above, run, behind⟩) :
    let room := roomAbove sides (.keep old new size) run
    0 < room → Leads sides start stop ⟨if size - room = 0 then above else .keep old new (size - room) :: above,
      run.moveUp room, keptBehind room (.keep old new size) run behind⟩ := by
  intro room isRoom
  cases run with
  | keep => exact leads.isMoved.elim
  | delete => exact absurd isRoom (Nat.lt_irrefl 0)
  | insert position otherNew otherSize =>
    have bound : room ≤ min size otherSize := sides.equalBehind_le _ _ _
    have agrees : sides.Agrees (old + size - room) (otherNew + otherSize - room) room :=
      Sides.agrees_equalBehind (by omega) (by omega)
    have moved (between : Nat × Nat)
        (way : Runs sides between (.keep old new size :: .insert position otherNew otherSize :: behind) stop) :
        Runs sides between ((if size - room = 0 then [] else [.keep old new (size - room)]) ++
          .insert (position - room) (otherNew - room) otherSize ::
            keptBehind room (.keep old new size) (.insert position otherNew otherSize) behind) stop := by
      have raised := runs_raised isRoom (by omega) (by omega) agrees way
      exact Way.congr_behind (fun _ => Way.congr_tail fun _ => runs_keptBehind) raised
    refine leads.of_above trivial ?_ moved
    by_cases none : size - room = 0 <;> simp [whole, none, Run.moveUp]

/-- A block that is raised leaves a script that leads the same way. -/
theorem leads_raise (steps : Nat) {place : Place} (leads : Leads sides start stop place) :
    Leads sides start stop (raise sides steps place) := by
  induction steps generalizing place with
  | zero => exact leads
  | succ steps inductionHypothesis =>
    obtain ⟨before, run, behind⟩ := place
    have isMoved : run.IsMoved := leads.isMoved
    unfold raise
    dsimp only
    split
    · exact leads
    · next old new size above =>
      split
      · next isRoom => exact inductionHypothesis (leads.passAbove isRoom)
      · -- A kept run holds some lines, so that an insertion without room stops here.
        rw [if_neg leads.ne_zero_above]
        exact leads
    · exact inductionHypothesis (leads.of_above trivial rfl fun _ => runs_deletions)
    · exact inductionHypothesis (leads.of_above trivial rfl fun _ => runs_insertions)
    · next other above notKept notDeletions notInsertions =>
      have otherIsMoved : other.IsMoved := Run.isMoved_iff.mpr notKept
      have differ : isDeletion other ≠ isDeletion run := by
        cases other <;> cases run <;> simp_all [isDeletion, Run.IsMoved]
      have swapped : Leads sides start stop ⟨above, run, other :: behind⟩ :=
        leads.of_above isMoved rfl fun _ => runs_swapped otherIsMoved isMoved differ
      exact inductionHypothesis swapped

/-- An insertion goes down over lines that are equal to those at its beginning. -/
theorem Leads.passBelow (leads : Leads sides start stop ⟨before, run, .keep old new size :: below⟩) :
    let room := roomBelow sides (.keep old new size) run
    0 < room → Leads sides start stop ⟨keptBefore room (.keep old new size) run before, run.moveDown room,
      if size - room = 0 then below else .keep (old + room) (new + room) (size - room) :: below⟩ := by
  intro room isRoom
  cases run with
  | keep => exact leads.isMoved.elim
  | delete => exact absurd isRoom (Nat.lt_irrefl 0)
  | insert position otherNew otherSize =>
    have bound : room ≤ min size otherSize := sides.equalAhead_le _ _ _
    have agrees : sides.Agrees old otherNew room := sides.agrees_equalAhead _ _ _
    refine ⟨trivial, ?_⟩
    have sunk := Way.congr_behind (fun _ => runs_sunk isRoom (by omega) agrees) leads.runs
    have kept : Runs sides start ((keptBefore room (.keep old new size) (.insert position otherNew otherSize) before).reverse
        ++ _) stop := runs_keptBefore sunk
    by_cases none : size - room = 0 <;> simpa [whole, none, Run.moveDown] using kept

/-- A block that sinks leaves a script that leads the same way. -/
theorem leads_sink (steps : Nat) {place : Place} (leads : Leads sides start stop place) :
    Leads sides start stop (sink sides steps place) := by
  induction steps generalizing place with
  | zero => exact leads
  | succ steps inductionHypothesis =>
    obtain ⟨before, run, behind⟩ := place
    have isMoved : run.IsMoved := leads.isMoved
    unfold sink
    dsimp only
    split
    · exact leads
    · next old new size below =>
      split
      · next isRoom => exact inductionHypothesis (leads.passBelow isRoom)
      · rw [if_neg leads.ne_zero_below]
        exact leads
    · exact inductionHypothesis (leads.of_below trivial rfl fun _ => runs_deletions)
    · exact inductionHypothesis (leads.of_below trivial rfl fun _ => runs_insertions)
    · next other below notKept notDeletions notInsertions =>
      have otherIsMoved : other.IsMoved := Run.isMoved_iff.mpr notKept
      have differ : isDeletion run ≠ isDeletion other := by
        cases other <;> cases run <;> simp_all [isDeletion, Run.IsMoved]
      have swapped : Leads sides start stop ⟨other :: before, run, below⟩ :=
        leads.of_below isMoved (by simp [whole]) fun _ => runs_swapped isMoved otherIsMoved differ
      exact inductionHypothesis swapped

/-- A block that has settled leaves a script that leads the same way. -/
theorem leads_settle {place : Place} (leads : Leads sides start stop place) :
    Leads sides start stop (settle sides place) :=
  leads_sink _ (leads_raise _ leads)

end Place

/-- Settling the blocks of a kind leaves a script that leads the same way. -/
theorem runs_settleAll {moves : Run → Bool} (areMoved : ∀ run, moves run → run.IsMoved) (steps : Nat)
    {before behind : List Run} (way : Runs sides start (before.reverse ++ behind) stop) :
    Runs sides start (settleAll sides moves steps before behind) stop := by
  induction steps generalizing before behind with
  | zero =>
    cases behind with
    | nil => simpa [settleAll] using way
    | cons => exact way
  | succ steps inductionHypothesis =>
    cases behind with
    | nil => simpa [settleAll] using way
    | cons run behind =>
      unfold settleAll
      split
      · next moved =>
        have place : Place.Leads sides start stop ⟨before, run, behind⟩ := ⟨areMoved run moved, way⟩
        have settled := Place.leads_settle place
        refine inductionHypothesis ?_
        simpa [Place.whole] using settled.runs
      · exact inductionHypothesis (by simpa using way)

/-- A script with its blocks settled leads the same way. -/
theorem runs_compacted (way : Runs sides start runs stop) : Runs sides start (compacted sides runs) stop := by
  have areDeletions (run : Run) (isDeleted : isDeletion run) : run.IsMoved := by
    cases run with
    | delete => trivial
    | keep | insert => exact nomatch isDeleted
  have areInsertions (run : Run) (isInserted : isInsertion run) : run.IsMoved := by
    cases run with
    | insert => trivial
    | keep | delete => exact nomatch isInserted
  exact runs_settleAll areInsertions _ (runs_settleAll areDeletions _ way)

/-! ## Changes -/

/-- Whether a block holds some lines and leads with them from one place to another. As with runs, where nothing is
deleted the old position may be out of date, and where nothing is inserted the new one. -/
def Block.Leads (sides : Sides) (start stop : Nat × Nat) : Block → Prop
  | .keep old new size =>
    0 < size ∧ start = (old, new) ∧ stop = (old + size, new + size) ∧ sides.Agrees old new size
  | .change old oldSize new newSize =>
    0 < oldSize + newSize ∧ (oldSize ≠ 0 → start.1 = old) ∧ (newSize ≠ 0 → start.2 = new)
      ∧ stop = (start.1 + oldSize, start.2 + newSize)

/-- Whether blocks lead from one place to another. -/
abbrev Blocks (sides : Sides) : Nat × Nat → List Block → Nat × Nat → Prop :=
  Way fun block start stop => block.Leads sides start stop

/-- Whether what is pending leads from one place to another. -/
structure Pending.Leads (start stop : Nat × Nat) (pending : Pending) : Prop where
  deleted : match pending.deleted with
    | some (old, size, _) => 0 < size ∧ start.1 = old ∧ stop.1 = old + size
    | .none => stop.1 = start.1
  inserted : match pending.inserted with
    | some (_, new, size) => 0 < size ∧ start.2 = new ∧ stop.2 = new + size
    | .none => stop.2 = start.2

namespace Pending

variable {pending : Pending} {here : Nat × Nat}

theorem leads_none (place : Nat × Nat) : Pending.none.Leads place place :=
  ⟨rfl, rfl⟩

theorem Leads.delete (leads : pending.Leads start here) (isSome : 0 < size) (follows : here.1 = old) :
    (pending.delete old size position).Leads start (old + size, here.2) := by
  obtain ⟨deleted, inserted⟩ := leads
  obtain ⟨pendingDeleted, pendingInserted⟩ := pending
  cases pendingDeleted with
  | none => exact ⟨⟨isSome, deleted.symm.trans follows, rfl⟩, inserted⟩
  | some run =>
    obtain ⟨some, here, there⟩ := deleted
    exact ⟨⟨Nat.add_pos_left some _, here, by simp only; omega⟩, inserted⟩

theorem Leads.insert (leads : pending.Leads start here) (isSome : 0 < size) (follows : here.2 = new) :
    (pending.insert position new size).Leads start (here.1, new + size) := by
  obtain ⟨deleted, inserted⟩ := leads
  obtain ⟨pendingDeleted, pendingInserted⟩ := pending
  cases pendingInserted with
  | none => exact ⟨deleted, ⟨isSome, inserted.symm.trans follows, rfl⟩⟩
  | some run =>
    obtain ⟨some, here, there⟩ := inserted
    exact ⟨deleted, ⟨Nat.add_pos_left some _, here, by simp only; omega⟩⟩

theorem Leads.blocks (leads : pending.Leads start stop) : Blocks sides start pending.blocks stop := by
  obtain ⟨deleted, inserted⟩ := leads
  obtain ⟨pendingDeleted, pendingInserted⟩ := pending
  cases pendingDeleted <;> cases pendingInserted
  all_goals dsimp only at deleted inserted
  · rw [show stop = start from Prod.ext deleted inserted]
    exact .nil start
  · obtain ⟨isSome, here, there⟩ := inserted
    refine .single ⟨Nat.add_pos_right _ isSome, fun some => absurd rfl some, fun _ => here, Prod.ext deleted ?_⟩
    rw [here, there]
  · obtain ⟨isSome, here, there⟩ := deleted
    refine .single ⟨Nat.add_pos_left isSome _, fun _ => here, fun some => absurd rfl some, Prod.ext ?_ inserted⟩
    rw [here, there]
  · obtain ⟨isSome, oldHere, oldThere⟩ := deleted
    obtain ⟨-, newHere, newThere⟩ := inserted
    refine .single ⟨Nat.add_pos_left isSome _, fun _ => oldHere, fun _ => newHere, Prod.ext ?_ ?_⟩
    · rw [oldHere, oldThere]
    · rw [newHere, newThere]

end Pending

theorem blocks_keepBefore {blocks : List Block} (way : Blocks sides start (.keep old new size :: blocks) stop) :
    Blocks sides start (keepBefore old new size blocks) stop := by
  unfold keepBefore
  split
  · cases way with
    | cons first rest =>
      cases rest with
      | cons second rest =>
        obtain ⟨some, rfl, rfl, agrees⟩ := first
        obtain ⟨-, here, rfl, otherAgrees⟩ := second
        obtain ⟨rfl, rfl⟩ := Prod.mk.inj here
        refine .cons ⟨Nat.add_pos_left some _, rfl, ?_, Sides.agrees_add_iff.mpr ⟨agrees, otherAgrees⟩⟩ rest
        rw [Nat.add_assoc, Nat.add_assoc]
  · exact way

/-- The blocks of a script lead the same way as it does. -/
theorem blocks_blocksAfter {pending : Pending} {here : Nat × Nat} (leads : pending.Leads start here)
    (way : Runs sides here runs stop) : Blocks sides start (blocksAfter pending runs) stop := by
  induction runs generalizing pending start here with
  | nil =>
    cases way
    exact leads.blocks
  | cons run runs inductionHypothesis =>
    cases way with
    | cons first rest =>
      cases run with
      | keep old new size =>
        refine leads.blocks.append (blocks_keepBefore (.cons first ?_))
        exact inductionHypothesis (Pending.leads_none _) rest
      | delete old size new =>
        obtain ⟨some, follows, rfl⟩ := first
        exact inductionHypothesis (leads.delete some follows) rest
      | insert old new size =>
        obtain ⟨some, follows, rfl⟩ := first
        exact inductionHypothesis (leads.insert some follows) rest

/-- The blocks of a comparison lead through both sides. -/
theorem blocks_blocks (sides : Sides) : Blocks sides (0, 0) (blocks sides) (sides.old.size, sides.new.size) :=
  blocks_blocksAfter (Pending.leads_none _) (runs_compacted (runs_script sides))

/-- The blocks of two sides that are the same hold no change. -/
theorem blocks_of_eq (same : sides.old = sides.new) :
    blocks sides = if sides.old.size = 0 then [] else [.keep 0 0 sides.old.size] := by
  rw [blocks, script_of_eq same]
  split <;> rfl

end Masthead.Diff

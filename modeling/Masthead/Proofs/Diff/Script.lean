import Masthead.Proofs.Diff.Middle

/-!
# Scripts lead from one side to the other

A script goes through both sides from their beginning to their end: each of its runs begins where
the one before it has ended, and kept lines are the same on both sides.
-/

namespace Masthead.Diff

/-! ## Ways -/

/-- Items that lead from one place to another, each from where the one before it has led. -/
inductive Way {Item : Type} (leads : Item → Nat × Nat → Nat × Nat → Prop) :
    Nat × Nat → List Item → Nat × Nat → Prop
  | nil (place : Nat × Nat) : Way leads place [] place
  | cons {start between stop : Nat × Nat} {item : Item} {items : List Item} (first : leads item start between)
    (rest : Way leads between items stop) : Way leads start (item :: items) stop

namespace Way

variable {Item : Type} {leads : Item → Nat × Nat → Nat × Nat → Prop} {start stop : Nat × Nat} {item : Item}
  {items others : List Item}

theorem single (first : leads item start stop) : Way leads start [item] stop :=
  .cons first (.nil stop)

theorem append_iff :
    Way leads start (items ++ others) stop ↔
      ∃ between, Way leads start items between ∧ Way leads between others stop := by
  constructor
  · intro way
    induction items generalizing start with
    | nil => exact ⟨start, .nil start, way⟩
    | cons item items inductionHypothesis =>
      cases way with
      | cons first rest =>
        obtain ⟨between, front, back⟩ := inductionHypothesis rest
        exact ⟨between, .cons first front, back⟩
  · rintro ⟨between, front, back⟩
    induction front with
    | nil => exact back
    | cons first _ inductionHypothesis => exact .cons first (inductionHypothesis back)

theorem append {between : Nat × Nat} (front : Way leads start items between) (back : Way leads between others stop) :
    Way leads start (items ++ others) stop :=
  append_iff.mpr ⟨between, front, back⟩

/-- The last items of a way can be replaced by others that lead to the same place. -/
theorem congr_behind {back : List Item} (same : ∀ between, Way leads between back stop → Way leads between others stop)
    (way : Way leads start (items ++ back) stop) : Way leads start (items ++ others) stop := by
  obtain ⟨between, before, behind⟩ := append_iff.mp way
  exact before.append (same between behind)

theorem congr_tail (same : ∀ between, Way leads between items stop → Way leads between others stop)
    (way : Way leads start (item :: items) stop) : Way leads start (item :: others) stop := by
  cases way with
  | cons first rest => exact .cons first (same _ rest)

end Way

/-! ## Runs -/

/-- Whether a run holds some lines and leads with them from one place to another. What is deleted is counted on the old
side only, and what is inserted on the new side only: the other position of such a run may be out of date when it has
been moved. -/
def Run.Leads (sides : Sides) (start stop : Nat × Nat) : Run → Prop
  | .keep old new size =>
    0 < size ∧ start = (old, new) ∧ stop = (old + size, new + size) ∧ sides.Agrees old new size
  | .delete old size _ => 0 < size ∧ start.1 = old ∧ stop = (old + size, start.2)
  | .insert _ new size => 0 < size ∧ start.2 = new ∧ stop = (start.1, new + size)

/-- Whether runs lead from one place to another. -/
abbrev Runs (sides : Sides) : Nat × Nat → List Run → Nat × Nat → Prop :=
  Way fun run start stop => run.Leads sides start stop

namespace Window

/-- The corner where a window begins. -/
def start (window : Window) : Nat × Nat :=
  (window.oldStart, window.newStart)

/-- The corner where a window ends. -/
def stop (window : Window) : Nat × Nat :=
  (window.oldStop, window.newStop)

variable {window : Window}

theorem IsSpan.stop_eq (isSpan : window.IsSpan) :
    window.stop = (window.oldStart + window.oldSize, window.newStart + window.newSize) :=
  Prod.ext (Nat.add_sub_of_le isSpan.old).symm (Nat.add_sub_of_le isSpan.new).symm

end Window

variable {sides : Sides} {window : Window} {old new size : Nat}

theorem runs_kept (agrees : sides.Agrees old new size) :
    Runs sides (old, new) (if size = 0 then [] else [.keep old new size]) (old + size, new + size) := by
  split
  · next none =>
    subst none
    exact .nil _
  · next some => exact .single ⟨Nat.pos_of_ne_zero some, rfl, rfl, agrees⟩

theorem runs_replacement (isSpan : window.IsSpan) : Runs sides window.start (replacement window) window.stop := by
  rw [isSpan.stop_eq, replacement]
  have deleted : Runs sides window.start (if window.oldSize = 0 then []
      else [.delete window.oldStart window.oldSize window.newStart])
      (window.oldStart + window.oldSize, window.newStart) := by
    split
    · next none =>
      rw [none]
      exact .nil _
    · next some => exact .single ⟨Nat.pos_of_ne_zero some, rfl, rfl⟩
  refine deleted.append ?_
  split
  · next none =>
    rw [none]
    exact .nil _
  · next some => exact .single ⟨Nat.pos_of_ne_zero some, rfl, rfl⟩

/-- The script of a window leads through all of it. -/
theorem runs_scriptWithin (depth : Nat) (isSpan : window.IsSpan) :
    Runs sides window.start (scriptWithin sides depth window) window.stop := by
  induction depth generalizing window with
  | zero => exact runs_replacement isSpan
  | succ depth inductionHypothesis =>
    obtain ⟨oldSpan, newSpan⟩ := isSpan
    unfold scriptWithin
    extract_lets ahead rest behind inner first last between
    have aheadBound : ahead ≤ min window.oldSize window.newSize := sides.equalAhead_le _ _ _
    have behindBound : behind ≤ min rest.oldSize rest.newSize := sides.equalBehind_le _ _ _
    simp only [Window.oldSize, Window.newSize, rest] at aheadBound behindBound
    have innerSpan : inner.IsSpan := by
      constructor <;> simp only [inner, rest] <;> omega
    have firstRuns : Runs sides window.start first inner.start :=
      runs_kept (sides.agrees_equalAhead _ _ _)
    have lastRuns : Runs sides inner.stop last window.stop := by
      have kept : Runs sides inner.stop last (inner.oldStop + behind, inner.newStop + behind) :=
        runs_kept (Sides.agrees_equalBehind (by simp only [Window.oldSize, Window.newSize, rest]; omega)
          (by simp only [Window.oldSize, Window.newSize, rest]; omega))
      have oldEnd : inner.oldStop + behind = window.oldStop := Nat.sub_add_cancel (by simp only [rest]; omega)
      have newEnd : inner.newStop + behind = window.newStop := Nat.sub_add_cancel (by simp only [rest]; omega)
      rwa [oldEnd, newEnd] at kept
    have betweenRuns : Runs sides inner.start between inner.stop := by
      simp only [between]
      split
      · exact runs_replacement innerSpan
      · split
        · next old new found =>
          -- The middle lies within the window, so that both parts of it are windows.
          have inside := contains_middle? innerSpan found
          have leftSpan : Window.IsSpan ⟨inner.oldStart, old, inner.newStart, new⟩ :=
            ⟨inside.oldStart, inside.newStart⟩
          have rightSpan : Window.IsSpan ⟨old, inner.oldStop, new, inner.newStop⟩ :=
            ⟨inside.oldStop, inside.newStop⟩
          exact (inductionHypothesis leftSpan).append (inductionHypothesis rightSpan)
        · exact runs_replacement innerSpan
    exact (firstRuns.append betweenRuns).append lastRuns

/-- A script leads through both sides. -/
theorem runs_script (sides : Sides) : Runs sides (0, 0) (script sides) (sides.old.size, sides.new.size) := by
  have isSpan : Window.IsSpan ⟨0, sides.old.size, 0, sides.new.size⟩ := ⟨Nat.zero_le _, Nat.zero_le _⟩
  exact runs_scriptWithin _ isSpan

/-- The script of two sides that are the same keeps all lines. -/
theorem script_of_eq (same : sides.old = sides.new) :
    script sides = if sides.old.size = 0 then [] else [.keep 0 0 sides.old.size] := by
  have agrees : sides.Agrees 0 0 sides.old.size := fun index _ => by rw [same]
  have ahead := Sides.equalAhead_of_agrees agrees
  rw [script, scriptWithin]
  simp only [Window.oldSize, Window.newSize, ← same, Nat.sub_zero, Nat.min_self, ahead, Nat.zero_add, Nat.sub_self,
    Sides.equalBehind, true_or, if_true, replacement, List.append_nil]

end Masthead.Diff

import Masthead.Proofs.Document.RoundTrip

/-!
# Edits keep a document readable

A document that is read from its own text stays one when lines are put in, replaced or changed, as
long as none of them is broken and the last line does not become empty.
-/

namespace Masthead.Document

theorem EndsShown.append {back : List Text} (ends : EndsShown back) (front : List Text) : EndsShown (front ++ back) := by
  obtain ⟨last, found, shown⟩ := ends
  exact ⟨last, by rw [List.getLast?_append, found, Option.some_or], shown⟩

theorem EndsShown.drop {lines : List Text} (ends : EndsShown lines) {count : Nat} (short : count < lines.length) :
    EndsShown (lines.drop count) := by
  obtain ⟨last, found, shown⟩ := ends
  exact ⟨last, by rw [List.getLast?_drop, if_neg (Nat.not_le.mpr short), found], shown⟩

theorem endsShown_of_forall {lines : List Text} (nonempty : lines ≠ []) (shown : ∀ line ∈ lines, line ≠ []) :
    EndsShown lines :=
  ⟨lines.getLast nonempty, List.getLast?_eq_some_getLast nonempty, shown _ (List.getLast_mem nonempty)⟩

variable {document : Document}

/-- Lines may be put between two parts of a document if something visible stands at the end, and either no line is left
out for them or they are more than one. -/
theorem WellFormed.splice (wellFormed : document.WellFormed) {first behind : Nat} {added : List Text}
    (unbroken : ∀ line ∈ added, Unbroken line)
    (ends : document.terminated = false → document.lines.length ≤ behind →
      EndsShown (document.lines.take first ++ added))
    (long : behind ≤ first ∨ 1 < added.length) :
    WellFormed { document with lines := document.lines.take first ++ added ++ document.lines.drop behind } := by
  constructor
  · intro line member
    simp only [List.mem_append] at member
    rcases member with (member | member) | member
    · exact wellFormed.unbroken line (List.mem_of_mem_take member)
    · exact unbroken line member
    · exact wellFormed.unbroken line (List.mem_of_mem_drop member)
  · intro unterminated
    -- The last line is the old one if anything is left behind the added lines.
    by_cases inner : behind < document.lines.length
    · exact ((wellFormed.ended unterminated).drop inner).append _
    · have atEnd := Nat.not_lt.mp inner
      simp only [List.drop_of_length_le atEnd, List.append_nil]
      exact ends unterminated atEnd
  · intro returned
    have detectable := wellFormed.detectable returned
    simp only [length_rows, List.length_append, List.length_take, List.length_drop] at detectable ⊢
    omega

theorem WellFormed.insertLines (wellFormed : document.WellFormed) {position : Nat} {added : List Text}
    (unbroken : ∀ line ∈ added, Unbroken line)
    (ends : document.lines.length ≤ position → added = [] ∨ EndsShown added) :
    (document.insertLines position added).WellFormed := by
  refine wellFormed.splice unbroken (fun unterminated atEnd => ?_) (.inl (Nat.le_refl _))
  rcases ends atEnd with rfl | shown
  · rw [List.take_of_length_le atEnd, List.append_nil]
    exact wellFormed.ended unterminated
  · exact shown.append _

theorem WellFormed.replaceLines (wellFormed : document.WellFormed) (first last : Nat) {replacement : List Text}
    (unbroken : ∀ line ∈ replacement, Unbroken line) (shown : ∀ line ∈ replacement, line ≠ [])
    (long : 1 < replacement.length) : (document.replaceLines first last replacement).WellFormed := by
  have nonempty : replacement ≠ [] := List.ne_nil_of_length_pos (Nat.zero_lt_of_lt long)
  exact wellFormed.splice unbroken (fun _ _ => (endsShown_of_forall nonempty shown).append _) (.inr long)

theorem WellFormed.setLine (wellFormed : document.WellFormed) (position : Nat) {line : Text}
    (unbroken : Unbroken line) (shown : line ≠ []) : (document.setLine position line).WellFormed := by
  constructor
  · intro other member
    rcases List.mem_or_eq_of_mem_set member with member | rfl
    · exact wellFormed.unbroken other member
    · exact unbroken
  · intro unterminated
    obtain ⟨last, found, lastShown⟩ := wellFormed.ended unterminated
    obtain ⟨front, linesEqual⟩ := List.getLast?_eq_some_iff.mp found
    simp only [Document.setLine, linesEqual, List.set_append]
    -- The last line is the new one or the old one, and visible in either case.
    split
    · exact ⟨last, by simp, lastShown⟩
    · cases position - front.length with
      | zero => exact ⟨line, by simp, shown⟩
      | succ beyond => exact ⟨last, by simp, lastShown⟩
  · intro returned
    have detectable := wellFormed.detectable returned
    simpa only [length_rows, Document.setLine, List.length_set] using detectable

end Masthead.Document

import Masthead.Text.Basic

/-!
# Splitting and joining

Splitting a text at a character and joining texts with a separator are the list operations of the
same kind, so what is known of those holds here. Read from its beginning, a text is a last piece, or
a piece with a separator and another text behind it.
-/

namespace Masthead.Text

theorem splitOn_cons (separator character : Char) (rest : Text) :
    splitOn separator (character :: rest)
      = if character = separator then [] :: splitOn separator rest
        else match splitOn separator rest with
          | [] => [[character]]
          | first :: others => (character :: first) :: others := rfl

theorem splitOn_eq (separator : Char) (text : Text) : splitOn separator text = List.splitOn separator text := by
  induction text with
  | nil => rfl
  | cons character rest inductionHypothesis =>
    rw [splitOn_cons, List.splitOn_cons_eq_if_modifyHead, inductionHypothesis]
    simp only [beq_iff_eq]
    cases pieces : List.splitOn separator rest with
    | nil => exact absurd pieces (List.splitOn_ne_nil separator rest)
    | cons first others => rfl

theorem joinWith_eq (separator : Text) (texts : List Text) :
    joinWith separator texts = separator.intercalate texts := by
  induction texts with
  | nil => rfl
  | cons first others inductionHypothesis =>
    cases others with
    | nil => rw [joinWith, List.intercalate_singleton]
    | cons second others =>
      rw [List.intercalate_cons_cons, List.append_assoc, ← inductionHypothesis]
      rfl

theorem joinWith_cons (separator first : Text) {others : List Text} (nonempty : others ≠ []) :
    joinWith separator (first :: others) = first ++ (separator ++ joinWith separator others) := by
  rw [joinWith_eq, joinWith_eq, List.intercalate_cons_of_ne_nil nonempty, List.append_assoc]

/-- The first texts, each with the separator behind it, stand before the others. -/
theorem joinWith_append (separator : Text) (front : List Text) {back : List Text} (nonempty : back ≠ []) :
    joinWith separator (front ++ back) = front.flatMap (· ++ separator) ++ joinWith separator back := by
  induction front with
  | nil => rfl
  | cons text front inductionHypothesis =>
    rw [List.cons_append, joinWith_cons _ _ (by simp [nonempty]), inductionHypothesis, List.flatMap_cons]
    simp only [List.append_assoc]

variable {separator : Char}

theorem splitOn_ne_nil (separator : Char) (text : Text) : splitOn separator text ≠ [] := by
  rw [splitOn_eq]
  exact List.splitOn_ne_nil separator text

theorem splitOn_of_not_mem {piece : Text} (absent : separator ∉ piece) : splitOn separator piece = [piece] := by
  rw [splitOn_eq, List.splitOn_eq_singleton absent]

theorem splitOn_append_cons (separator : Char) (text rest : Text) :
    splitOn separator (text ++ separator :: rest) = splitOn separator text ++ splitOn separator rest := by
  rw [splitOn_eq, splitOn_eq, splitOn_eq, List.splitOn_append_cons_self]

theorem splitOn_append {piece : Text} (absent : separator ∉ piece) (rest : Text) :
    splitOn separator (piece ++ separator :: rest) = piece :: splitOn separator rest := by
  rw [splitOn_append_cons, splitOn_of_not_mem absent, List.singleton_append]

/-- What holds of a last piece, and of a piece before a text of which it holds, holds of all texts. -/
@[elab_as_elim]
theorem pieceInduction {motive : Text → Prop} (separator : Char) (last : ∀ piece, separator ∉ piece → motive piece)
    (more : ∀ piece rest, separator ∉ piece → motive rest → motive (piece ++ separator :: rest)) (text : Text) :
    motive text := by
  by_cases present : separator ∈ text
  · obtain ⟨piece, rest, rfl, absent⟩ := List.eq_append_cons_of_mem present
    exact more piece rest absent (pieceInduction separator last more rest)
  · exact last text present
  termination_by text.length

theorem not_mem_of_mem_splitOn {separator : Char} {piece text : Text} (listed : piece ∈ splitOn separator text) :
    separator ∉ piece := by
  induction text using pieceInduction separator with
  | last text absent =>
    rw [splitOn_of_not_mem absent, List.mem_singleton] at listed
    exact listed ▸ absent
  | more first rest absent inductionHypothesis =>
    rw [splitOn_append absent, List.mem_cons] at listed
    rcases listed with rfl | listed
    · exact absent
    · exact inductionHypothesis listed

end Masthead.Text

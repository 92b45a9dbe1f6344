import Masthead.Proofs.Header.Line

/-!
# What the bounds of a header depend on

A header is found by its rules and its comment lines. A line with a letter in it that the comment
token does not hold is no rule, and whether it is a comment is settled before that letter. So a line
may change behind such a letter, and no header begins or ends elsewhere for it.
-/

namespace Masthead.Header

open Text

/-! ## Lines with a letter -/

theorem isCommentLine_append_cons {comment : Text} {letter : Char} (absent : letter ∉ comment)
    (visible : isWhite letter = false) (front rest : Text) :
    isCommentLine comment (front ++ letter :: rest) = isCommentLine comment front := by
  rw [Bool.eq_iff_iff, isCommentLine_iff, isCommentLine_iff, trimStart_append_cons front rest visible]
  refine and_congr_right fun _ => ⟨?_, fun begins => begins.trans (List.prefix_append _ _)⟩
  rintro ⟨more, equal⟩
  obtain ⟨middle, frontEqual, -⟩ := exists_split_of_not_mem absent equal
  exact ⟨middle, frontEqual.symm⟩

theorem isSeparator_eq_false_of_mem {comment line : Text} {letter : Char} (absent : letter ∉ comment)
    (member : letter ∈ line) (letterly : isLetterly letter = true) : isSeparator comment line = false := by
  have trimmed : letter ∈ trim line := mem_trim_of_visible member (isWhite_eq_false_of_isLetterly letterly)
  exact isSeparator_eq_false_of_letters ⟨letter, trimmed, letterly⟩ fun text _ equal =>
    ⟨letter, (List.mem_append.mp (equal ▸ trimmed)).resolve_left absent, letterly⟩

/-- All that decides where a header begins and ends: which lines are rules, and which are comments. -/
def standing (comment line : Text) : Bool × Bool :=
  (isSeparator comment line, isCommentLine comment line)

/-- What follows a letter does not matter. -/
theorem standing_append_cons {comment : Text} {letter : Char} (absent : letter ∉ comment)
    (letterly : isLetterly letter = true) (front rest other : Text) :
    standing comment (front ++ letter :: rest) = standing comment (front ++ letter :: other) := by
  have visible := isWhite_eq_false_of_isLetterly letterly
  have member (more : Text) : letter ∈ front ++ letter :: more := by simp
  rw [standing, standing, isSeparator_eq_false_of_mem absent (member _) letterly,
    isSeparator_eq_false_of_mem absent (member _) letterly, isCommentLine_append_cons absent visible,
    isCommentLine_append_cons absent visible]

/-! ## The same bounds -/

section Bounds

variable {comment : Text} {lines others : List Text}

theorem hasHeader_congr (same : lines.map (standing comment) = others.map (standing comment)) :
    hasHeader comment lines = hasHeader comment others := by
  have judged (lines : List Text) :
      hasHeader comment lines = ((lines.map (standing comment)).take guardWindow).any fun found => found.2 && found.1 := by
    rw [← List.map_take, List.any_map]
    rfl
  rw [judged, judged, same]

theorem findIdx?_isSeparator_congr (same : lines.map (standing comment) = others.map (standing comment)) (count : Nat) :
    (lines.take count).findIdx? (isSeparator comment) = (others.take count).findIdx? (isSeparator comment) := by
  have judged (lines : List Text) :
      (lines.take count).findIdx? (isSeparator comment) = ((lines.map (standing comment)).take count).findIdx? (·.1) := by
    rw [← List.map_take, List.findIdx?_map]
    rfl
  rw [judged, judged, same]

theorem lastSeparator?_congr (same : lines.map (standing comment) = others.map (standing comment)) :
    lastSeparator? comment lines = lastSeparator? comment others := by
  induction lines generalizing others with
  | nil =>
    rw [List.map_nil, eq_comm, List.map_eq_nil_iff] at same
    rw [same]
  | cons line lines inductionHypothesis =>
    cases others with
    | nil => cases same
    | cons other others =>
      rw [List.map_cons, List.map_cons, List.cons.injEq] at same
      obtain ⟨sameSeparator, sameComment⟩ := Prod.mk.inj same.1
      rw [lastSeparator?, lastSeparator?, sameSeparator, sameComment, inductionHypothesis same.2]

theorem locate_congr (same : lines.map (standing comment) = others.map (standing comment)) :
    locate comment lines = locate comment others := by
  have sameLength : lines.length = others.length := by simpa using congrArg List.length same
  have sameWindow (start count : Nat) : ((lines.drop start).take count).map (standing comment)
      = ((others.drop start).take count).map (standing comment) := by
    rw [List.map_take, List.map_drop, List.map_take, List.map_drop, same]
  simp only [locate, findBounds, hasHeader_congr same, findIdx?_isSeparator_congr same, sameLength,
    lastSeparator?_congr (sameWindow _ _)]

end Bounds

end Masthead.Header

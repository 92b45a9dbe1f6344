import Masthead.Proofs.Header.Closing

/-!
# Where a header begins and ends

The bounds of a header are described by where separators stand, and what is found are those bounds. A comment that is
closed is closed above the first line that belongs to no header, so nothing below such a line moves the bounds.
-/

namespace Masthead.Header

section

variable {comment : Text} {lines others : List Text} {bounds : Bounds}

theorem getElem?_eq_of_take_eq {count position : Nat} (same : others.take count = lines.take count)
    (within : position < count) : others[position]? = lines[position]? := by
  have taken := congrArg (·[position]?) same
  simpa [List.getElem?_take, within] using taken

theorem Opens.congr {first position : Nat} (opens : Opens comment lines first) (within : first ≤ position)
    (same : others.take (position + 1) = lines.take (position + 1)) : Opens comment others first := by
  obtain ⟨nearTop, rule, clearAbove⟩ := opens
  refine ⟨nearTop, ?_, fun before above => ?_⟩
  · rw [getElem?_eq_of_take_eq same (by omega)]
    exact rule
  · rw [getElem?_eq_of_take_eq same (by omega)]
    exact clearAbove before above

/-- A comment is closed before the first line that belongs to no header. -/
theorem Closes.lt_of_outside {first last position : Nat} (closes : Closes comment lines first last)
    (behind : first < position) (outside : lines[position]?.any (isHeaderLine comment) = false) : last < position := by
  rw [← Nat.not_le]
  intro reached
  rcases Nat.lt_or_eq_of_le reached with before | rfl
  · rw [closes.inner position behind before] at outside
    cases outside
  · obtain ⟨line, found, separates⟩ := (Option.any_eq_true _ _).mp closes.rule
    rw [found] at outside
    simp [isHeaderLine, separates] at outside

theorem Closes.congr {first last position : Nat} (closes : Closes comment lines first last) (behind : first < position)
    (outside : lines[position]?.any (isHeaderLine comment) = false)
    (same : others.take (position + 1) = lines.take (position + 1)) : Closes comment others first last := by
  have before := closes.lt_of_outside behind outside
  obtain ⟨below, within, rule, inner⟩ := closes
  have rule : others[last]?.any (isSeparator comment) = true := by
    rw [getElem?_eq_of_take_eq same (by omega)]
    exact rule
  have present : last < others.length := by
    obtain ⟨line, found, -⟩ := (Option.any_eq_true _ _).mp rule
    exact (List.getElem?_eq_some_iff.mp found).1
  refine ⟨below, by omega, rule, fun between after above => ?_⟩
  rw [getElem?_eq_of_take_eq same (by omega)]
  exact inner between after above

/-- Bounds that end at a separator stay, whatever stands below a line that belongs to no header. -/
theorem Encloses.congr {position : Nat} (encloses : Encloses comment lines bounds)
    (closed : ∃ last, Closes comment lines bounds.first last) (behind : bounds.first < position)
    (outside : lines[position]?.any (isHeaderLine comment) = false)
    (same : others.take (position + 1) = lines.take (position + 1)) : Encloses comment others bounds := by
  have otherOutside : others[position]?.any (isHeaderLine comment) = false := by
    rw [getElem?_eq_of_take_eq same (Nat.lt_succ_self _)]
    exact outside
  obtain ⟨last, closes⟩ := closed
  rcases encloses.ends with greatest | ⟨nowhere, -⟩
  · refine ⟨encloses.opens.congr (Nat.le_of_lt behind) same, .inl ⟨greatest.1.congr behind outside same, ?_⟩⟩
    intro other otherCloses
    exact greatest.2 (otherCloses.congr behind otherOutside same.symm)
  · exact absurd closes (nowhere last)

/-- Bounds are found unless there is no separator near the top, and what is found are the bounds as they are described.
They lie within the lines, and if a separator closes the comment, no line below the first one that belongs to no
header has a part in them. -/
theorem findBounds_encloses (comment : Text) (lines : List Text) :
    (findBounds comment lines = none ↔ ∀ line ∈ lines.take openingWindow, isSeparator comment line = false) ∧
      ∀ bounds, (findBounds comment lines = some bounds ↔ Encloses comment lines bounds) ∧
        (findBounds comment lines = some bounds →
          bounds.first ≤ bounds.last ∧ bounds.last < lines.length ∧
            ((∃ last, Closes comment lines bounds.first last) → ∀ position line, bounds.first < position →
              lines[position]? = some line → isHeaderLine comment line = false →
                ∀ others : List Text, others.take (position + 1) = lines.take (position + 1) →
                  findBounds comment others = some bounds)) := by
  refine ⟨findBounds_eq_none_iff, fun bounds => ⟨findBounds_eq_some_iff, fun found => ?_⟩⟩
  -- That the bounds lie within the lines follows from what encloses them, whether the end is found or guessed.
  have encloses := findBounds_eq_some_iff.mp found
  have present := encloses.opens.lt_length
  refine ⟨?_, ?_, ?_⟩
  · rcases encloses.ends with greatest | ⟨-, guess⟩
    · exact Nat.le_of_lt greatest.1.below
    · omega
  · rcases encloses.ends with greatest | ⟨-, guess⟩
    · have within := greatest.1.within
      omega
    · omega
  · intro closed position line behind stands outside others same
    have outsideHere : lines[position]?.any (isHeaderLine comment) = false := by
      rw [stands]
      exact outside
    exact findBounds_eq_some_iff.mpr (encloses.congr closed behind outsideHere same)

end

/-- The comment ends at its second rule of two, for a blank line stands before all others. -/
theorem findBounds_encloses_above_blank :
    let lines : List Text := ["#!/bin/sh", "#----------", "# a", "#==========", "# b", "", "#----------"]
    let others : List Text := lines.take 6 ++ List.replicate 60 "#==========".toList
    findBounds "#" lines = some ⟨1, 3⟩ ∧ Encloses "#" lines ⟨1, 3⟩ ∧ Closes "#" lines 1 3 ∧
      isHeaderLine "#" [] = false ∧ others.take 6 = lines.take 6 ∧ findBounds "#" others = some ⟨1, 3⟩ := by
  intro lines others
  obtain ⟨-, described⟩ := findBounds_encloses "#" lines
  obtain ⟨described, within⟩ := described ⟨1, 3⟩
  have found : findBounds "#" lines = some ⟨1, 3⟩ := by decide +kernel
  have closes : Closes "#" lines 1 3 := by
    refine ⟨by decide, by decide, by decide +kernel, fun position behind before => ?_⟩
    obtain rfl : position = 2 := by omega
    decide +kernel
  have outside : isHeaderLine "#" [] = false := by decide +kernel
  have same : others.take 6 = lines.take 6 := by decide +kernel
  exact ⟨found, described.mp found, closes, outside, same,
    (within found).2.2 ⟨3, closes⟩ 5 [] (by decide) rfl outside others same⟩

end Masthead.Header

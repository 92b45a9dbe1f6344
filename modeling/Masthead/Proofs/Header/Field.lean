import Mathlib.Data.List.TakeWhile
import Masthead.Header.Field
import Masthead.Proofs.Text.Affix

/-!
# Reading a field again

A line is cut at its first field into a head and a value. Which field that is depends on the head
alone, because a label is followed by the first colon behind it. So a head with another value behind
it is cut in the same place, and that value is read back.
-/

namespace Masthead.Header.FieldShape

open Text

variable {shape : FieldShape}

/-! ## What a cut is made of -/

theorem exists_of_colonBehind? {label text head rest : Text} (found : colonBehind? label text = some (head, rest)) :
    ∃ white, text = label ++ (white ++ ':' :: rest) ∧ head = label ++ (white ++ [':']) ∧
      ∀ character ∈ white, isWhite character = true := by
  unfold colonBehind? at found
  split at found
  · cases found
  · next behind equal =>
    split at found
    · next more colon =>
      cases found
      have split := List.takeWhile_append_dropWhile (p := isWhite) (l := behind)
      rw [colon] at split
      refine ⟨behind.takeWhile isWhite, ?_, List.append_assoc _ _ _, fun character member =>
        List.all_eq_true.mp List.all_takeWhile character member⟩
      rw [split, after?_eq_some_iff.mp equal]
    · cases found

theorem of_colonBehind? {label text head rest : Text} (found : colonBehind? label text = some (head, rest)) :
    label <+: head ∧ ':' ∈ head ∧ text = head ++ rest := by
  obtain ⟨white, textEqual, rfl, -⟩ := exists_of_colonBehind? found
  refine ⟨List.prefix_append _ _, by simp, ?_⟩
  rw [textEqual]
  simp only [List.append_assoc, List.singleton_append]

/-- A label with a colon is read where it stands. -/
theorem colonBehind?_append_colon (label : Text) {white : Text} (blank : ∀ character ∈ white, isWhite character = true)
    (rest : Text) : colonBehind? label (label ++ (white ++ ':' :: rest)) = some (label ++ (white ++ [':']), rest) := by
  have colon : (':' :: rest).head?.any isWhite = false := by
    show isWhite ':' = false
    decide
  simp only [colonBehind?, after?_append, takeWhile_append_of_stop blank colon, dropWhile_append_of_stop blank colon,
    List.append_assoc]

/-- The first label of a field with its colon, and what follows. -/
def named? (shape : FieldShape) (text : Text) : Option (Text × Text) :=
  shape.labels.findSome? fun label => colonBehind? label text

theorem of_named? {text head rest : Text} (named : shape.named? text = some (head, rest)) :
    (∃ label ∈ shape.labels, label <+: head) ∧ ':' ∈ head ∧ text = head ++ rest := by
  obtain ⟨label, member, found⟩ := List.exists_of_findSome?_eq_some named
  obtain ⟨begins, colon, equal⟩ := of_colonBehind? found
  exact ⟨⟨label, member, begins⟩, colon, equal⟩

/-- The value in what follows the colon. -/
def valueIn (shape : FieldShape) (rest : Text) : Text :=
  trimEnd (rest.dropWhile shape.isGap)

/-- What may stand as the value of a field. -/
structure IsValue (shape : FieldShape) (value : Text) : Prop where
  oneLine : '\n' ∉ value
  trimmed : trimEnd value = value
  begins : ∀ character, value.head? = some character → shape.isGap character = false
  present : shape.needsValue = true → value ≠ []

theorem isValue_valueIn {rest : Text} (oneLine : '\n' ∉ shape.valueIn rest)
    (present : shape.needsValue = true → shape.valueIn rest ≠ []) : shape.IsValue (shape.valueIn rest) := by
  obtain ⟨white, split, blank⟩ := exists_trimEnd_split (rest.dropWhile shape.isGap)
  refine ⟨oneLine, ?_, ?_, present⟩
  · have trimmed := trimEnd_append_white (shape.valueIn rest) blank
    rw [valueIn, ← split] at trimmed
    exact trimmed.symm
  · intro character head
    have first := List.head?_dropWhile_not shape.isGap rest
    rw [split, List.head?_append, show (trimEnd (rest.dropWhile shape.isGap)).head? = some character from head] at first
    simpa using first

theorem cutHere?_eq_some_iff {text : Text} {found : Cut} :
    shape.cutHere? text = some found ↔
      ∃ head rest, shape.named? text = some (head, rest) ∧ shape.IsValue (shape.valueIn rest) ∧
        found = ⟨head ++ rest.takeWhile shape.isGap, shape.valueIn rest⟩ := by
  unfold cutHere?
  cases named : shape.labels.findSome? fun label => colonBehind? label text with
  | none => simp [named?, named]
  | some pair =>
    obtain ⟨head, rest⟩ := pair
    simp only [named?, named, Option.some.injEq, Prod.mk.injEq]
    constructor
    · -- A value is refused if it is broken or missing, which is what a value of the field may not be.
      intro cut
      split at cut
      · cases cut
      · next sound =>
        cases cut
        simp only [Bool.or_eq_true, Bool.and_eq_true, List.contains_iff_mem, List.isEmpty_iff, not_or, not_and] at sound
        exact ⟨head, rest, ⟨rfl, rfl⟩, isValue_valueIn sound.1 sound.2, rfl⟩
    · rintro ⟨_, _, ⟨rfl, rfl⟩, isValue, rfl⟩
      refine if_neg ?_
      simp only [Bool.or_eq_true, Bool.and_eq_true, List.contains_iff_mem, List.isEmpty_iff, not_or, not_and]
      exact ⟨isValue.oneLine, isValue.present⟩

/-- A line is cut where a word and the field begin, or behind its first character. -/
theorem cutAfter?_cases {before : Option Char} {line : Text} {found : Cut}
    (cut : shape.cutAfter? before line = some found) :
    (atWordBoundary before line = true ∧ shape.cutHere? line = some found) ∨
      ∃ character rest later, line = character :: rest ∧ found = ⟨character :: later.head, later.value⟩ ∧
        (atWordBoundary before line = true → shape.cutHere? line = none) ∧ character ≠ '\n' ∧
        shape.cutAfter? (some character) rest = some later := by
  cases line with
  | nil => cases cut
  | cons character rest =>
    rw [cutAfter?] at cut
    -- Nothing begins here either because no word does or because no field does.
    cases here : if atWordBoundary before (character :: rest) = true then shape.cutHere? (character :: rest) else none with
    | some other =>
      rw [here] at cut
      cases cut
      split at here
      · next boundary => exact .inl ⟨boundary, here⟩
      · cases here
    | none =>
      rw [here] at cut
      dsimp only at cut
      split at cut
      · cases cut
      · next inner =>
        obtain ⟨later, laterFound, rfl⟩ := Option.map_eq_some_iff.mp cut
        refine .inr ⟨character, rest, later, rfl, rfl, fun boundary => ?_, inner, laterFound⟩
        rwa [if_pos boundary] at here

theorem cutAfter?_of_here {before : Option Char} {line : Text} {found : Cut}
    (boundary : atWordBoundary before line = true) (here : shape.cutHere? line = some found) :
    shape.cutAfter? before line = some found := by
  cases line with
  | nil =>
    obtain ⟨head, rest, named, -, -⟩ := cutHere?_eq_some_iff.mp here
    obtain ⟨-, colon, equal⟩ := of_named? named
    rw [(List.append_eq_nil_iff.mp equal.symm).1] at colon
    cases colon
  | cons character rest => rw [cutAfter?, if_pos boundary, here]

theorem cutAfter?_of_later {before : Option Char} {character : Char} {rest : Text} {later : Cut}
    (nothing : atWordBoundary before (character :: rest) = true → shape.cutHere? (character :: rest) = none)
    (inner : character ≠ '\n') (found : shape.cutAfter? (some character) rest = some later) :
    shape.cutAfter? before (character :: rest) = some ⟨character :: later.head, later.value⟩ := by
  have here : (if atWordBoundary before (character :: rest) = true then shape.cutHere? (character :: rest) else none)
      = none := by
    split
    · next boundary => exact nothing boundary
    · rfl
  rw [cutAfter?, here]
  dsimp only
  rw [if_neg inner, found]
  rfl

/-- What is found in a line begins at some place in it. -/
theorem exists_here_of_cutAfter? {before : Option Char} {line : Text} {found : Cut}
    (cut : shape.cutAfter? before line = some found) :
    ∃ front rest here, line = front ++ rest ∧ shape.cutHere? rest = some here ∧
      found = ⟨front ++ here.head, here.value⟩ := by
  induction line generalizing before found with
  | nil => cases cut
  | cons character rest inductionHypothesis =>
    rcases cutAfter?_cases cut with ⟨-, here⟩ | ⟨_, _, later, equal, rfl, -, -, laterFound⟩
    · exact ⟨[], _, found, rfl, here, rfl⟩
    · cases equal
      obtain ⟨front, behind, here, rfl, cutHere, rfl⟩ := inductionHypothesis laterFound
      exact ⟨character :: front, behind, here, rfl, cutHere, rfl⟩

section

variable {before : Option Char} {line : Text} {found : Cut} (cut : shape.cutAfter? before line = some found)

include cut

/-- A line is the head of its field, the value, and blanks at the end. -/
theorem of_cutAfter? :
    (∃ label ∈ shape.labels, label <:+: found.head) ∧ ':' ∈ found.head ∧ shape.IsValue found.value ∧
      ∃ white, line = found.head ++ (found.value ++ white) ∧ ∀ character ∈ white, isWhite character = true := by
  obtain ⟨front, rest, here, rfl, cutHere, rfl⟩ := exists_here_of_cutAfter? cut
  obtain ⟨head, behind, named, isValue, rfl⟩ := cutHere?_eq_some_iff.mp cutHere
  obtain ⟨⟨label, member, begins⟩, colon, equal⟩ := of_named? named
  obtain ⟨white, split, blank⟩ := exists_trimEnd_split (behind.dropWhile shape.isGap)
  have inside : label <:+: front ++ (head ++ behind.takeWhile shape.isGap) :=
    (begins.trans (List.prefix_append _ _)).isInfix.trans (List.suffix_append _ _).isInfix
  refine ⟨⟨label, member, inside⟩, by simp [colon], isValue, white, ?_, blank⟩
  rw [equal, valueIn, ← split]
  simp only [List.append_assoc, List.takeWhile_append_dropWhile]

/-- The head of a field ends in its label, the colon and the gap behind it. -/
theorem exists_head_of_cutAfter? :
    ∃ front label white gap, found.head = front ++ (label ++ (white ++ ':' :: gap)) ∧ label ∈ shape.labels ∧
      (∀ character ∈ white, isWhite character = true) ∧ ∀ character ∈ gap, shape.isGap character = true := by
  obtain ⟨front, rest, here, rfl, cutHere, rfl⟩ := exists_here_of_cutAfter? cut
  obtain ⟨head, behind, named, -, rfl⟩ := cutHere?_eq_some_iff.mp cutHere
  obtain ⟨label, member, found⟩ := List.exists_of_findSome?_eq_some named
  obtain ⟨white, -, rfl, blank⟩ := exists_of_colonBehind? found
  refine ⟨front, label, white, behind.takeWhile shape.isGap, ?_, member, blank,
    fun gap member => List.all_eq_true.mp List.all_takeWhile gap member⟩
  simp only [List.append_assoc, List.singleton_append]

end

/-! ## Another value behind the same head -/

theorem colonBehind?_append {label text : Text} (plain : ':' ∉ label) (colon : ':' ∈ text) (rest : Text) :
    colonBehind? label (text ++ rest) = (colonBehind? label text).map fun found => (found.1, found.2 ++ rest) := by
  cases alone : colonBehind? label text with
  | some found =>
    obtain ⟨head, behind⟩ := found
    obtain ⟨white, rfl, rfl, blank⟩ := exists_of_colonBehind? alone
    simp only [List.append_assoc, List.cons_append, Option.map_some]
    exact colonBehind?_append_colon label blank (behind ++ rest)
  | none =>
    cases joined : colonBehind? label (text ++ rest) with
    | none => rfl
    | some found =>
      obtain ⟨head, behind⟩ := found
      obtain ⟨white, equal, -, blank⟩ := exists_of_colonBehind? joined
      rw [← List.append_assoc] at equal
      have absent : ':' ∉ label ++ white := by
        rw [List.mem_append, not_or]
        exact ⟨plain, fun member => absurd (blank _ member) (by decide)⟩
      -- The colon behind the label stands in the text, so that the label would have been read there.
      rcases List.append_eq_append_iff.mp equal with ⟨middle, labelEqual, -⟩ | ⟨middle, rfl, restEqual⟩
      · exact absurd (labelEqual ▸ List.mem_append_left _ colon) absent
      · cases middle with
        | nil =>
          rw [List.append_nil] at colon
          exact absurd colon absent
        | cons sign more =>
          cases (List.cons.inj restEqual).1
          rw [List.append_assoc, colonBehind?_append_colon label blank more] at alone
          cases alone

theorem named?_append (plain : ∀ label ∈ shape.labels, ':' ∉ label) {text : Text} (colon : ':' ∈ text) (rest : Text) :
    shape.named? (text ++ rest) = (shape.named? text).map fun found => (found.1, found.2 ++ rest) := by
  unfold named?
  generalize shape.labels = labels at plain
  induction labels with
  | nil => rfl
  | cons label labels inductionHypothesis =>
    have later := inductionHypothesis fun other member => plain other (List.mem_cons_of_mem _ member)
    rw [List.findSome?_cons, List.findSome?_cons, colonBehind?_append (plain label List.mem_cons_self) colon, later]
    cases colonBehind? label text <;> rfl

theorem IsValue.isBlank_eq_false {value : Text} (isValue : shape.IsValue value) (nonempty : value ≠ []) :
    isBlank value = false := by
  rw [Bool.eq_false_iff]
  intro blank
  have trimmed := trimEnd_append_white [] (List.all_eq_true.mp blank)
  rw [List.nil_append, isValue.trimmed] at trimmed
  exact nonempty trimmed

/-- Behind a gap and before blanks at the end a value is read as it is. -/
theorem valueIn_append_white {gap value white : Text} (isValue : shape.IsValue value)
    (gapOnly : ∀ character ∈ gap, shape.isGap character = true)
    (blank : ∀ character ∈ white, isWhite character = true) : shape.valueIn (gap ++ (value ++ white)) = value := by
  rw [valueIn, List.dropWhile_append_of_pos gapOnly]
  cases value with
  | nil =>
    -- Nothing is left of blanks, whether they belong to the gap or not.
    have dropped : ∀ character ∈ white.dropWhile shape.isGap, isWhite character = true :=
      fun character member => blank character ((List.dropWhile_sublist _).subset member)
    simpa [trimEnd] using trimEnd_append_white [] dropped
  | cons first rest =>
    have kept : (first :: rest ++ white).dropWhile shape.isGap = first :: rest ++ white := by
      simp [isValue.begins first rfl]
    rw [kept, trimEnd_append_white _ blank, isValue.trimmed]

theorem valueIn_append_value {gap value : Text} (isValue : shape.IsValue value)
    (gapOnly : ∀ character ∈ gap, shape.isGap character = true) : shape.valueIn (gap ++ value) = value := by
  have read : shape.valueIn (gap ++ (value ++ [])) = value :=
    valueIn_append_white isValue gapOnly fun _ member => nomatch member
  rwa [List.append_nil] at read

theorem takeWhile_append_value {gap value : Text} (isValue : shape.IsValue value)
    (gapOnly : ∀ character ∈ gap, shape.isGap character = true) :
    (gap ++ value).takeWhile shape.isGap = gap := by
  rw [List.takeWhile_append_of_pos gapOnly]
  cases value with
  | nil => simp
  | cons first rest => simp [isValue.begins first rfl]

/-- Where another value can stand at the end of what follows a colon, the old one could. -/
theorem isValue_valueIn_append {behind value old white : Text}
    (isValue : shape.IsValue value) (nonempty : value ≠ []) (oldIsValue : shape.IsValue old)
    (blank : ∀ character ∈ white, isWhite character = true) (sound : shape.IsValue (shape.valueIn (behind ++ value))) :
    shape.IsValue (shape.valueIn (behind ++ (old ++ white))) := by
  by_cases gapOnly : ∀ character ∈ behind, shape.isGap character = true
  · rwa [valueIn_append_white oldIsValue gapOnly blank]
  · -- Then something is seen before the value, which is part of the value with either end.
    have seen : behind.dropWhile shape.isGap ≠ [] := mt List.dropWhile_eq_nil_iff.mp gapOnly
    have dropped (rest : Text) : (behind ++ rest).dropWhile shape.isGap = behind.dropWhile shape.isGap ++ rest := by
      rw [List.dropWhile_append, if_neg (by simpa using seen)]
    have whole : shape.valueIn (behind ++ value) = behind.dropWhile shape.isGap ++ value := by
      rw [valueIn, dropped, trimEnd_append (isValue.isBlank_eq_false nonempty), isValue.trimmed]
    have absent : '\n' ∉ behind.dropWhile shape.isGap := by
      intro member
      apply sound.oneLine
      rw [whole]
      exact List.mem_append_left _ member
    have oldWhole : shape.valueIn (behind ++ (old ++ white)) = trimEnd (behind.dropWhile shape.isGap ++ old) := by
      rw [valueIn, dropped, ← List.append_assoc, trimEnd_append_white _ blank]
    apply isValue_valueIn
    · rw [oldWhole]
      intro member
      obtain ⟨cut, split, -⟩ := exists_trimEnd_split (behind.dropWhile shape.isGap ++ old)
      have inside : '\n' ∈ behind.dropWhile shape.isGap ++ old := split ▸ List.mem_append_left _ member
      exact (List.mem_append.mp inside).elim absent oldIsValue.oneLine
    · intro needed
      rw [oldWhole, trimEnd_append (oldIsValue.isBlank_eq_false (oldIsValue.present needed))]
      exact List.append_ne_nil_of_left_ne_nil seen _

section

variable (plain : ∀ label ∈ shape.labels, ':' ∉ label) {value : Text} (isValue : shape.IsValue value)

include plain isValue

/-- A text that begins with a field does so with another value. -/
theorem cutHere?_head_append {text : Text} {found : Cut} (here : shape.cutHere? text = some found) :
    shape.cutHere? (found.head ++ value) = some ⟨found.head, value⟩ := by
  obtain ⟨head, behind, named, -, rfl⟩ := cutHere?_eq_some_iff.mp here
  obtain ⟨-, colon, equal⟩ := of_named? named
  have gapOnly : ∀ gap ∈ behind.takeWhile shape.isGap, shape.isGap gap = true :=
    fun gap member => List.all_eq_true.mp List.all_takeWhile gap member
  have colonHead : ':' ∈ head ++ behind.takeWhile shape.isGap := List.mem_append_left _ colon
  -- The same label is found in the head, and behind its colon the gap and the value.
  have namedHead : shape.named? (head ++ behind.takeWhile shape.isGap ++ value)
      = some (head, behind.takeWhile shape.isGap ++ value) := by
    have split : text = head ++ behind.takeWhile shape.isGap ++ behind.dropWhile shape.isGap := by
      rw [equal, List.append_assoc, List.takeWhile_append_dropWhile]
    rw [split, named?_append plain colonHead] at named
    obtain ⟨⟨_, gap⟩, namedAlone, same⟩ := Option.map_eq_some_iff.mp named
    obtain ⟨rfl, gapEqual⟩ := Prod.mk.inj same
    have gapSame : gap = behind.takeWhile shape.isGap :=
      List.append_cancel_right (gapEqual.trans List.takeWhile_append_dropWhile.symm)
    rw [named?_append plain colonHead, namedAlone, Option.map_some, gapSame]
  refine cutHere?_eq_some_iff.mpr ⟨head, behind.takeWhile shape.isGap ++ value, namedHead, ?_, ?_⟩
  · rwa [valueIn_append_value isValue gapOnly]
  · rw [valueIn_append_value isValue gapOnly, takeWhile_append_value isValue gapOnly]

/-- A text that begins with no field, but has one, begins with none when that one gets another value. -/
theorem cutHere?_append_eq_none (nonempty : value ≠ []) {head old white : Text} (colon : ':' ∈ head)
    (oldIsValue : shape.IsValue old) (blank : ∀ character ∈ white, isWhite character = true)
    (nothing : shape.cutHere? (head ++ (old ++ white)) = none) : shape.cutHere? (head ++ value) = none := by
  cases other : shape.cutHere? (head ++ value) with
  | none => rfl
  | some other =>
    -- A field that begins here with the new value would have begun here with the old one.
    obtain ⟨first, behind, named, sound, -⟩ := cutHere?_eq_some_iff.mp other
    rw [named?_append plain colon] at named
    obtain ⟨⟨first, gap⟩, namedAlone, same⟩ := Option.map_eq_some_iff.mp named
    cases same
    have namedOld : shape.named? (head ++ (old ++ white)) = some (first, gap ++ (old ++ white)) := by
      rw [named?_append plain colon, namedAlone, Option.map_some]
    have cutOld := cutHere?_eq_some_iff.mpr ⟨_, _, namedOld,
      isValue_valueIn_append isValue nonempty oldIsValue blank sound, rfl⟩
    rw [nothing] at cutOld
    cases cutOld

/-- A head with another value behind it is cut where it was. -/
theorem cutAfter?_head_append (nonempty : value ≠ []) {before : Option Char} {line : Text} {found : Cut}
    (cut : shape.cutAfter? before line = some found) :
    shape.cutAfter? before (found.head ++ value) = some ⟨found.head, value⟩ := by
  induction line generalizing before found with
  | nil => cases cut
  | cons character rest inductionHypothesis =>
    -- The field begins at this character or behind it; in either case the head alone decides where.
    rcases cutAfter?_cases cut with ⟨boundary, here⟩ | ⟨_, _, later, equal, rfl, nothing, inner, laterFound⟩
    · refine cutAfter?_of_here ?_ (cutHere?_head_append plain isValue here)
      obtain ⟨-, colon, -, white, split, -⟩ := of_cutAfter? cut
      obtain ⟨first, head, headEqual⟩ := List.exists_cons_of_ne_nil (List.ne_nil_of_mem colon)
      rw [headEqual] at split ⊢
      rw [split] at boundary
      exact boundary
    · cases equal
      obtain ⟨-, colon, oldIsValue, white, split, blank⟩ := of_cutAfter? laterFound
      refine cutAfter?_of_later (fun boundary => ?_) inner (inductionHypothesis laterFound)
      have nothingHere := nothing boundary
      rw [split, ← List.cons_append] at nothingHere
      exact cutHere?_append_eq_none plain isValue nonempty (List.mem_cons_of_mem _ colon) oldIsValue blank nothingHere

end

end Masthead.Header.FieldShape

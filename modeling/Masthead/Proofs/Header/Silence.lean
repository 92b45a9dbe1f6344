import Masthead.Proofs.Header.CreationDate
import Masthead.Proofs.Header.Refresh

/-!
# Lines without a day of creation

A line is silent if no day of creation is read from it, now or when its labels have been repaired. A
silent line stays so when a volatile field in it is renewed with a silent value: a day that is read
behind another colon of the line would have been read there before, and the label of the field is no
label of a day.
-/

namespace Masthead.Header

open Text

theorem atWordBoundary_congr {before other : Option Char} (same : before.any isWord = other.any isWord) (text : Text) :
    atWordBoundary before text = atWordBoundary other text := by
  rw [atWordBoundary, atWordBoundary, same]

/-! ## Fields behind a front -/

namespace FieldShape

variable {shape : FieldShape} {before other : Option Char}

theorem cutAfter?_congr (same : before.any isWord = other.any isWord) (text : Text) :
    shape.cutAfter? before text = shape.cutAfter? other text := by
  cases text with
  | nil => rfl
  | cons character rest => rw [cutAfter?, cutAfter?, atWordBoundary_congr same]

theorem cutAfter?_cons_eq_none_iff {character : Char} {rest : Text} :
    shape.cutAfter? before (character :: rest) = none ↔
      (atWordBoundary before (character :: rest) = true → shape.cutHere? (character :: rest) = none) ∧
        (character ≠ '\n' → shape.cutAfter? (some character) rest = none) := by
  rw [cutAfter?]
  by_cases boundary : atWordBoundary before (character :: rest) = true
  · simp only [boundary, forall_const]
    cases shape.cutHere? (character :: rest) with
    | some found => simp
    | none =>
      by_cases line : character = '\n' <;> simp [line]
  · simp only [boundary]
    by_cases line : character = '\n' <;> simp [line]

/-- Where nothing is found in a line, nothing is found in its rest. -/
theorem cutAfter?_eq_none_of_append {front rest : Text} (oneLine : '\n' ∉ front)
    (nothing : shape.cutAfter? before (front ++ rest) = none) :
    shape.cutAfter? (front.getLast?.or before) rest = none := by
  induction front generalizing before with
  | nil => exact nothing
  | cons character front inductionHypothesis =>
    simp only [List.mem_cons, not_or] at oneLine
    rw [getLast?_cons_or]
    exact inductionHypothesis oneLine.2 ((cutAfter?_cons_eq_none_iff.mp nothing).2 (Ne.symm oneLine.1))

/-- Nothing is found in a line if nothing begins in its front and nothing is found behind it. -/
theorem cutAfter?_append_eq_none {front rest : Text}
    (nowhere : ∀ tail, tail <:+ front → tail ≠ [] → shape.cutHere? (tail ++ rest) = none)
    (nothing : shape.cutAfter? (front.getLast?.or before) rest = none) :
    shape.cutAfter? before (front ++ rest) = none := by
  induction front generalizing before with
  | nil => exact nothing
  | cons character front inductionHypothesis =>
    rw [getLast?_cons_or] at nothing
    refine cutAfter?_cons_eq_none_iff.mpr ⟨fun _ => nowhere _ List.suffix_rfl (List.cons_ne_nil _ _), fun _ => ?_⟩
    exact inductionHypothesis (fun tail behind => nowhere tail (behind.trans (List.suffix_cons _ _))) nothing

theorem exists_label_of_cutHere? {text : Text} {found : Cut} (here : shape.cutHere? text = some found) :
    ∃ label ∈ shape.labels, label <+: text := by
  obtain ⟨head, rest, named, -, -⟩ := cutHere?_eq_some_iff.mp here
  obtain ⟨⟨label, member, begins⟩, -, equal⟩ := of_named? named
  exact ⟨label, member, begins.trans ⟨rest, equal.symm⟩⟩

/-- Behind a colon within the front a value is read with either end of the line, if it is read with one. -/
theorem isValue_valueIn_of_colon (colonSeen : shape.isGap ':' = false) {front gap value trailing other : Text}
    (oneLine : '\n' ∉ gap ++ value) (blank : ∀ character ∈ trailing, isWhite character = true)
    (isValue : shape.IsValue (shape.valueIn (front ++ ':' :: other))) :
    shape.IsValue (shape.valueIn (front ++ ':' :: (gap ++ (value ++ trailing)))) := by
  -- The colon is no gap and no blank, so that trimming leaves everything before it alone.
  have read (rest : Text) : shape.valueIn (front ++ ':' :: rest)
      = trimEnd (front.dropWhile shape.isGap ++ ':' :: rest) := by
    rw [valueIn, dropWhile_append_cons _ _ colonSeen]
  have colonVisible : isWhite ':' = false := by decide
  obtain ⟨more, whole⟩ := exists_trimEnd_append_cons (front.dropWhile shape.isGap) other colonVisible
  have lineFront : '\n' ∉ front.dropWhile shape.isGap := by
    intro member
    apply isValue.oneLine
    rw [read, whole]
    exact List.mem_append_left _ member
  have same : shape.valueIn (front ++ ':' :: (gap ++ (value ++ trailing)))
      = trimEnd (front.dropWhile shape.isGap ++ ':' :: (gap ++ value)) := by
    rw [read, ← List.append_assoc gap, ← List.cons_append, ← List.append_assoc, trimEnd_append_white _ blank]
  obtain ⟨white, split, -⟩ := exists_trimEnd_split (front.dropWhile shape.isGap ++ ':' :: (gap ++ value))
  apply isValue_valueIn
  · rw [same]
    intro member
    have inside : '\n' ∈ front.dropWhile shape.isGap ++ ':' :: (gap ++ value) := split ▸ List.mem_append_left _ member
    simp only [List.mem_append, List.mem_cons] at inside oneLine
    rcases inside with inFront | colon | inValue
    · exact lineFront inFront
    · exact absurd colon (by decide)
    · exact oneLine inValue
  · intro _
    obtain ⟨rest, ended⟩ := exists_trimEnd_append_cons (front.dropWhile shape.isGap) (gap ++ value) colonVisible
    rw [same, ended]
    exact List.append_ne_nil_of_right_ne_nil _ (List.cons_ne_nil _ _)

end FieldShape

/-! ## A day behind another field -/

/-- No label of a day begins in a text without word characters. -/
theorem Wordless.cutHere?_append {tail rest : Text} (wordless : Wordless tail) (nonempty : tail ≠ []) :
    creationField.cutHere? (tail ++ rest) = none := by
  cases here : creationField.cutHere? (tail ++ rest) with
  | none => rfl
  | some found =>
    obtain ⟨label, member, begins⟩ := FieldShape.exists_label_of_cutHere? here
    obtain ⟨first, tail, rfl⟩ := List.exists_cons_of_ne_nil nonempty
    have words : ∀ label ∈ creationField.labels, label.head?.any isWord = true := by decide
    have word := words label member
    cases label with
    | nil => cases word
    | cons letter label =>
      rw [(List.cons_prefix_cons.mp begins).1] at word
      exact absurd (word.symm.trans (wordless first List.mem_cons_self)) (by decide)

/-- What is named in front of the colon of another field has a colon of its own there, whatever follows. -/
theorem exists_of_named?_behind_colon {front other head behind : Text}
    (foreign : ∀ label ∈ creationField.labels, ∀ white, (∀ character ∈ white, isWhite character = true) →
      label ++ white ≠ front)
    (named : creationField.named? (front ++ ':' :: other) = some (head, behind)) :
    ∃ inner, behind = inner ++ ':' :: other ∧
      ∀ rest, creationField.named? (front ++ ':' :: rest) = some (head, inner ++ ':' :: rest) := by
  have split (rest : Text) : front ++ ':' :: rest = (front ++ [':']) ++ rest := by simp
  have alone (rest : Text) : creationField.named? (front ++ ':' :: rest)
      = (creationField.named? (front ++ [':'])).map fun found => (found.1, found.2 ++ rest) := by
    rw [split, FieldShape.named?_append creationLabel_colonless (by simp)]
  rw [alone] at named
  obtain ⟨⟨head, left⟩, namedAlone, same⟩ := Option.map_eq_some_iff.mp named
  cases same
  obtain ⟨label, member, found⟩ := List.exists_of_findSome?_eq_some namedAlone
  obtain ⟨white, frontEqual, -, whiteBlank⟩ := FieldShape.exists_of_colonBehind? found
  rcases List.eq_nil_or_concat left with rfl | ⟨inner, last, rfl⟩
  · -- Otherwise the colon of the other field would be the one behind the label of a day.
    have ends : front = label ++ white :=
      List.append_cancel_right (frontEqual.trans (List.append_assoc label white [':']).symm)
    exact absurd ends.symm (foreign label member white whiteBlank)
  · have ends := congrArg List.getLast? frontEqual
    obtain rfl : last = ':' := by simpa [List.getLast?_append, List.getLast?_cons] using ends.symm
    rw [List.concat_eq_append] at namedAlone ⊢
    refine ⟨inner, by simp, fun rest => ?_⟩
    rw [alone, namedAlone]
    simp

section

variable {before : Option Char} {gap : Text} (gapOnly : ∀ character ∈ gap, character = ' ' ∨ character = '\t')

include gapOnly

theorem wordless_colon : Wordless (':' :: gap) := by
  intro character member
  rcases List.mem_cons.mp member with rfl | member
  · decide
  · rcases gapOnly character member with rfl | rfl <;> decide

theorem newline_not_mem_gap : '\n' ∉ gap := fun member => by
  rcases gapOnly _ member with equal | equal <;> exact absurd equal (by decide)

/-- Behind a colon and its blanks a word begins as at the beginning of a line. -/
theorem isWord_getLast?_colon (text : Text) :
    ((text ++ ':' :: gap).getLast?.or before).any isWord = (none : Option Char).any isWord := by
  obtain ⟨last, equal⟩ := Option.isSome_iff_exists.mp (by simp : ((':' :: gap).getLast?).isSome = true)
  rw [List.getLast?_append, equal, Option.some_or, Option.some_or]
  exact wordless_colon gapOnly last (List.mem_of_getLast? equal)

theorem cutAfter?_colon_append_eq_none {value : Text} (silent : creationField.cut? value = none) :
    creationField.cutAfter? before (':' :: (gap ++ value)) = none := by
  have nowhere : ∀ tail, tail <:+ ':' :: gap → tail ≠ [] → creationField.cutHere? (tail ++ value) = none := by
    intro tail inside nonempty
    have wordless : Wordless tail := fun character member => wordless_colon gapOnly character (inside.subset member)
    exact wordless.cutHere?_append nonempty
  refine FieldShape.cutAfter?_append_eq_none nowhere ?_
  exact (FieldShape.cutAfter?_congr (isWord_getLast?_colon gapOnly []) value).trans silent

/-- A day that begins in front of the colon of another field begins there whatever value follows. -/
theorem cutHere?_behind_colon {front value trailing : Text}
    (foreign : ∀ label ∈ creationField.labels, ∀ white, (∀ character ∈ white, isWhite character = true) →
      label ++ white ≠ front)
    (oneLine : '\n' ∉ value) (blank : ∀ character ∈ trailing, isWhite character = true)
    (nothing : creationField.cutHere? (front ++ ':' :: (gap ++ (value ++ trailing))) = none) (other : Text) :
    creationField.cutHere? (front ++ ':' :: (gap ++ other)) = none := by
  cases here : creationField.cutHere? (front ++ ':' :: (gap ++ other)) with
  | none => rfl
  | some found =>
    obtain ⟨head, behind, named, sound, -⟩ := FieldShape.cutHere?_eq_some_iff.mp here
    obtain ⟨inner, rfl, again⟩ := exists_of_named?_behind_colon foreign named
    have lineGap : '\n' ∉ gap ++ value := by
      rw [List.mem_append, not_or]
      exact ⟨newline_not_mem_gap gapOnly, oneLine⟩
    -- The same label and colon are read with the old value, which is then no worse than the other one.
    have soundOld : creationField.IsValue (creationField.valueIn (inner ++ ':' :: (gap ++ (value ++ trailing)))) :=
      FieldShape.isValue_valueIn_of_colon (by decide) lineGap blank sound
    rw [FieldShape.cutHere?_eq_some_iff.mpr ⟨_, _, again _, soundOld, rfl⟩] at nothing
    cases nothing

/-- Behind the colon of a field that is no day of creation, one silent value is as good as another. -/
theorem cutAfter?_behind_colon {front value trailing other : Text}
    (foreign : ∀ label ∈ creationField.labels, ∀ white, (∀ character ∈ white, isWhite character = true) →
      ¬ (label ++ white) <:+ front)
    (oneLine : '\n' ∉ value) (blank : ∀ character ∈ trailing, isWhite character = true)
    (nothing : creationField.cutAfter? before (front ++ ':' :: (gap ++ (value ++ trailing))) = none)
    (silent : creationField.cut? other = none) :
    creationField.cutAfter? before (front ++ ':' :: (gap ++ other)) = none := by
  induction front generalizing before with
  | nil => exact cutAfter?_colon_append_eq_none gapOnly silent
  | cons character front inductionHypothesis =>
    -- A day begins at this character or behind it.
    obtain ⟨nothingHere, nothingLater⟩ := FieldShape.cutAfter?_cons_eq_none_iff.mp nothing
    refine FieldShape.cutAfter?_cons_eq_none_iff.mpr ⟨fun boundary => ?_, fun inner => ?_⟩
    · have noOld : creationField.cutHere? (character :: front ++ ':' :: (gap ++ (value ++ trailing))) = none :=
        nothingHere boundary
      refine cutHere?_behind_colon gapOnly ?_ oneLine blank noOld other
      exact fun label member white whiteBlank equal =>
        foreign label member white whiteBlank (equal ▸ List.suffix_rfl)
    · exact inductionHypothesis (fun label member white whiteBlank inside =>
        foreign label member white whiteBlank (inside.trans (List.suffix_cons _ _))) (nothingLater inner)

end

/-! ## Labels to be repaired behind a colon -/

theorem repairAfter_congr {before other : Option Char} (same : before.any isWord = other.any isWord) (text : Text) :
    repairAfter before 0 text = repairAfter other 0 text := by
  cases text with
  | nil => rfl
  | cons character rest =>
    have labelled : repeatedLabel? before (character :: rest) = repeatedLabel? other (character :: rest) := by
      rw [repeatedLabel?, repeatedLabel?, atWordBoundary_congr same]
    rw [repairAfter, repairAfter, labelled]

theorem IsLabel.count_eq {count : Nat} {label : Text} (isLabel : IsLabel count label) : label.count 'L' = count := by
  induction isLabel with
  | updated => rfl
  | last _ blank _ inductionHypothesis =>
    have noLetter {white : Text} (blank : ∀ character ∈ white, isWhite character = true) : white.count 'L' = 0 :=
      List.count_eq_zero.mpr fun member => absurd (blank 'L' member) (by decide)
    rw [List.count_append, List.count_append, inductionHypothesis, noLetter blank]
    show 1 + _ = _
    omega

/-- A label to be repaired holds the word `Last` twice. -/
theorem RepeatsLabel.two_le_count {line : Text} (repeats : RepeatsLabel line) : 2 ≤ line.count 'L' := by
  obtain ⟨front, label, after, rfl, found⟩ := repeats
  obtain ⟨count, two, isLabel⟩ := found.repeated
  rw [List.count_append, List.count_append, isLabel.count_eq]
  omega

theorem repairAfter_append {before : Option Char} {front rest : Text}
    (nowhere : ∀ upper lower, front = upper ++ lower → lower ≠ [] →
      repeatedLabel? (upper.getLast?.or before) (lower ++ rest) = none) :
    repairAfter before 0 (front ++ rest) = front ++ repairAfter (front.getLast?.or before) 0 rest := by
  induction front generalizing before with
  | nil => rfl
  | cons character front inductionHypothesis =>
    have first : repeatedLabel? before (character :: (front ++ rest)) = none :=
      nowhere [] (character :: front) rfl (List.cons_ne_nil _ _)
    rw [List.cons_append, repairAfter_of_none first, getLast?_cons_or]
    refine congrArg (character :: ·) (inductionHypothesis fun upper lower split nonempty => ?_)
    have nothing := nowhere (character :: upper) lower (by rw [split]; rfl) nonempty
    rwa [getLast?_cons_or] at nothing

section

variable {text gap : Text} (gapOnly : ∀ character ∈ gap, character = ' ' ∨ character = '\t')

include gapOnly

/-- A label ends in a letter, so there is something behind it in a text that ends in a colon. -/
theorem Repeats.ne_nil_of_colon {before : Option Char} {front label after behind : Text}
    (repeats : Repeats before label after)
    (equal : text ++ ':' :: gap = front ++ (label ++ behind)) : behind ≠ [] := by
  rintro rfl
  have apart : ((text ++ ':' :: gap).getLast?.or none).any isWord = false := isWord_getLast?_colon gapOnly text
  rw [equal, List.append_nil, List.getLast?_append, repeats.getLast?_eq, Option.some_or, Option.some_or] at apart
  exact absurd apart (by decide)

/-- A label that stands in front of a colon stands there whatever follows. -/
theorem RepeatsLabel.of_colon (repeats : RepeatsLabel (text ++ ':' :: gap)) (rest : Text) :
    RepeatsLabel (text ++ ':' :: gap ++ rest) := by
  obtain ⟨front, label, after, equal, found⟩ := repeats
  obtain ⟨first, after, rfl⟩ := List.exists_cons_of_ne_nil (found.ne_nil_of_colon gapOnly equal)
  refine ⟨front, label, first :: after ++ rest, by rw [equal]; simp only [List.append_assoc], ?_, found.repeated,
    found.ends⟩
  have starts := found.starts
  obtain ⟨more, rfl⟩ := found.exists_cons
  exact starts

/-- Behind a colon everything is repaired as if nothing stood in front. -/
theorem repairAfter_behind_colon (single : ¬ RepeatsLabel (text ++ ':' :: gap)) (rest : Text) :
    repairAfter none 0 (text ++ ':' :: gap ++ rest) = text ++ ':' :: gap ++ repairAfter none 0 rest := by
  rw [repairAfter_append, repairAfter_congr (isWord_getLast?_colon gapOnly text)]
  intro upper lower split nonempty
  cases found : repeatedLabel? (upper.getLast?.or none) (lower ++ rest) with
  | none => rfl
  | some size =>
    obtain ⟨label, after, equal, -, repeats⟩ := repeatedLabel?_eq_some_iff.mp found
    rw [Option.or_none] at repeats
    obtain ⟨count, -, isLabel⟩ := repeats.repeated
    rcases List.append_eq_append_iff.mp equal with ⟨middle, labelEqual, -⟩ | ⟨middle, lowerEqual, afterEqual⟩
    · -- A label without a colon would have to begin in the gap.
      have colonless : ':' ∉ lower := fun member => isLabel.colon_not_mem (labelEqual ▸ List.mem_append_left _ member)
      obtain ⟨between, -, gapEqual⟩ := exists_split_of_not_mem_right colonless split.symm
      obtain ⟨more, begins⟩ := repeats.exists_cons
      obtain ⟨first, lower, rfl⟩ := List.exists_cons_of_ne_nil nonempty
      rw [begins, List.cons_append, List.cons.injEq] at labelEqual
      have member : 'L' ∈ gap := gapEqual ▸ List.mem_append_right _ (labelEqual.1 ▸ List.mem_cons_self)
      rcases gapOnly _ member with blank | blank <;> exact absurd blank (by decide)
    · -- A label within the front would have to be repaired there.
      have frontEqual : text ++ ':' :: gap = upper ++ (label ++ middle) := by rw [split, lowerEqual]
      obtain ⟨first, middle, rfl⟩ := List.exists_cons_of_ne_nil (repeats.ne_nil_of_colon gapOnly frontEqual)
      refine absurd ⟨upper, label, first :: middle, frontEqual, ?_, repeats.repeated, ?_⟩ single
      · have starts := repeats.starts
        obtain ⟨more, rfl⟩ := repeats.exists_cons
        exact starts
      · have ends := repeats.ends
        rw [afterEqual] at ends
        exact ends

end

/-! ## Silent lines -/

/-- The line with its labels repaired. -/
def repairedLine (line : Text) : Text :=
  (repairLine? line).getD line

/-- Whether no day of creation is read from a line, be it repaired or not. -/
def Silent (line : Text) : Prop :=
  creationField.cut? line = none ∧ creationField.cut? (repairedLine line) = none

instance (line : Text) : Decidable (Silent line) :=
  inferInstanceAs (Decidable (_ ∧ _))

theorem repairAfter_eq_self {before : Option Char} {text : Text} (needless : needsRepair before text = false) :
    repairAfter before 0 text = text := by
  induction text generalizing before with
  | nil => rfl
  | cons character rest inductionHypothesis =>
    rw [needsRepair, Bool.or_eq_false_iff, Option.isSome_eq_false_iff, Option.isNone_iff_eq_none] at needless
    rw [repairAfter_of_none needless.1, inductionHypothesis needless.2]

theorem repairedLine_eq (line : Text) : repairedLine line = repairAfter none 0 line := by
  rw [repairedLine, repairLine?]
  split
  · rfl
  · next needless => exact (repairAfter_eq_self (by simpa using needless)).symm

theorem repairedLine_of_not {line : Text} (single : ¬ RepeatsLabel line) : repairedLine line = line := by
  rw [repairedLine, repairLine?_eq_none_iff.mpr single]
  rfl

theorem not_repeatsLabel_repairedLine (line : Text) : ¬ RepeatsLabel (repairedLine line) := by
  rw [← needsRepair_none_iff, repairedLine_eq, needsRepair_repairAfter]
  exact Bool.false_ne_true

theorem Silent.repaired {line : Text} (silent : Silent line) : Silent (repairedLine line) := by
  refine ⟨silent.2, ?_⟩
  rw [repairedLine_of_not (not_repeatsLabel_repairedLine line)]
  exact silent.2

/-- The label of a volatile field is not that of a day, not even in part. -/
theorem creationLabel_foreign : ∀ field : VolatileField, ∀ label ∈ creationField.labels,
    ¬ label <:+ field.label ∧ ¬ field.label <:+ label := by
  intro field
  cases field <;> decide

theorem trimEnd_label_white (front : Text) {label white : Text} (visible : isBlank label = false)
    (trimmed : trimEnd label = label)
    (blank : ∀ character ∈ white, isWhite character = true) : trimEnd (front ++ (label ++ white)) = front ++ label := by
  rw [← List.append_assoc, trimEnd_append_white _ blank, trimEnd_append visible, trimmed]

theorem not_suffix_of_label {front white : Text} (field : VolatileField)
    (blank : ∀ character ∈ white, isWhite character = true) :
    ∀ label ∈ creationField.labels, ∀ space, (∀ character ∈ space, isWhite character = true) →
      ¬ (label ++ space) <:+ front ++ (field.label ++ white) := by
  rintro label member space spaceBlank ⟨before, equal⟩
  obtain ⟨inField, inLabel⟩ := creationLabel_foreign field label member
  have labelTrimmed : ∀ label ∈ creationField.labels, isBlank label = false ∧ trimEnd label = label := by decide
  have fieldTrimmed : isBlank field.label = false ∧ trimEnd field.label = field.label := by cases field <;> decide
  have ends : before ++ label = front ++ field.label := by
    rw [← trimEnd_label_white before (labelTrimmed label member).1 (labelTrimmed label member).2 spaceBlank, equal,
      trimEnd_label_white front fieldTrimmed.1 fieldTrimmed.2 blank]
  rcases List.suffix_or_suffix_of_suffix ⟨before, ends⟩ (List.suffix_append front field.label) with inside | inside
  · exact inField inside
  · exact inLabel inside

/-- A silent line stays silent when a field in it is renewed with a silent value. -/
theorem Silent.head_append {field : VolatileField} {line value : Text} {found : FieldShape.Cut} (silent : Silent line)
    (single : ¬ RepeatsLabel line) (cut : field.shape.cut? line = some found) (valueSilent : Silent value) :
    Silent (found.head ++ value) := by
  obtain ⟨front, white, gap, headEqual, blank, gapOnly⟩ := field.exists_head_of_cut? cut
  obtain ⟨-, -, isValue, trailing, split, trailingBlank⟩ := FieldShape.of_cutAfter? cut
  have regrouped (rest : Text) :
      found.head ++ rest = front ++ (field.label ++ white) ++ ':' :: (gap ++ rest) := by
    rw [headEqual]
    simp only [List.append_assoc, List.cons_append]
  have nothing := silent.1
  rw [split, regrouped] at nothing
  -- One silent value behind the colon is as good as another, before the labels are repaired and after it.
  have renewed {value : Text} (silent : creationField.cut? value = none) :
      creationField.cut? (found.head ++ value) = none := by
    rw [regrouped]
    exact cutAfter?_behind_colon gapOnly (not_suffix_of_label field blank) isValue.oneLine trailingBlank nothing silent
  refine ⟨renewed valueSilent.1, ?_⟩
  have headColon : found.head = front ++ (field.label ++ white) ++ ':' :: gap := by
    rw [headEqual]
    simp only [List.append_assoc]
  have headSingle : ¬ RepeatsLabel (front ++ (field.label ++ white) ++ ':' :: gap) := fun repeats =>
    single (split ▸ headColon ▸ repeats.of_colon gapOnly _)
  rw [repairedLine_eq, headColon, repairAfter_behind_colon gapOnly headSingle, ← headColon, ← repairedLine_eq]
  exact renewed valueSilent.2

/-- What follows a colon in a silent line is silent. -/
theorem Silent.of_append {text gap value : Text} (gapOnly : ∀ character ∈ gap, character = ' ' ∨ character = '\t')
    (oneLine : '\n' ∉ text) (single : ¬ RepeatsLabel (text ++ ':' :: gap))
    (silent : Silent (text ++ ':' :: gap ++ value)) :
    Silent value := by
  have lineFront : '\n' ∉ text ++ ':' :: gap := by
    simp only [List.mem_append, List.mem_cons, not_or]
    exact ⟨oneLine, by decide, newline_not_mem_gap gapOnly⟩
  have behind {value : Text} (nothing : creationField.cut? (text ++ ':' :: gap ++ value) = none) :
      creationField.cut? value = none := by
    have rest := FieldShape.cutAfter?_eq_none_of_append lineFront nothing
    rwa [FieldShape.cutAfter?_congr (isWord_getLast?_colon gapOnly text)] at rest
  refine ⟨behind silent.1, behind ?_⟩
  have repaired := silent.2
  rwa [repairedLine_eq, repairAfter_behind_colon gapOnly single, ← repairedLine_eq] at repaired

end Masthead.Header

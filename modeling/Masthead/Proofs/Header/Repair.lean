import Masthead.Header.Refresh
import Masthead.Proofs.Text.Affix

/-!
# Repaired labels

A label is repaired where some words `Last`, two at least, stand before the word `Updated`. The
search from left to right takes them all at once, and what it writes instead does not make another
such label together with the text around it. So a repaired line has nothing left to be repaired.
-/

namespace Masthead.Header

open Text

theorem trimStart_of_head? {text : Text} (visible : ∀ character, text.head? = some character → isWhite character = false) :
    trimStart text = text := by
  cases text with
  | nil => rfl
  | cons first rest => exact trimStart_cons rest (visible first rfl)

/-- White space ends where something visible begins. -/
theorem white_append_inj {white other first second : Text} (equal : white ++ first = other ++ second)
    (blank : ∀ character ∈ white, isWhite character = true) (otherBlank : ∀ character ∈ other, isWhite character = true)
    (visible : ∀ character, first.head? = some character → isWhite character = false)
    (otherVisible : ∀ character, second.head? = some character → isWhite character = false) :
    white = other ∧ first = second := by
  have started := congrArg trimStart equal
  rw [trimStart_white_append _ blank, trimStart_white_append _ otherBlank, trimStart_of_head? visible,
    trimStart_of_head? otherVisible] at started
  subst started
  exact ⟨List.append_cancel_right equal, rfl⟩

theorem behindWord?_append (word : Text) {white rest : Text} (nonempty : white ≠ [])
    (blank : ∀ character ∈ white, isWhite character = true)
    (visible : ∀ character, rest.head? = some character → isWhite character = false) :
    behindWord? word (word ++ (white ++ rest)) = some rest := by
  have begins : (white ++ rest).head?.any isWhite = true := by
    cases white with
    | nil => exact absurd rfl nonempty
    | cons first white => exact blank first List.mem_cons_self
  rw [behindWord?, after?_append]
  dsimp only
  rw [if_pos begins, trimStart_white_append _ blank, trimStart_of_head? visible]

theorem exists_of_behindWord? {word text rest : Text} (found : behindWord? word text = some rest) :
    ∃ white, text = word ++ (white ++ rest) ∧ white ≠ [] ∧ ∀ character ∈ white, isWhite character = true := by
  unfold behindWord? at found
  split at found
  · cases found
  · next behind equal =>
    split at found
    · next begins =>
      cases found
      obtain ⟨white, split, blank⟩ := exists_trimStart_split behind
      refine ⟨white, by rw [← split, after?_eq_some_iff.mp equal], ?_, blank⟩
      rintro rfl
      have first := List.head?_dropWhile_not isWhite behind
      rw [show behind.dropWhile isWhite = behind from split.symm] at first
      cases behind with
      | nil => cases begins
      | cons character behind =>
        have visible : isWhite character = false := first
        exact absurd (visible.symm.trans begins) (by decide)
    · cases found

theorem behindLasts_of_none {text : Text} (none : behindWord? "Last" text = none) : behindLasts text = (0, text) := by
  rw [behindLasts]
  split
  · rfl
  · next found =>
    rw [none] at found
    cases found

theorem behindLasts_of_some {text rest : Text} (found : behindWord? "Last" text = some rest) :
    behindLasts text = ((behindLasts rest).1 + 1, (behindLasts rest).2) := by
  rw [behindLasts]
  split
  · next none =>
    rw [found] at none
    cases none
  · next other otherFound =>
    rw [found] at otherFound
    cases otherFound
    rfl

/-! ## Labels -/

/-- The word `Updated` behind some words `Last`. -/
inductive IsLabel : Nat → Text → Prop
  | updated : IsLabel 0 "Updated"
  | last {count : Nat} {white rest : Text} (nonempty : white ≠ [])
      (blank : ∀ character ∈ white, isWhite character = true) (label : IsLabel count rest) :
      IsLabel (count + 1) ("Last".toList ++ (white ++ rest))

namespace IsLabel

variable {count : Nat} {label : Text}

theorem head?_eq (isLabel : IsLabel count label) (after : Text) :
    (label ++ after).head? = some (if count = 0 then 'U' else 'L') := by
  cases isLabel <;> rfl

theorem head?_visible (isLabel : IsLabel count label) (after : Text) :
    ∀ character, (label ++ after).head? = some character → isWhite character = false := by
  intro character head
  rw [isLabel.head?_eq, Option.some.injEq] at head
  subst head
  split <;> decide

theorem getLast?_eq (isLabel : IsLabel count label) : label.getLast? = some 'd' := by
  induction isLabel with
  | updated => rfl
  | last _ _ _ inductionHypothesis =>
    rw [List.getLast?_append, List.getLast?_append, inductionHypothesis]
    rfl

theorem colon_not_mem (isLabel : IsLabel count label) : ':' ∉ label := by
  induction isLabel with
  | updated => decide
  | last _ blank _ inductionHypothesis =>
    simp only [List.mem_append, not_or]
    exact ⟨by decide, fun member => absurd (blank ':' member) (by decide), inductionHypothesis⟩

theorem behindLasts_eq (isLabel : IsLabel count label) (after : Text) :
    behindLasts (label ++ after) = (count, "Updated".toList ++ after) := by
  induction isLabel with
  | updated => exact behindLasts_of_none rfl
  | last nonempty blank label inductionHypothesis =>
    have found := behindWord?_append "Last" nonempty blank (label.head?_visible after)
    rw [List.append_assoc, List.append_assoc, behindLasts_of_some found, inductionHypothesis]

end IsLabel

theorem exists_isLabel_of_behindLasts {count : Nat} {text after : Text}
    (behind : behindLasts text = (count, "Updated".toList ++ after)) :
    ∃ label, IsLabel count label ∧ text = label ++ after := by
  -- The count goes down with each word `Last` that is passed, so the induction is on it.
  induction count generalizing text with
  | zero =>
    cases found : behindWord? "Last" text with
    | none =>
      rw [behindLasts_of_none found] at behind
      cases behind
      exact ⟨_, .updated, rfl⟩
    | some rest =>
      rw [behindLasts_of_some found] at behind
      cases behind
  | succ count inductionHypothesis =>
    cases found : behindWord? "Last" text with
    | none =>
      rw [behindLasts_of_none found] at behind
      cases behind
    | some rest =>
      rw [behindLasts_of_some found] at behind
      simp only [Prod.mk.injEq, Nat.add_right_cancel_iff] at behind
      obtain ⟨label, isLabel, rfl⟩ := inductionHypothesis (Prod.ext behind.1 behind.2)
      obtain ⟨white, rfl, nonempty, blank⟩ := exists_of_behindWord? found
      exact ⟨_, .last nonempty blank isLabel, by simp only [List.append_assoc]⟩

/-- A label that is to be repaired, between the character before it and the text behind it. -/
structure Repeats (before : Option Char) (label after : Text) : Prop where
  starts : atWordBoundary before (label ++ after) = true
  repeated : ∃ count, 2 ≤ count ∧ IsLabel count label
  ends : atWordBoundary (some 'd') after = true

theorem Repeats.getLast?_eq {before : Option Char} {label after : Text} (repeats : Repeats before label after) :
    label.getLast? = some 'd' := by
  obtain ⟨count, -, isLabel⟩ := repeats.repeated
  exact isLabel.getLast?_eq

theorem Repeats.exists_cons {before : Option Char} {label after : Text} (repeats : Repeats before label after) :
    ∃ rest, label = 'L' :: rest := by
  obtain ⟨count, two, isLabel⟩ := repeats.repeated
  cases isLabel with
  | updated => omega
  | last => exact ⟨_, rfl⟩

theorem behindRepeatedLabel?_eq_some_iff {text after : Text} :
    behindRepeatedLabel? text = some after ↔
      ∃ label, text = label ++ after ∧ (∃ count, 2 ≤ count ∧ IsLabel count label) ∧
        atWordBoundary (some 'd') after = true := by
  constructor
  · intro found
    unfold behindRepeatedLabel? at found
    -- Three checks have to pass: two words `Last` at least, then the word `Updated`, and no letter behind it.
    cases behind : behindLasts text with
    | mk count rest =>
      rw [behind] at found
      dsimp only at found
      split at found
      · cases found
      · next two =>
        split at found
        · next more equal =>
          split at found
          · next ends =>
            cases found
            rw [after?_eq_some_iff.mp equal] at behind
            obtain ⟨label, isLabel, split⟩ := exists_isLabel_of_behindLasts behind
            exact ⟨label, split, ⟨count, by omega, isLabel⟩, ends⟩
          · cases found
        · cases found
  · rintro ⟨label, rfl, ⟨count, two, isLabel⟩, ends⟩
    rw [behindRepeatedLabel?, isLabel.behindLasts_eq]
    dsimp only
    rw [if_neg (by omega), after?_append]
    dsimp only
    rw [if_pos ends]

theorem repeatedLabel?_eq_some_iff {before : Option Char} {text : Text} {size : Nat} :
    repeatedLabel? before text = some size ↔
      ∃ label after, text = label ++ after ∧ size = label.length ∧ Repeats before label after := by
  unfold repeatedLabel?
  constructor
  · intro found
    split at found
    · next starts =>
      obtain ⟨after, behind, rfl⟩ := Option.map_eq_some_iff.mp found
      obtain ⟨label, rfl, repeated, ends⟩ := behindRepeatedLabel?_eq_some_iff.mp behind
      exact ⟨label, after, rfl, by simp, starts, repeated, ends⟩
    · cases found
  · rintro ⟨label, after, rfl, rfl, repeats⟩
    have behind := behindRepeatedLabel?_eq_some_iff.mpr ⟨label, rfl, repeats.repeated, repeats.ends⟩
    rw [if_pos repeats.starts, behind]
    simp

theorem repeatedLabel?_eq_none_of_ne {character : Char} (before : Option Char) (rest : Text) (other : character ≠ 'L') :
    repeatedLabel? before (character :: rest) = none := by
  cases found : repeatedLabel? before (character :: rest) with
  | none => rfl
  | some size =>
    obtain ⟨label, after, equal, -, repeats⟩ := repeatedLabel?_eq_some_iff.mp found
    obtain ⟨more, rfl⟩ := repeats.exists_cons
    exact absurd (List.cons.inj equal).1 other

/-! ## Lines with such labels -/

/-- Whether a label to be repaired stands somewhere in a line. -/
def RepeatsLabel (line : Text) : Prop :=
  ∃ front label after, line = front ++ (label ++ after) ∧ Repeats front.getLast? label after

theorem needsRepair_iff {before : Option Char} {text : Text} :
    needsRepair before text = true ↔
      ∃ front label after, text = front ++ (label ++ after) ∧ Repeats (front.getLast?.or before) label after := by
  induction text generalizing before with
  | nil =>
    constructor
    · intro needed
      cases needed
    · rintro ⟨front, label, after, equal, repeats⟩
      obtain ⟨rest, rfl⟩ := repeats.exists_cons
      simp at equal
  | cons character rest inductionHypothesis =>
    -- A label begins at the first character, or at one behind it, where the first counts as the one before.
    rw [needsRepair, Bool.or_eq_true, inductionHypothesis, Option.isSome_iff_exists]
    constructor
    · rintro (⟨size, found⟩ | ⟨front, label, after, rfl, repeats⟩)
      · obtain ⟨label, after, equal, -, repeats⟩ := repeatedLabel?_eq_some_iff.mp found
        exact ⟨[], label, after, equal, repeats⟩
      · exact ⟨character :: front, label, after, rfl, by rwa [getLast?_cons_or]⟩
    · rintro ⟨front, label, after, equal, repeats⟩
      cases front with
      | nil => exact .inl ⟨_, repeatedLabel?_eq_some_iff.mpr ⟨label, after, equal, rfl, repeats⟩⟩
      | cons first front =>
        rw [List.cons_append, List.cons.injEq] at equal
        obtain ⟨rfl, rfl⟩ := equal
        rw [getLast?_cons_or] at repeats
        exact .inr ⟨front, label, after, rfl, repeats⟩

theorem needsRepair_none_iff {line : Text} : needsRepair none line = true ↔ RepeatsLabel line := by
  simp only [needsRepair_iff, RepeatsLabel, Option.or_none]

theorem repairLine?_isSome_iff {line : Text} : (repairLine? line).isSome = true ↔ RepeatsLabel line := by
  rw [← needsRepair_none_iff, repairLine?]
  split <;> simp_all

instance (line : Text) : Decidable (RepeatsLabel line) :=
  decidable_of_iff _ repairLine?_isSome_iff

theorem repairLine?_eq_none_iff {line : Text} : repairLine? line = none ↔ ¬ RepeatsLabel line := by
  rw [← repairLine?_isSome_iff, Bool.not_eq_true, Option.isSome_eq_false_iff, Option.isNone_iff_eq_none]

/-! ## What repairing writes -/

theorem repairAfter_length (before : Option Char) (taken after : Text) :
    repairAfter before taken.length (taken ++ after) = repairAfter (taken.getLast?.or before) 0 after := by
  induction taken generalizing before with
  | nil => rfl
  | cons first taken inductionHypothesis =>
    show repairAfter (some first) taken.length (taken ++ after) = _
    rw [inductionHypothesis, getLast?_cons_or]

theorem repairAfter_of_repeats {before : Option Char} {label after : Text} (repeats : Repeats before label after) :
    repairAfter before 0 (label ++ after) = properLabel ++ repairAfter (some 'd') 0 after := by
  have found := repeatedLabel?_eq_some_iff.mpr ⟨label, after, rfl, rfl, repeats⟩
  have last := repeats.getLast?_eq
  obtain ⟨rest, rfl⟩ := repeats.exists_cons
  rw [List.cons_append] at found ⊢
  rw [repairAfter, found]
  dsimp only
  -- The first character of the label has been passed already.
  rw [List.length_cons, Nat.add_sub_cancel, repairAfter_length]
  cases rest with
  | nil => cases last
  | cons second rest =>
    rw [List.getLast?_cons_cons] at last
    rw [last, Option.some_or]

theorem repairAfter_of_none {before : Option Char} {character : Char} {rest : Text}
    (none : repeatedLabel? before (character :: rest) = none) :
    repairAfter before 0 (character :: rest) = character :: repairAfter (some character) 0 rest := by
  rw [repairAfter, none]

/-- A text is repaired label by label, and character by character between them. -/
theorem repairInduction {motive : Option Char → Text → Prop} (nil : ∀ before, motive before [])
    (label : ∀ before label after, Repeats before label after → motive (some 'd') after → motive before (label ++ after))
    (plain : ∀ before character rest, repeatedLabel? before (character :: rest) = none → motive (some character) rest →
      motive before (character :: rest))
    (before : Option Char) (text : Text) : motive before text := by
  -- A label is skipped whole, so that the recursion is not structural; each step leaves less of the text.
  induction size : text.length using Nat.strongRecOn generalizing before text with
  | ind bound inductionHypothesis =>
    cases text with
    | nil => exact nil before
    | cons character rest =>
      cases found : repeatedLabel? before (character :: rest) with
      | none =>
        exact plain before character rest found (inductionHypothesis rest.length (by simp [← size]) _ rest rfl)
      | some taken =>
        obtain ⟨labelText, after, equal, -, repeats⟩ := repeatedLabel?_eq_some_iff.mp found
        have shorter : after.length < bound := by
          obtain ⟨more, rfl⟩ := repeats.exists_cons
          rw [← size, equal, List.length_append, List.length_cons]
          omega
        rw [equal]
        exact label before labelText after repeats (inductionHypothesis _ shorter _ after rfl)

/-- Repairing changes nothing before the letter that the first label begins with. -/
theorem exists_repairAfter_split {before : Option Char} {text : Text} (needed : needsRepair before text = true) :
    ∃ front first second, text = front ++ 'L' :: first ∧ repairAfter before 0 text = front ++ 'L' :: second := by
  induction before, text using repairInduction with
  | nil before => cases needed
  | label before label after repeats _ =>
    obtain ⟨rest, equal⟩ := repeats.exists_cons
    rw [repairAfter_of_repeats repeats, equal]
    exact ⟨[], _, _, rfl, rfl⟩
  | plain before character rest none inductionHypothesis =>
    rw [needsRepair, none, Option.isSome_none, Bool.false_or] at needed
    obtain ⟨front, first, second, equal, repaired⟩ := inductionHypothesis needed
    rw [repairAfter_of_none none, repaired, equal]
    exact ⟨character :: front, first, second, rfl, rfl⟩

/-! ## Nothing is left to be repaired -/

theorem atWordBoundary_repairAfter {before : Option Char} (word : before.any isWord = true) (text : Text) :
    atWordBoundary before (repairAfter before 0 text) = atWordBoundary before text := by
  cases text with
  | nil => rfl
  | cons character rest =>
    cases found : repeatedLabel? before (character :: rest) with
    | none =>
      rw [repairAfter_of_none found]
      rfl
    | some size =>
      -- A label begins a word, and one cannot begin behind a word character.
      obtain ⟨label, after, equal, -, repeats⟩ := repeatedLabel?_eq_some_iff.mp found
      obtain ⟨more, rfl⟩ := repeats.exists_cons
      have starts := repeats.starts
      rw [atWordBoundary, word] at starts
      have letter : isWord 'L' = true := by decide
      simp [letter] at starts

/-- What is no part of a written label has been copied. -/
theorem exists_of_repairAfter_append {before : Option Char} {text word rest : Text}
    (equal : repairAfter before 0 text = word ++ rest) (absent : 'L' ∉ word) :
    ∃ more, text = word ++ more ∧ rest = repairAfter (word.getLast?.or before) 0 more := by
  induction word generalizing before text with
  | nil => exact ⟨text, rfl, equal.symm⟩
  | cons first word inductionHypothesis =>
    simp only [List.mem_cons, not_or] at absent
    cases text with
    | nil => cases equal
    | cons character others =>
      cases found : repeatedLabel? before (character :: others) with
      | none =>
        rw [repairAfter_of_none found, List.cons_append, List.cons.injEq] at equal
        obtain ⟨rfl, equal⟩ := equal
        obtain ⟨more, rfl, restEqual⟩ := inductionHypothesis equal absent.2
        exact ⟨more, rfl, by rwa [getLast?_cons_or]⟩
      | some size =>
        obtain ⟨label, after, split, -, repeats⟩ := repeatedLabel?_eq_some_iff.mp found
        -- Were a label repaired here, the word would begin with the first letter of the new one.
        rw [split, repairAfter_of_repeats repeats] at equal
        exact absurd (List.cons.inj equal).1 absent.1

theorem isWhite_of_mem_blank : ∀ character ∈ " ".toList, isWhite character = true :=
  List.all_eq_true.mp (by decide)

/-- A label in a repaired text stands there for one with at least as many words. -/
theorem exists_isLabel_of_repairAfter {count : Nat} {label : Text} (isLabel : IsLabel count label) {before : Option Char}
    {text after : Text} (equal : repairAfter before 0 text = label ++ after)
    (ends : atWordBoundary (some 'd') after = true) :
    ∃ more original rest, count ≤ more ∧ IsLabel more original ∧ text = original ++ rest ∧
      atWordBoundary (some 'd') rest = true := by
  induction isLabel generalizing before text with
  | updated =>
    obtain ⟨rest, rfl, rfl⟩ := exists_of_repairAfter_append equal (by decide)
    have word : (some 'd').any isWord = true := by decide
    exact ⟨0, _, rest, Nat.le_refl 0, .updated, rfl, by rwa [← atWordBoundary_repairAfter word]⟩
  | @last count white inner nonempty blank isLabel inductionHypothesis =>
    have noLetter : 'L' ∉ "ast".toList ++ white := by
      rw [List.mem_append, not_or]
      exact ⟨by decide, fun member => absurd (blank 'L' member) (by decide)⟩
    have opened : "Last".toList ++ (white ++ inner) ++ after = 'L' :: ("ast".toList ++ white ++ (inner ++ after)) := by
      simp only [List.append_assoc]
      rfl
    rw [opened] at equal
    cases text with
    | nil => cases equal
    | cons character others =>
      cases found : repeatedLabel? before (character :: others) with
      | none =>
        rw [repairAfter_of_none found, List.cons.injEq] at equal
        obtain ⟨rfl, copied⟩ := equal
        obtain ⟨behind, rfl, innerEqual⟩ := exists_of_repairAfter_append copied noLetter
        obtain ⟨more, original, rest, atLeast, isOriginal, rfl, restEnds⟩ := inductionHypothesis innerEqual.symm
        refine ⟨more + 1, _, rest, by omega, .last nonempty blank isOriginal, ?_, restEnds⟩
        simp only [List.append_assoc]
        rfl
      | some size =>
        -- The label is the one that has been written, with a single word before the last.
        obtain ⟨original, rest, split, -, repeats⟩ := repeatedLabel?_eq_some_iff.mp found
        obtain ⟨more, two, isOriginal⟩ := repeats.repeated
        refine ⟨more, original, rest, ?_, isOriginal, split, repeats.ends⟩
        rw [split, repairAfter_of_repeats repeats] at equal
        have behind : " ".toList ++ ("Updated".toList ++ repairAfter (some 'd') 0 rest) = white ++ (inner ++ after) := by
          rw [List.append_assoc] at equal
          exact (List.append_right_inj "Last".toList).mp equal
        obtain ⟨-, same⟩ := white_append_inj behind isWhite_of_mem_blank blank
          (IsLabel.updated.head?_visible _) (isLabel.head?_visible after)
        have heads := congrArg List.head? same
        rw [isLabel.head?_eq, IsLabel.updated.head?_eq] at heads
        cases count with
        | zero => omega
        | succ count => cases heads

theorem repeatedLabel?_properLabel (before : Option Char) (rest : Text) :
    repeatedLabel? before (properLabel ++ rest) = none := by
  cases found : repeatedLabel? before (properLabel ++ rest) with
  | none => rfl
  | some size =>
    obtain ⟨label, after, equal, -, repeats⟩ := repeatedLabel?_eq_some_iff.mp found
    obtain ⟨count, two, isLabel⟩ := repeats.repeated
    have written : IsLabel 1 properLabel := .last (List.cons_ne_nil _ _) isWhite_of_mem_blank .updated
    have behind := isLabel.behindLasts_eq after
    rw [← equal, written.behindLasts_eq, Prod.mk.injEq] at behind
    omega

/-- No label begins within a word that has no such letter. -/
theorem needsRepair_append_of_not_mem {before : Option Char} {word : Text} (rest : Text) (absent : 'L' ∉ word) :
    needsRepair before (word ++ rest) = needsRepair (word.getLast?.or before) rest := by
  induction word generalizing before with
  | nil => rfl
  | cons first word inductionHypothesis =>
    rw [List.mem_cons, not_or] at absent
    rw [List.cons_append, needsRepair, repeatedLabel?_eq_none_of_ne before _ (Ne.symm absent.1), Option.isSome_none,
      Bool.false_or, inductionHypothesis absent.2, getLast?_cons_or]

theorem needsRepair_properLabel (before : Option Char) (rest : Text) :
    needsRepair before (properLabel ++ rest) = needsRepair (some 'd') rest := by
  have split : properLabel ++ rest = 'L' :: ("ast Updated".toList ++ rest) := rfl
  have first := repeatedLabel?_properLabel before rest
  rw [split] at first ⊢
  rw [needsRepair, first, needsRepair_append_of_not_mem rest (by decide)]
  rfl

/-- A repaired text needs no repair. -/
theorem needsRepair_repairAfter (before : Option Char) (text : Text) :
    needsRepair before (repairAfter before 0 text) = false := by
  induction before, text using repairInduction with
  | nil before => rfl
  | label before label after repeats inductionHypothesis =>
    rw [repairAfter_of_repeats repeats, needsRepair_properLabel, inductionHypothesis]
  | plain before character rest none inductionHypothesis =>
    have written := repairAfter_of_none none
    rw [written, needsRepair, inductionHypothesis, Bool.or_false, Option.isSome_eq_false_iff, Option.isNone_iff_eq_none]
    cases found : repeatedLabel? before (character :: repairAfter (some character) 0 rest) with
    | none => rfl
    | some size =>
      obtain ⟨label, after, equal, -, repeats⟩ := repeatedLabel?_eq_some_iff.mp found
      obtain ⟨count, two, isLabel⟩ := repeats.repeated
      -- A label in what has been written stands for one with as many words, which would have been repaired here.
      obtain ⟨more, original, behind, atLeast, isOriginal, split, ends⟩ :=
        exists_isLabel_of_repairAfter isLabel (written.trans equal) repeats.ends
      have starts : atWordBoundary before (original ++ behind) = true := by
        rw [← split]
        exact (equal ▸ repeats.starts :)
      have foundBefore := repeatedLabel?_eq_some_iff.mpr
        ⟨original, behind, split, rfl, starts, ⟨more, by omega, isOriginal⟩, ends⟩
      rw [none] at foundBefore
      cases foundBefore

theorem repairLine?_repaired {line repaired : Text} (found : repairLine? line = some repaired) :
    repairLine? repaired = none := by
  unfold repairLine? at found
  split at found
  · cases found
    rw [repairLine?, needsRepair_repairAfter]
    rfl
  · cases found

end Masthead.Header

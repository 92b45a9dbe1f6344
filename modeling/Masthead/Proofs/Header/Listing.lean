import Masthead.Proofs.Header.Entry

/-!
# Lists anywhere in a document

The list of a kind is found below the first line that names its section, wherever that stands. An
entry goes to the end of its list and nowhere else, so it does not matter to one list what becomes
of the other.
-/

namespace Masthead.Header

open Text

/-- The entries directly below the first line that names a section. -/
def listed? (comment : Text) (part : Section) : List Text → Option (List Text)
  | [] => none
  | line :: rest =>
    if sectionLabel? comment line = some part then some (rest.takeWhile (isEntryLine comment))
    else listed? comment part rest

/-- The lines with more entries at the end of a section's list. -/
def putEntries (comment : Text) (part : Section) (added : List Text) : List Text → List Text
  | [] => []
  | line :: rest =>
    if sectionLabel? comment line = some part then line :: withEntries comment added rest
    else line :: putEntries comment part added rest

variable {comment : Text} {part other : Section} {added : List Text}

theorem sectionLabel?_of_isEntryLine {line : Text} (listed : isEntryLine comment line = true) :
    sectionLabel? comment line = none := by
  cases ended : endsSection comment line with
  | true =>
    rw [isEntryLine_eq_false_of_endsSection ended] at listed
    cases listed
  | false => exact (endsSection_eq_false_iff.mp ended).1

/-! ## The list that is scanned -/

theorem scan_cons_of_label {line : Text} {kind : EntryKind} (named : sectionLabel? comment line = some kind.part)
    (rest : List Text) :
    EntryList.scan comment (line :: rest) kind = ⟨kind, some 0, rest.takeWhile (isEntryLine comment)⟩ := by
  have here : findLabel? comment (line :: rest) kind.part = some 0 := by simp [findLabel?, List.findIdx?_cons, named]
  rw [EntryList.scan, here]
  rfl

theorem scan_cons_of_ne {line : Text} {kind : EntryKind} (unnamed : sectionLabel? comment line ≠ some kind.part)
    (rest : List Text) :
    EntryList.scan comment (line :: rest) kind
      = { EntryList.scan comment rest kind with label := (EntryList.scan comment rest kind).label.map (· + 1) } := by
  have later : findLabel? comment (line :: rest) kind.part = (findLabel? comment rest kind.part).map (· + 1) := by
    simp [findLabel?, List.findIdx?_cons, unnamed]
  rw [EntryList.scan, later, EntryList.scan]
  cases findLabel? comment rest kind.part <;> rfl

theorem scan_eq_listed? (lines : List Text) (kind : EntryKind) :
    (EntryList.scan comment lines kind).entries = (listed? comment kind.part lines).getD [] ∧
      (EntryList.scan comment lines kind).kind = kind ∧
      (EntryList.scan comment lines kind).label.isSome = (listed? comment kind.part lines).isSome := by
  induction lines with
  | nil => exact ⟨rfl, rfl, rfl⟩
  | cons line rest inductionHypothesis =>
    rw [listed?]
    split
    · next named =>
      rw [scan_cons_of_label named]
      exact ⟨rfl, rfl, rfl⟩
    · next unnamed =>
      rw [scan_cons_of_ne unnamed, Option.isSome_map]
      exact inductionHypothesis

/-- An entry is inserted at the end of its list. -/
theorem insert_eq_putEntries (lines : List Text) {kind : EntryKind}
    (present : (listed? comment kind.part lines).isSome = true) (entry : Text) :
    lines.take (EntryList.scan comment lines kind).insertionPoint ++ [entry]
        ++ lines.drop (EntryList.scan comment lines kind).insertionPoint
      = putEntries comment kind.part [entry] lines := by
  induction lines with
  | nil => cases present
  | cons line rest inductionHypothesis =>
    rw [putEntries]
    rw [listed?] at present
    split
    · next named =>
      rw [scan_cons_of_label named]
      obtain ⟨begun, tail, rfl, listed, stopped⟩ := exists_begun comment rest
      -- Where the label is the first line, the entries are those that the rest begins with.
      have point : (EntryList.mk kind (some 0) begun).insertionPoint = begun.length + 1 := by
        simp only [EntryList.insertionPoint]
        omega
      rw [takeWhile_append_of_stop listed stopped, point, List.take_succ_cons, List.drop_succ_cons, List.take_left,
        List.drop_left, withEntries_append _ listed stopped]
      simp only [List.cons_append, List.append_assoc, List.nil_append]
    · next unnamed =>
      rw [if_neg unnamed] at present
      -- A line above the label moves the place of the entry by one, but only if there is a label.
      have found : (EntryList.scan comment rest kind).label.isSome = true := (scan_eq_listed? rest kind).2.2.trans present
      have point : (EntryList.scan comment (line :: rest) kind).insertionPoint
          = (EntryList.scan comment rest kind).insertionPoint + 1 := by
        obtain ⟨label, labelled⟩ := Option.isSome_iff_exists.mp found
        rw [scan_cons_of_ne unnamed]
        simp only [EntryList.insertionPoint, labelled, Option.map_some]
        omega
      rw [point, List.take_succ_cons, List.drop_succ_cons, List.cons_append, List.cons_append, inductionHypothesis present]

/-! ## One list -/

theorem putEntries_nil (lines : List Text) : putEntries comment part [] lines = lines := by
  induction lines with
  | nil => rfl
  | cons line rest inductionHypothesis => rw [putEntries, withEntries_nil, inductionHypothesis, id, ite_self]

theorem putEntries_append {above : List Text} (unnamed : ∀ line ∈ above, sectionLabel? comment line ≠ some part)
    (rest : List Text) : putEntries comment part added (above ++ rest) = above ++ putEntries comment part added rest := by
  induction above with
  | nil => rfl
  | cons line above inductionHypothesis =>
    rw [List.cons_append, putEntries, if_neg (unnamed line List.mem_cons_self),
      inductionHypothesis fun later member => unnamed later (List.mem_cons_of_mem _ member), List.cons_append]

theorem listed?_append {above : List Text} (unnamed : ∀ line ∈ above, sectionLabel? comment line ≠ some part)
    (rest : List Text) : listed? comment part (above ++ rest) = listed? comment part rest := by
  induction above with
  | nil => rfl
  | cons line above inductionHypothesis =>
    rw [List.cons_append, listed?, if_neg (unnamed line List.mem_cons_self)]
    exact inductionHypothesis fun later member => unnamed later (List.mem_cons_of_mem _ member)

theorem takeWhile_withEntries (allListed : ∀ entry ∈ added, isEntryLine comment entry = true) (text : List Text) :
    (withEntries comment added text).takeWhile (isEntryLine comment)
      = text.takeWhile (isEntryLine comment) ++ added := by
  obtain ⟨begun, rest, rfl, listed, stopped⟩ := exists_begun comment text
  have longer : ∀ entry ∈ begun ++ added, isEntryLine comment entry = true := by
    intro entry member
    exact (List.mem_append.mp member).elim (listed entry) (allListed entry)
  rw [withEntries_append _ listed stopped, ← List.append_assoc, takeWhile_append_of_stop longer stopped,
    takeWhile_append_of_stop listed stopped]

theorem listed?_putEntries_self (allListed : ∀ entry ∈ added, isEntryLine comment entry = true) (lines : List Text) :
    listed? comment part (putEntries comment part added lines) = (listed? comment part lines).map (· ++ added) := by
  induction lines with
  | nil => rfl
  | cons line rest inductionHypothesis =>
    rw [putEntries, listed?]
    split
    · next named => rw [listed?, if_pos named, takeWhile_withEntries allListed, Option.map_some]
    · next unnamed => rw [listed?, if_neg unnamed, inductionHypothesis]

theorem putEntries_putEntries_self (allListed : ∀ entry ∈ added, isEntryLine comment entry = true) (more lines : List Text) :
    putEntries comment part more (putEntries comment part added lines) = putEntries comment part (added ++ more) lines := by
  induction lines with
  | nil => rfl
  | cons line rest inductionHypothesis =>
    rw [putEntries, putEntries]
    split
    · next named => rw [putEntries, if_pos named, withEntries_withEntries more rest allListed]
    · next unnamed => rw [putEntries, if_neg unnamed, inductionHypothesis]

theorem scan_insertLines {document : Document} {kind : EntryKind} {entry : Text}
    (labelled : (EntryList.scan comment document.lines kind).label.isSome = true)
    (listed : isEntryLine comment entry = true) :
    let inserted := document.insertLines (EntryList.scan comment document.lines kind).insertionPoint [entry]
    (EntryList.scan comment inserted.lines kind).label.isSome = true ∧
      (EntryList.scan comment inserted.lines kind).entries
        = (EntryList.scan comment document.lines kind).entries ++ [entry] := by
  intro inserted
  obtain ⟨entries, -, found⟩ := @scan_eq_listed? comment document.lines kind
  obtain ⟨insertedEntries, -, insertedFound⟩ := @scan_eq_listed? comment inserted.lines kind
  have present := found.symm.trans labelled
  obtain ⟨text, textEqual⟩ := Option.isSome_iff_exists.mp present
  have placed : inserted.lines = putEntries comment kind.part [entry] document.lines :=
    insert_eq_putEntries document.lines present entry
  have listedAfter : listed? comment kind.part inserted.lines = some (text ++ [entry]) := by
    rw [placed, listed?_putEntries_self fun other member => List.mem_singleton.mp member ▸ listed, textEqual,
      Option.map_some]
  rw [insertedFound, insertedEntries, entries, listedAfter, textEqual]
  exact ⟨rfl, rfl⟩

/-! ## Another list -/

theorem head?_putEntries (lines : List Text) : (putEntries comment part added lines).head? = lines.head? := by
  cases lines with
  | nil => rfl
  | cons line rest =>
    rw [putEntries]
    split <;> rfl

/-- The entries that a text begins with stay where they are when entries are put below a label in it. -/
theorem putEntries_begun {begun : List Text} (listed : ∀ entry ∈ begun, isEntryLine comment entry = true)
    (rest : List Text) :
    putEntries comment part added (begun ++ rest) = begun ++ putEntries comment part added rest := by
  refine putEntries_append ?_ rest
  intro entry member
  simp [sectionLabel?_of_isEntryLine (listed entry member)]

theorem takeWhile_putEntries (text : List Text) :
    (putEntries comment part added text).takeWhile (isEntryLine comment) = text.takeWhile (isEntryLine comment) := by
  obtain ⟨begun, rest, rfl, listed, stopped⟩ := exists_begun comment text
  have stoppedAfter : (putEntries comment part added rest).head?.any (isEntryLine comment) = false := by
    rwa [head?_putEntries]
  rw [putEntries_begun listed, takeWhile_append_of_stop listed stoppedAfter, takeWhile_append_of_stop listed stopped]

theorem withEntries_putEntries {more : List Text} (moreListed : ∀ entry ∈ more, isEntryLine comment entry = true)
    (text : List Text) :
    withEntries comment more (putEntries comment part added text)
      = putEntries comment part added (withEntries comment more text) := by
  obtain ⟨begun, rest, rfl, listed, stopped⟩ := exists_begun comment text
  have stoppedAfter : (putEntries comment part added rest).head?.any (isEntryLine comment) = false := by
    rwa [head?_putEntries]
  rw [putEntries_begun listed, withEntries_append _ listed stoppedAfter, withEntries_append _ listed stopped,
    putEntries_begun listed, putEntries_begun moreListed]

theorem listed?_withEntries (allListed : ∀ entry ∈ added, isEntryLine comment entry = true) (text : List Text) :
    listed? comment part (withEntries comment added text) = listed? comment part text := by
  obtain ⟨begun, rest, rfl, listed, stopped⟩ := exists_begun comment text
  have unnamed {entries : List Text} (listed : ∀ entry ∈ entries, isEntryLine comment entry = true) :
      ∀ entry ∈ entries, sectionLabel? comment entry ≠ some part := by
    intro entry member
    simp [sectionLabel?_of_isEntryLine (listed entry member)]
  rw [withEntries_append _ listed stopped, listed?_append (unnamed listed), listed?_append (unnamed listed),
    listed?_append (unnamed allListed)]

theorem listed?_putEntries_other (different : other ≠ part)
    (allListed : ∀ entry ∈ added, isEntryLine comment entry = true) (lines : List Text) :
    listed? comment other (putEntries comment part added lines) = listed? comment other lines := by
  induction lines with
  | nil => rfl
  | cons line rest inductionHypothesis =>
    by_cases named : sectionLabel? comment line = some part
    · have unnamed : sectionLabel? comment line ≠ some other := by simp [named, Ne.symm different]
      rw [putEntries, if_pos named, listed?, if_neg unnamed, listed?, if_neg unnamed, listed?_withEntries allListed]
    · rw [putEntries, if_neg named, listed?, listed?, takeWhile_putEntries, inductionHypothesis]

/-- It does not matter which of two lists gets its entries first. -/
theorem putEntries_comm (different : other ≠ part) {more : List Text}
    (allListed : ∀ entry ∈ added, isEntryLine comment entry = true)
    (moreListed : ∀ entry ∈ more, isEntryLine comment entry = true) (lines : List Text) :
    putEntries comment other more (putEntries comment part added lines)
      = putEntries comment part added (putEntries comment other more lines) := by
  induction lines with
  | nil => rfl
  | cons line rest inductionHypothesis =>
    by_cases named : sectionLabel? comment line = some part
    · have unnamed : sectionLabel? comment line ≠ some other := by simp [named, Ne.symm different]
      rw [putEntries, if_pos named, putEntries, if_neg unnamed, putEntries, if_neg unnamed, putEntries, if_pos named,
        withEntries_putEntries allListed]
    · by_cases otherNamed : sectionLabel? comment line = some other
      · rw [putEntries, if_neg named, putEntries, if_pos otherNamed, putEntries, if_pos otherNamed, putEntries, if_neg named,
          withEntries_putEntries moreListed]
      · rw [putEntries, if_neg named, putEntries, if_neg otherNamed, putEntries, if_neg otherNamed, putEntries, if_neg named,
          inductionHypothesis]

end Masthead.Header

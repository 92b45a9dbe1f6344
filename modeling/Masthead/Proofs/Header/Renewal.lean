import Masthead.Proofs.Header.Field
import Masthead.Proofs.Header.Repair
import Masthead.Proofs.Header.Standing

/-!
# Renewed fields

A line carries a volatile field where its comment begins with the field's label. With a comment
token that has no word characters the label cannot begin any earlier in the line, so the line is cut
behind its colon and with another value there it carries the same field. To the header the line
stays what it was, since the letters that make it a comment line and no rule stand in the head.
-/

namespace Masthead.Header

open Text

/-- A token without characters that words are made of. -/
def Wordless (token : Text) : Prop :=
  ∀ character ∈ token, isWord character = false

instance (token : Text) : Decidable (Wordless token) :=
  List.decidableBAll _ token

theorem Wordless.not_mem {token : Text} (wordless : Wordless token) {letter : Char} (word : isWord letter = true) :
    letter ∉ token := by
  intro member
  rw [wordless letter member] at word
  cases word

/-! ## Labels of volatile fields -/

namespace VolatileField

/-- What a field is called: the time of the last change may have words `Last` before it. -/
def IsNamed : VolatileField → Text → Prop
  | lastModified, name => ∃ count, IsLabel count name
  | editorInfo, name => name = "Editor"

/-- The letter that a field's label begins with. -/
def letter : VolatileField → Char
  | lastModified => 'U'
  | editorInfo => 'E'

variable {comment line : Text} {field : VolatileField}

theorem isWord_letter (field : VolatileField) : isWord field.letter = true := by
  cases field <;> decide

theorem isLetterly_letter (field : VolatileField) : isLetterly field.letter = true := by
  cases field <;> decide

theorem label_eq (field : VolatileField) : field.label = field.letter :: field.label.tail := by
  cases field <;> rfl

theorem label_append (field : VolatileField) (rest : Text) :
    field.label ++ rest = field.letter :: (field.label.tail ++ rest) := by
  conv => lhs; rw [field.label_eq]
  rfl

theorem letter_not_mem_tail (field : VolatileField) : field.letter ∉ field.label.tail := by
  cases field <;> decide

theorem isWhite_letter (field : VolatileField) : isWhite field.letter = false :=
  isWhite_eq_false_of_isLetterly field.isLetterly_letter

theorem letter_not_mem_white (field : VolatileField) {white : Text} (blank : ∀ character ∈ white, isWhite character = true) :
    field.letter ∉ white := by
  intro member
  have visible := blank _ member
  rw [field.isWhite_letter] at visible
  cases visible

theorem IsNamed.exists_lead {name : Text} (named : field.IsNamed name) :
    ∃ lead, name = lead ++ field.label ∧ field.letter ∉ lead := by
  cases field with
  | editorInfo => exact ⟨[], named, List.not_mem_nil⟩
  | lastModified =>
    obtain ⟨count, isLabel⟩ := named
    induction isLabel with
    | updated => exact ⟨[], rfl, List.not_mem_nil⟩
    | last nonempty blank isLabel inductionHypothesis =>
      obtain ⟨lead, equal, absent⟩ := inductionHypothesis
      refine ⟨_, by rw [equal, ← List.append_assoc, ← List.append_assoc], ?_⟩
      rw [List.mem_append, List.mem_append, not_or, not_or]
      exact ⟨⟨by decide, letter_not_mem_white _ blank⟩, absent⟩

theorem IsNamed.head?_eq {name : Text} (named : field.IsNamed name) (after : Text) :
    (name ++ after).head? = some 'L' ∨ (name ++ after).head? = some field.letter := by
  cases field with
  | editorInfo =>
    rw [show name = "Editor".toList from named]
    exact .inr rfl
  | lastModified =>
    obtain ⟨count, isLabel⟩ := named
    rw [isLabel.head?_eq]
    split
    · exact .inr rfl
    · exact .inl rfl

theorem IsNamed.head?_visible {name : Text} (named : field.IsNamed name) (after : Text) :
    ∀ character, (name ++ after).head? = some character → isWhite character = false := by
  intro character head
  rcases named.head?_eq after with first | first
  · rw [head, Option.some.injEq] at first
    rw [first]
    decide
  · rw [head, Option.some.injEq] at first
    rw [first]
    exact field.isWhite_letter

theorem colonBehind?_isSome_iff {label text : Text} :
    (FieldShape.colonBehind? label text).isSome = true ↔
      ∃ white more, text = label ++ (white ++ ':' :: more) ∧ ∀ character ∈ white, isWhite character = true := by
  constructor
  · intro found
    obtain ⟨⟨head, rest⟩, found⟩ := Option.isSome_iff_exists.mp found
    obtain ⟨white, equal, -, blank⟩ := FieldShape.exists_of_colonBehind? found
    exact ⟨white, rest, equal, blank⟩
  · rintro ⟨white, more, rfl, blank⟩
    rw [FieldShape.colonBehind?_append_colon label blank more]
    rfl

theorem labels_iff {text : Text} :
    field.labels text = true ↔
      ∃ name white more, text = name ++ (white ++ ':' :: more) ∧ field.IsNamed name ∧
        ∀ character ∈ white, isWhite character = true := by
  -- The label of the editor is a single text; that of the time may have words `Last` before it.
  cases field with
  | editorInfo =>
    rw [labels, colonBehind?_isSome_iff]
    constructor
    · rintro ⟨white, more, equal, blank⟩
      exact ⟨_, white, more, equal, rfl, blank⟩
    · rintro ⟨name, white, more, equal, named, blank⟩
      obtain rfl : name = ("Editor" : Text) := named
      exact ⟨white, more, equal, blank⟩
  | lastModified =>
    rw [labels, colonBehind?_isSome_iff]
    constructor
    · rintro ⟨white, more, equal, blank⟩
      have behind : behindLasts text = ((behindLasts text).1, "Updated".toList ++ (white ++ ':' :: more)) :=
        Prod.ext rfl equal
      obtain ⟨name, isLabel, textEqual⟩ := exists_isLabel_of_behindLasts behind
      exact ⟨name, white, more, textEqual, ⟨_, isLabel⟩, blank⟩
    · rintro ⟨name, white, more, rfl, ⟨count, isLabel⟩, blank⟩
      rw [isLabel.behindLasts_eq]
      exact ⟨white, more, rfl, blank⟩

/-! ## Lines that carry a field -/

theorem commentText_white_append (comment : Text) {indent : Text} (rest : Text)
    (blank : ∀ character ∈ indent, isWhite character = true) :
    commentText comment (indent ++ rest) = commentText comment rest := by
  have trimmed : trim (indent ++ rest) = trim rest := by rw [trim, trimStart_white_append rest blank, trim]
  simp only [commentText, trimmed]

/-- Something is seen behind the token of a comment with a label: the letter of the label is not the token's. -/
theorem isBlank_eq_false_of_labels (wordless : Wordless comment) {indent rest : Text}
    (indentBlank : ∀ character ∈ indent, isWhite character = true)
    (labelled : field.labels (commentText comment (indent ++ (comment ++ rest))) = true) : isBlank rest = false := by
  obtain ⟨name, white, more, textEqual, named, -⟩ := labels_iff.mp labelled
  obtain ⟨lead, nameEqual, -⟩ := named.exists_lead
  have inText : field.letter ∈ commentText comment (indent ++ (comment ++ rest)) := by
    rw [textEqual, nameEqual, field.label_eq]
    simp
  have inLine := mem_of_mem_trim (mem_trim_of_mem_commentText inText)
  rw [List.mem_append, List.mem_append] at inLine
  rcases inLine with inIndent | inToken | inRest
  · exact absurd inIndent (field.letter_not_mem_white indentBlank)
  · exact absurd inToken (wordless.not_mem field.isWord_letter)
  · exact isBlank_eq_false_of_mem inRest field.isWhite_letter

/-- A line that carries a field is its comment token, the label and the colon, with blanks between them. -/
theorem matchesLine_iff (wordless : Wordless comment) :
    field.matchesLine comment line = true ↔
      ∃ indent space name white more, line = indent ++ (comment ++ (space ++ (name ++ (white ++ ':' :: more)))) ∧
        BeginsVisibly comment ∧ field.IsNamed name ∧ (∀ character ∈ indent, isWhite character = true) ∧
        (∀ character ∈ space, isWhite character = true) ∧ ∀ character ∈ white, isWhite character = true := by
  rw [matchesLine, Bool.and_eq_true]
  constructor
  · rintro ⟨commented, labelled⟩
    obtain ⟨name, white, more, textEqual, named, blank⟩ := labels_iff.mp labelled
    obtain ⟨indent, indented, indentBlank⟩ := exists_trimStart_split line
    obtain ⟨-, rest, started⟩ := isCommentLine_iff.mp commented
    have visible := beginsVisibly_of_isCommentLine commented
    rw [← started] at indented
    have nonblank := isBlank_eq_false_of_labels wordless indentBlank (indented ▸ labelled)
    -- What stands behind the token has been trimmed, so that blanks belong to both of its ends.
    obtain ⟨space, after, split, spaceBlank, -⟩ := exists_trim_split rest
    rw [indented, commentText_white_append comment _ indentBlank, commentText_append visible nonblank] at textEqual
    refine ⟨indent, space, name, white, more ++ after, ?_, visible, named, indentBlank, spaceBlank, blank⟩
    rw [indented, split, textEqual]
    simp only [List.append_assoc, List.cons_append]
  · rintro ⟨indent, space, name, white, more, rfl, visible, named, indentBlank, spaceBlank, blank⟩
    have nonblank : isBlank (space ++ (name ++ (white ++ ':' :: more))) = false :=
      isBlank_eq_false_of_mem (by simp : ':' ∈ _) (by decide)
    -- Trimming the end of the line stops at the colon at the latest.
    obtain ⟨rest, ended⟩ := exists_trimEnd_append_cons (name ++ white) more (by decide : isWhite ':' = false)
    simp only [List.append_assoc] at ended
    constructor
    · rw [isCommentLine_iff, trimStart_white_append _ indentBlank, ← isCommentLine_iff]
      exact isCommentLine_append visible _
    · rw [commentText_white_append comment _ indentBlank, commentText_append visible nonblank, trim,
        trimStart_white_append _ spaceBlank, trimStart_of_head? (named.head?_visible _), ended]
      exact labels_iff.mpr ⟨name, white, rest, rfl, named, blank⟩

/-- A line carries one field at most. -/
theorem eq_of_matchesLine {other : VolatileField} (carried : field.matchesLine comment line = true)
    (otherCarried : other.matchesLine comment line = true) : field = other := by
  rw [matchesLine, Bool.and_eq_true] at carried otherCarried
  obtain ⟨name, white, more, textEqual, named, -⟩ := labels_iff.mp carried.2
  obtain ⟨otherName, otherWhite, otherMore, otherEqual, otherNamed, -⟩ := labels_iff.mp otherCarried.2
  have sameHead : (name ++ (white ++ ':' :: more)).head? = (otherName ++ (otherWhite ++ ':' :: otherMore)).head? := by
    rw [← textEqual, ← otherEqual]
  -- One label begins with an `E`, and the other with one of the letters `L` and `U`.
  have apart {name other : Text} (rest otherRest : Text) (first : IsNamed .lastModified name)
      (second : IsNamed .editorInfo other) : (name ++ rest).head? ≠ (other ++ otherRest).head? := by
    rw [show other = "Editor".toList from second]
    rcases first.head?_eq rest with head | head <;> rw [head]
    · exact (by decide : some 'L' ≠ some 'E')
    · exact (by decide : some 'U' ≠ some 'E')
  cases field <;> cases other
  · rfl
  · exact absurd sameHead (apart _ _ named otherNamed)
  · exact absurd sameHead.symm (apart _ _ otherNamed named)
  · rfl

theorem exists_head_of_cut? {found : FieldShape.Cut} (cut : field.shape.cut? line = some found) :
    ∃ front white gap, found.head = front ++ (field.label ++ (white ++ ':' :: gap)) ∧
      (∀ character ∈ white, isWhite character = true) ∧ ∀ character ∈ gap, character = ' ' ∨ character = '\t' := by
  obtain ⟨front, label, white, gap, headEqual, member, blank, gapOnly⟩ := FieldShape.exists_head_of_cutAfter? cut
  rw [show label = field.label from List.mem_singleton.mp member] at headEqual
  refine ⟨front, white, gap, headEqual, blank, fun character inGap => ?_⟩
  simpa [shape] using gapOnly character inGap

/-- The head of the field holds the whole label, so any value may stand behind it. -/
theorem matchesLine_head_append (wordless : Wordless comment) (carried : field.matchesLine comment line = true)
    {found : FieldShape.Cut} (cut : field.shape.cut? line = some found) (value : Text) :
    field.matchesLine comment (found.head ++ value) = true := by
  obtain ⟨indent, space, name, white, more, lineEqual, visible, named, indentBlank, spaceBlank, blank⟩ :=
    (matchesLine_iff wordless).mp carried
  obtain ⟨front, headWhite, gap, headEqual, headBlank, -⟩ := exists_head_of_cut? cut
  obtain ⟨-, -, -, trailing, split, -⟩ := FieldShape.of_cutAfter? cut
  obtain ⟨lead, rfl, leadAbsent⟩ := named.exists_lead
  have absent : field.letter ∉ indent ++ (comment ++ (space ++ lead)) := by
    simp only [List.mem_append, not_or]
    exact ⟨field.letter_not_mem_white indentBlank, wordless.not_mem field.isWord_letter,
      field.letter_not_mem_white spaceBlank, leadAbsent⟩
  -- The first such letter in the line is that of the label, so the head does not end before it.
  have lineSplit : indent ++ (comment ++ (space ++ lead)) ++ (field.label ++ (white ++ ':' :: more))
      = front ++ field.letter :: (field.label.tail ++ (headWhite ++ ':' :: gap) ++ (found.value ++ trailing)) := by
    have whole := lineEqual.symm.trans split
    simpa only [headEqual, field.label_append, List.append_assoc, List.cons_append] using whole
  obtain ⟨middle, frontEqual, behind⟩ := exists_split_of_not_mem absent lineSplit
  -- What the head has behind the label is a colon, with blanks before it.
  have exists_colon : ∃ blanks rest,
      middle ++ (field.label ++ (headWhite ++ ':' :: gap)) = field.label ++ (blanks ++ ':' :: rest) ∧
      ∀ character ∈ blanks, isWhite character = true := by
    cases middle with
    | nil => exact ⟨headWhite, gap, rfl, headBlank⟩
    | cons first middle =>
      rw [field.label_append, List.cons_append, List.cons.injEq] at behind
      have inner : field.letter ∉ field.label.tail ++ (white ++ [':']) := by
        simp only [List.mem_append, List.mem_singleton, not_or]
        exact ⟨field.letter_not_mem_tail, field.letter_not_mem_white blank, by cases field <;> decide⟩
      have behindColon := behind.2
      rw [← List.singleton_append, ← List.append_assoc white, ← List.append_assoc] at behindColon
      obtain ⟨rest, rfl, -⟩ := exists_split_of_not_mem inner behindColon
      refine ⟨white, rest ++ (field.label ++ (headWhite ++ ':' :: gap)), ?_, blank⟩
      simp only [← behind.1, field.label_append, List.append_assoc, List.cons_append, List.nil_append]
  obtain ⟨blanks, rest, colonEqual, blanksBlank⟩ := exists_colon
  refine (matchesLine_iff wordless).mpr
    ⟨indent, space, lead ++ field.label, blanks, rest ++ value, ?_, visible, named, indentBlank, spaceBlank, blanksBlank⟩
  rw [headEqual, frontEqual]
  have joined := congrArg (fun text => indent ++ (comment ++ (space ++ (lead ++ (text ++ value))))) colonEqual
  simpa only [List.append_assoc, List.cons_append] using joined

/-! ## Renewing -/

theorem renew?_eq_some_iff {value text : Text} :
    field.renew? comment value line = some text ↔
      field.matchesLine comment line = true ∧ ∃ found, field.shape.cut? line = some found ∧ found.head ++ value = text := by
  unfold renew?
  split
  · next carried => simp [carried]
  · next foreign => simp [foreign]

end VolatileField

/-- The field among the enabled ones that a line carries, and the head of the line. -/
def carried? (comment : Text) (enabled : VolatileField → Bool) (line : Text) : Option (VolatileField × Text) :=
  (VolatileField.all.filter enabled).findSome? fun field => (field.renew? comment [] line).map fun head => (field, head)

/-- The enabled fields with their values. -/
def enabledFields (enabled : VolatileField → Bool) (values : VolatileField → Text) : FieldValues :=
  (VolatileField.all.filter enabled).map fun field => (field, values field)

/-- The line with the field that it carries renewed. -/
def renewedLine (comment : Text) (enabled : VolatileField → Bool) (values : VolatileField → Text) (line : Text) : Text :=
  ((carried? comment enabled line).map fun found => found.2 ++ values found.1).getD line

section Lines

variable {comment line : Text} {enabled : VolatileField → Bool} {values : VolatileField → Text}

theorem carried?_eq_some_iff {field : VolatileField} {head : Text} :
    carried? comment enabled line = some (field, head) ↔
      enabled field = true ∧ field.matchesLine comment line = true ∧
        ∃ found, field.shape.cut? line = some found ∧ found.head = head := by
  have renewed (field : VolatileField) : field.renew? comment [] line = some head ↔
      field.matchesLine comment line = true ∧ ∃ found, field.shape.cut? line = some found ∧ found.head = head := by
    simp only [VolatileField.renew?_eq_some_iff, List.append_nil]
  rw [← renewed]
  constructor
  · intro found
    obtain ⟨other, member, otherFound⟩ := List.exists_of_findSome?_eq_some found
    obtain ⟨_, otherRenewed, equal⟩ := Option.map_eq_some_iff.mp otherFound
    cases equal
    exact ⟨(List.mem_filter.mp member).2, otherRenewed⟩
  · rintro ⟨wanted, fieldRenewed⟩
    have listed : field ∈ VolatileField.all.filter enabled :=
      List.mem_filter.mpr ⟨by cases field <;> decide, wanted⟩
    cases found : carried? comment enabled line with
    | none =>
      have nothing := List.findSome?_eq_none_iff.mp found field listed
      rw [fieldRenewed] at nothing
      cases nothing
    | some pair =>
      -- Another field that is found first would be carried by the same line.
      obtain ⟨other, -, otherFound⟩ := List.exists_of_findSome?_eq_some found
      obtain ⟨otherHead, otherRenewed, rfl⟩ := Option.map_eq_some_iff.mp otherFound
      obtain rfl := VolatileField.eq_of_matchesLine (VolatileField.renew?_eq_some_iff.mp otherRenewed).1
        (VolatileField.renew?_eq_some_iff.mp fieldRenewed).1
      rw [otherRenewed, Option.some.injEq] at fieldRenewed
      rw [fieldRenewed]

theorem findSome?_renew? (comment : Text) (enabled : VolatileField → Bool) (values : VolatileField → Text) (line : Text) :
    ((enabledFields enabled values).findSome? fun (field, value) => field.renew? comment value line)
      = (carried? comment enabled line).map fun found => found.2 ++ values found.1 := by
  rw [enabledFields, List.findSome?_map, carried?, List.map_findSome?]
  congr 1
  funext field
  simp only [Function.comp_apply, Option.map_map, VolatileField.renew?]
  split
  · simp [Function.comp_def]
  · rfl

theorem refreshLine?_getD (comment : Text) (enabled : VolatileField → Bool) (values : VolatileField → Text) (line : Text) :
    (refreshLine? comment (enabledFields enabled values) line).getD line = renewedLine comment enabled values line := by
  rw [refreshLine?, findSome?_renew?, renewedLine]
  cases (carried? comment enabled line).map fun found => found.2 ++ values found.1 with
  | none => rfl
  | some text =>
    rw [Option.filter_some]
    split
    · rfl
    · next same => exact (by simpa using same : text = line).symm

theorem renewedLine_of_some {field : VolatileField} {head : Text}
    (found : carried? comment enabled line = some (field, head)) :
    renewedLine comment enabled values line = head ++ values field := by
  rw [renewedLine, found]
  rfl

theorem renewedLine_of_none (nothing : carried? comment enabled line = none) :
    renewedLine comment enabled values line = line := by
  rw [renewedLine, nothing]
  rfl

/-- A renewed line is the line itself, or the head of a field that it carries with the field's value. -/
theorem renewedLine_cases (comment : Text) (enabled : VolatileField → Bool) (values : VolatileField → Text) (line : Text) :
    renewedLine comment enabled values line = line ∨
      ∃ (field : VolatileField) (cut : FieldShape.Cut), field.matchesLine comment line = true ∧
        field.shape.cut? line = some cut ∧ renewedLine comment enabled values line = cut.head ++ values field := by
  cases found : carried? comment enabled line with
  | none => exact .inl (renewedLine_of_none found)
  | some pair =>
    obtain ⟨field, head⟩ := pair
    obtain ⟨-, carried, cut, cutFound, rfl⟩ := carried?_eq_some_iff.mp found
    exact .inr ⟨field, cut, carried, cutFound, renewedLine_of_some found⟩

/-- A renewed line stands as it stood, since its head is kept. -/
theorem standing_renewedLine (wordless : Wordless comment) (line : Text) :
    standing comment (renewedLine comment enabled values line) = standing comment line := by
  rcases renewedLine_cases comment enabled values line with same | ⟨field, cut, -, cutFound, renewed⟩
  · rw [same]
  · obtain ⟨front, white, gap, headEqual, -, -⟩ := field.exists_head_of_cut? cutFound
    obtain ⟨-, -, -, trailing, split, -⟩ := FieldShape.of_cutAfter? cutFound
    rw [renewed, split, headEqual]
    simp only [List.append_assoc, field.label_append, List.cons_append]
    exact standing_append_cons (wordless.not_mem field.isWord_letter) field.isLetterly_letter _ _ _

/-! ## Renewing again -/

/-- Whether a field reads a value back that has been written for it. -/
def VolatileField.Reads (field : VolatileField) (value : Text) : Prop :=
  field.shape.IsValue value ∧ value ≠ []

theorem carried?_head_append (wordless : Wordless comment) {field : VolatileField} {head value : Text}
    (found : carried? comment enabled line = some (field, head)) (reads : field.Reads value) :
    carried? comment enabled (head ++ value) = some (field, head) := by
  obtain ⟨wanted, carried, cut, cutFound, rfl⟩ := carried?_eq_some_iff.mp found
  have plain : ∀ label ∈ field.shape.labels, ':' ∉ label := by cases field <;> decide
  exact carried?_eq_some_iff.mpr ⟨wanted, field.matchesLine_head_append wordless carried cutFound value, _,
    FieldShape.cutAfter?_head_append plain reads.1 reads.2 cutFound, rfl⟩

/-- Of two renewals in turn the second counts. -/
theorem renewedLine_renewedLine (wordless : Wordless comment) (reads : ∀ field : VolatileField, field.Reads (values field))
    (others : VolatileField → Text) (line : Text) :
    renewedLine comment enabled others (renewedLine comment enabled values line)
      = renewedLine comment enabled others line := by
  cases found : carried? comment enabled line with
  | none => rw [renewedLine_of_none found]
  | some pair =>
    obtain ⟨field, head⟩ := pair
    rw [renewedLine_of_some found, renewedLine_of_some found,
      renewedLine_of_some (carried?_head_append wordless found (reads field))]

end Lines

/-! ## No label in a value -/

/-- Whether a word stands somewhere in a text, apart from other words. -/
def HasWord (word text : Text) : Prop :=
  ∃ front back, text = front ++ (word ++ back) ∧ atWordBoundary front.getLast? (word ++ back) = true ∧
    atWordBoundary word.getLast? back = true

/-- The codes of white space. -/
def whiteCodes : List Nat := [
  0x9, 0xa, 0xb, 0xc, 0xd, 0x20, 0x85, 0xa0, 0x1680, 0x2000, 0x2001, 0x2002, 0x2003, 0x2004, 0x2005, 0x2006, 0x2007,
  0x2008, 0x2009, 0x200a, 0x2028, 0x2029, 0x202f, 0x205f, 0x3000]

theorem isWord_eq_false_of_isWhite {character : Char} (white : isWhite character = true) : isWord character = false := by
  have listed : character.toNat ∈ whiteCodes := by
    simp only [isWhite, Bool.or_eq_true, Bool.and_eq_true, decide_eq_true_eq, beq_iff_eq] at white
    simp only [whiteCodes, List.mem_cons, List.not_mem_nil, or_false]
    omega
  have codes : ∀ code ∈ whiteCodes, isWord (Char.ofNat code) = false := by decide +kernel
  have wordless := codes _ listed
  rwa [Char.ofNat_toNat] at wordless

/-- A label that is to be repaired begins with the word `Last`. -/
theorem Repeats.hasWord {before : Option Char} {front label after : Text} (repeats : Repeats before label after)
    (boundary : before.any isWord = false → front.getLast?.any isWord = false) :
    HasWord "Last" (front ++ (label ++ after)) := by
  obtain ⟨count, two, isLabel⟩ := repeats.repeated
  have starts := repeats.starts
  -- The label has two words `Last` or more, so a blank follows the first of them.
  cases isLabel with
  | updated => omega
  | @last count white rest nonempty blank isLabel =>
    have letter : isWord 'L' = true := by decide
    refine ⟨front, white ++ rest ++ after, by simp only [List.append_assoc], ?_, ?_⟩
    · have apart : before.any isWord = false := by
        rw [atWordBoundary, bne_iff_ne] at starts
        exact Bool.eq_false_iff.mpr fun word => starts (word.trans letter.symm)
      rw [atWordBoundary, boundary apart]
      exact letter
    · cases white with
      | nil => exact absurd rfl nonempty
      | cons first white =>
        have space := isWord_eq_false_of_isWhite (blank first List.mem_cons_self)
        show (isWord 't' != isWord first) = true
        rw [space]
        decide

/-- No label begins in a head and ends behind it, since a head ends in a colon and blanks. -/
theorem eq_nil_of_straddling {field : VolatileField} {line : Text} {found : FieldShape.Cut}
    (cut : field.shape.cut? line = some found) {before : Option Char} {front label part rest after : Text}
    (repeats : Repeats before label after) (headSplit : found.head = front ++ part) (labelSplit : label = part ++ rest) :
    part = [] := by
  obtain ⟨headFront, white, gap, headEqual, -, gapOnly⟩ := field.exists_head_of_cut? cut
  obtain ⟨count, -, isLabel⟩ := repeats.repeated
  cases part with
  | nil => rfl
  | cons first part =>
    obtain ⟨more, labelBegins⟩ := repeats.exists_cons
    have colonless : ':' ∉ first :: part := by
      intro member
      exact isLabel.colon_not_mem (labelSplit ▸ List.mem_append_left _ member)
    have ends : front ++ first :: part = headFront ++ (field.label ++ white) ++ ':' :: gap := by
      rw [← headSplit, headEqual]
      simp only [List.append_assoc]
    -- A part of a label holds no colon, so it would have to begin in the blanks behind that of the head.
    obtain ⟨middle, -, gapEqual⟩ := exists_split_of_not_mem_right colonless ends
    rw [labelBegins, List.cons_append, List.cons.injEq] at labelSplit
    have blank := gapOnly first (gapEqual ▸ List.mem_append_right _ List.mem_cons_self)
    rw [← labelSplit.1] at blank
    exact absurd blank (by decide)

theorem not_repeatsLabel_head_append {field : VolatileField} {line : Text} {found : FieldShape.Cut}
    (cut : field.shape.cut? line = some found) (single : ¬ RepeatsLabel line) {value : Text}
    (plain : ¬ HasWord "Last" value) : ¬ RepeatsLabel (found.head ++ value) := by
  rintro ⟨front, label, after, equal, repeats⟩
  obtain ⟨-, -, -, trailing, split, -⟩ := FieldShape.of_cutAfter? cut
  rcases List.append_eq_append_iff.mp equal with ⟨middle, frontEqual, valueEqual⟩ | ⟨middle, headSplit, labelEqual⟩
  · refine plain (valueEqual ▸ repeats.hasWord ?_)
    cases middle with
    | nil => exact fun _ => rfl
    | cons first middle =>
      rw [frontEqual, List.getLast?_append, Option.or_of_isSome (by simp)]
      exact id
  · rcases List.append_eq_append_iff.mp labelEqual with ⟨rest, middleEqual, afterEqual⟩ | ⟨rest, labelSplit, valueEqual⟩
    · cases rest with
      | nil =>
        rw [List.append_nil] at middleEqual
        obtain ⟨more, labelBegins⟩ := repeats.exists_cons
        have empty := eq_nil_of_straddling cut repeats headSplit (by rw [middleEqual, List.append_nil] : label = middle ++ [])
        rw [middleEqual, labelBegins] at empty
        cases empty
      | cons first rest =>
        -- The whole label stands in the head, and there it stood before.
        refine single ⟨front, label, first :: rest ++ (found.value ++ trailing), ?_, ?_⟩
        · rw [split, headSplit, middleEqual]
          simp only [List.append_assoc]
        · have starts := repeats.starts
          have ends := repeats.ends
          obtain ⟨more, rfl⟩ := repeats.exists_cons
          rw [afterEqual] at starts ends
          exact ⟨starts, repeats.repeated, ends⟩
    · obtain rfl := eq_nil_of_straddling cut repeats headSplit labelSplit
      refine plain ?_
      rw [valueEqual, ← show label = rest from labelSplit]
      exact (repeats.hasWord fun _ => rfl : HasWord "Last" ([] ++ (label ++ after)))

theorem not_repeatsLabel_renewedLine {comment line : Text} {enabled : VolatileField → Bool}
    {values : VolatileField → Text} (single : ¬ RepeatsLabel line) (plain : ∀ field, ¬ HasWord "Last" (values field)) :
    ¬ RepeatsLabel (renewedLine comment enabled values line) := by
  rcases renewedLine_cases comment enabled values line with same | ⟨field, cut, -, cutFound, renewed⟩
  · rwa [same]
  · rw [renewed]
    exact not_repeatsLabel_head_append cutFound single (plain field)

/-! ## Repairing -/

theorem standing_repaired {comment line repaired : Text} (wordless : Wordless comment)
    (found : repairLine? line = some repaired) : standing comment repaired = standing comment line := by
  unfold repairLine? at found
  split at found
  · next needed =>
    cases found
    obtain ⟨front, first, second, lineEqual, repairedEqual⟩ := exists_repairAfter_split needed
    have letter : isWord 'L' = true ∧ isLetterly 'L' = true := by decide
    rw [repairedEqual, lineEqual]
    exact standing_append_cons (wordless.not_mem letter.1) letter.2 _ _ _
  · cases found

end Masthead.Header

import Masthead.Header.Engine
import Masthead.Proofs.Text.Affix
import Masthead.Proofs.Text.Lower

/-!
# What single lines are to a header

A line is judged by its trimmed text. Here stands what follows from that for the lines that the
engine writes and for the lines that it meets above a header: a rule names no section, a blank line
belongs to no header, and a first line that has to stay the first is no rule.
-/

namespace Masthead.Header

open Text

/-- A token that trimming cannot eat into from the left. -/
def BeginsVisibly (token : Text) : Prop :=
  ∃ head rest, token = head :: rest ∧ isWhite head = false

theorem BeginsVisibly.trimStart_append {token : Text} (visible : BeginsVisibly token) (rest : Text) :
    trimStart (token ++ rest) = token ++ rest := by
  obtain ⟨head, tail, rfl, headVisible⟩ := visible
  exact trimStart_cons (tail ++ rest) headVisible

theorem BeginsVisibly.isEmpty_eq_false {token : Text} (visible : BeginsVisibly token) :
    token.isEmpty = false := by
  obtain ⟨head, tail, rfl, -⟩ := visible
  rfl

/-! ## Comment lines -/

theorem isCommentLine_iff {comment line : Text} :
    isCommentLine comment line = true ↔ comment ≠ [] ∧ comment <+: trimStart line := by
  simp [isCommentLine, startsWith_iff]

theorem beginsVisibly_of_isCommentLine {comment line : Text} (commented : isCommentLine comment line = true) :
    BeginsVisibly comment := by
  obtain ⟨nonempty, rest, equal⟩ := isCommentLine_iff.mp commented
  cases comment with
  | nil => exact absurd rfl nonempty
  | cons head tail =>
    refine ⟨head, tail, rfl, ?_⟩
    have first := List.head?_dropWhile_not isWhite line
    rw [show line.dropWhile isWhite = head :: tail ++ rest from equal.symm] at first
    simpa using first

theorem isCommentLine_append {comment : Text} (visible : BeginsVisibly comment) (rest : Text) :
    isCommentLine comment (comment ++ rest) = true := by
  rw [isCommentLine_iff, visible.trimStart_append]
  refine ⟨?_, List.prefix_append comment rest⟩
  obtain ⟨head, tail, rfl, -⟩ := visible
  exact List.cons_ne_nil head tail

theorem mem_trim_of_mem_commentText {comment line : Text} {character : Char}
    (member : character ∈ commentText comment line) : character ∈ trim line := by
  simp only [commentText] at member
  split at member
  · exact member
  · cases found : after? comment (trim line) with
    | none => exact mem_of_mem_trim (by simpa [found] using member)
    | some rest =>
      rw [after?_eq_some_iff.mp found]
      have inside := mem_of_mem_trim (by simpa [found] using member)
      simp [inside]

theorem commentText_append {comment text : Text} (visible : BeginsVisibly comment)
    (nonblank : isBlank text = false) : commentText comment (comment ++ text) = trim text := by
  have trimmed : trim (comment ++ text) = comment ++ trimEnd text := by
    rw [trim, visible.trimStart_append, trimEnd_append nonblank]
  simp only [commentText, trimmed, visible.isEmpty_eq_false, after?_append, Option.getD_some]
  exact trim_trimEnd text

/-! ## Rules -/

theorem isSeparator_of_isCommentRule {comment line : Text} (rule : isCommentRule comment line = true) :
    isSeparator comment line = true := by
  simp only [isCommentRule, Bool.and_eq_true] at rule
  exact rule.2

theorem beginsVisibly_of_isCommentRule {comment line : Text} (rule : isCommentRule comment line = true) :
    BeginsVisibly comment := by
  simp only [isCommentRule, Bool.and_eq_true] at rule
  exact beginsVisibly_of_isCommentLine rule.1

theorem isTokenRule_iff {comment trimmed : Text} :
    isTokenRule comment trimmed = true ↔
      comment ≠ [] ∧ ∃ signs, trimmed = comment ++ signs ∧ isRepeatedSign signs = true := by
  simp [isTokenRule, Option.any_eq_true, after?_eq_some_iff]

theorem isCommentRule_of_isTokenRule {comment line : Text} (rule : isTokenRule comment (trim line) = true) :
    isCommentRule comment line = true := by
  obtain ⟨nonempty, signs, equal, -⟩ := isTokenRule_iff.mp rule
  obtain ⟨white, startEqual, -⟩ := exists_trimEnd_split (trimStart line)
  have commented : isCommentLine comment line = true := by
    refine isCommentLine_iff.mpr ⟨nonempty, signs ++ white, ?_⟩
    rw [← List.append_assoc, ← equal, trim, ← startEqual]
  simp [isCommentRule, isSeparator, commented, rule]

/-! ## Letters -/

/-- Characters that can neither stand in a rule of signs nor be trimmed off. -/
def isLetterly (character : Char) : Bool :=
  !isDecoration character && !isTrailingDecoration character && !isPunctuation character

theorem isWhite_eq_false_of_isLetterly {character : Char} (letterly : isLetterly character = true) :
    isWhite character = false := by
  simp only [isLetterly, isTrailingDecoration, Bool.and_eq_true, Bool.not_eq_true', Bool.or_eq_false_iff] at letterly
  exact letterly.1.2.2

theorem isDecorativeRule_eq_false_of_mem {trimmed : Text} {letter : Char} (member : letter ∈ trimmed)
    (letterly : isLetterly letter = true) : isDecorativeRule trimmed = false := by
  simp only [isLetterly, Bool.and_eq_true, Bool.not_eq_true'] at letterly
  rw [Bool.eq_false_iff]
  intro rule
  simp only [isDecorativeRule, Bool.and_eq_true] at rule
  rw [← List.takeWhile_append_dropWhile (p := isDecoration) (l := trimmed), List.mem_append] at member
  rcases member with member | member
  · have decorative := List.all_eq_true.mp List.all_takeWhile letter member
    rw [letterly.1.1] at decorative
    cases decorative
  · have trailing := List.all_eq_true.mp rule.2 letter member
    rw [letterly.1.2] at trailing
    cases trailing

theorem isRepeatedSign_eq_false_of_mem {signs : Text} {letter : Char} (member : letter ∈ signs)
    (letterly : isLetterly letter = true) : isRepeatedSign signs = false := by
  simp only [isLetterly, Bool.and_eq_true, Bool.not_eq_true'] at letterly
  rw [Bool.eq_false_iff]
  intro repeated
  cases signs with
  | nil => cases member
  | cons sign rest =>
    simp only [isRepeatedSign, Bool.and_eq_true, List.all_eq_true, beq_iff_eq] at repeated
    have isSign : letter = sign := by
      rcases List.mem_cons.mp member with same | member
      · exact same
      · exact repeated.1.2 letter member
    rw [isSign, repeated.1.1] at letterly
    cases letterly.2

/-- A line with a letter is no rule, if a letter stands behind the comment token where it begins with that. -/
theorem isSeparator_eq_false_of_letters {comment line : Text}
    (lettered : ∃ letter ∈ trim line, isLetterly letter = true)
    (behind : ∀ text, comment ≠ [] → trim line = comment ++ text → ∃ letter ∈ text, isLetterly letter = true) :
    isSeparator comment line = false := by
  have noTokenRule : isTokenRule comment (trim line) = false := by
    rw [Bool.eq_false_iff]
    intro rule
    obtain ⟨nonempty, signs, equal, repeated⟩ := isTokenRule_iff.mp rule
    obtain ⟨letter, member, letterly⟩ := behind signs nonempty equal
    rw [isRepeatedSign_eq_false_of_mem member letterly] at repeated
    cases repeated
  obtain ⟨letter, member, letterly⟩ := lettered
  rw [isSeparator, isDecorativeRule_eq_false_of_mem member letterly, noTokenRule, Bool.or_false]

/-- A comment with a letter in its text is no rule. -/
theorem isSeparator_append_eq_false {comment text : Text} {letter : Char} (visible : BeginsVisibly comment)
    (member : letter ∈ text) (letterly : isLetterly letter = true) :
    isSeparator comment (comment ++ text) = false := by
  have letterVisible := isWhite_eq_false_of_isLetterly letterly
  refine isSeparator_eq_false_of_letters
    ⟨letter, mem_trim_of_visible (List.mem_append_right _ member) letterVisible, letterly⟩ fun signs _ equal => ?_
  -- Trimming takes white space only, so the letter is still there behind the token.
  rw [trim, visible.trimStart_append, trimEnd_append (isBlank_eq_false_of_mem member letterVisible),
    List.append_cancel_left_eq] at equal
  obtain ⟨white, split, whiteBlank⟩ := exists_trimEnd_split text
  rw [split, equal, List.mem_append] at member
  refine ⟨letter, member.resolve_right fun inWhite => ?_, letterly⟩
  rw [whiteBlank letter inWhite] at letterVisible
  cases letterVisible

/-! ## Blank lines -/

theorem isHeaderLine_eq_false_of_isBlank {comment line : Text} (blank : isBlank line = true) :
    isHeaderLine comment line = false := by
  -- Nothing is left of a blank line, and neither a rule nor a token is nothing.
  have started : trimStart line = [] := trimStart_of_blank (List.all_eq_true.mp blank)
  have noSeparator : isSeparator comment line = false := by
    rw [Bool.eq_false_iff]
    intro rule
    simp only [isSeparator, trim, started, Bool.or_eq_true] at rule
    rcases rule with rule | rule
    · exact absurd rule (by decide)
    · obtain ⟨nonempty, signs, equal, -⟩ := isTokenRule_iff.mp rule
      exact nonempty (List.append_eq_nil_iff.mp equal.symm).1
  have noComment : isCommentLine comment line = false := by
    rw [Bool.eq_false_iff]
    intro commented
    obtain ⟨nonempty, begun⟩ := isCommentLine_iff.mp commented
    rw [started] at begun
    exact nonempty (List.prefix_nil.mp begun)
  simp [isHeaderLine, noSeparator, noComment]

/-! ## Labels -/

theorem sectionLabel?_eq_some {comment line : Text} {part : Section}
    (labelled : sectionLabel? comment line = some part) : isLabelText part.label (commentText comment line) = true := by
  simpa using List.find?_some labelled

theorem exists_of_isLabelText {label text : Text} (named : isLabelText label text = true) :
    ∃ white more, text = label ++ (white ++ ':' :: more) ∧
      (∀ character ∈ white, isWhite character) ∧ ∀ character ∈ more, isWhite character := by
  unfold isLabelText at named
  split at named
  · exact absurd named (by decide)
  · next rest found =>
    split at named
    · next more behind =>
      obtain ⟨white, split, blank⟩ := exists_trimStart_split rest
      exact ⟨white, more, by rw [after?_eq_some_iff.mp found, ← behind, ← split], blank, List.all_eq_true.mp named⟩
    · exact absurd named (by decide)

theorem Section.exists_label_head (part : Section) :
    ∃ letter rest, part.label = letter :: rest ∧ isLetterly letter = true := by
  cases part with
  | description => exact ⟨'D', _, rfl, by decide⟩
  | fileHistory => exact ⟨'F', _, rfl, by decide⟩
  | todoList => exact ⟨'T', _, rfl, by decide⟩

/-- The text of a label begins with a letter. -/
theorem exists_letter_of_sectionLabel? {comment line : Text} {part : Section}
    (labelled : sectionLabel? comment line = some part) :
    ∃ letter rest, commentText comment line = letter :: rest ∧ isLetterly letter = true := by
  obtain ⟨white, more, textEqual, -, -⟩ := exists_of_isLabelText (sectionLabel?_eq_some labelled)
  obtain ⟨letter, rest, labelEqual, letterly⟩ := part.exists_label_head
  exact ⟨letter, _, by rw [textEqual, labelEqual, List.cons_append], letterly⟩

/-- A rule names no section. -/
theorem sectionLabel?_eq_none_of_isSeparator {comment line : Text} (rule : isSeparator comment line = true) :
    sectionLabel? comment line = none := by
  cases labelled : sectionLabel? comment line with
  | none => rfl
  | some part =>
    obtain ⟨letter, rest, textEqual, letterly⟩ := exists_letter_of_sectionLabel? labelled
    have inText : letter ∈ commentText comment line := textEqual ▸ List.mem_cons_self
    have noRule : isSeparator comment line = false := by
      refine isSeparator_eq_false_of_letters ⟨letter, mem_trim_of_mem_commentText inText, letterly⟩
        fun signs nonempty equal => ⟨letter, ?_, letterly⟩
      have behindToken : commentText comment line = trim signs := by
        simp [commentText, equal, after?_append, nonempty]
      exact mem_of_mem_trim (behindToken ▸ inText)
    rw [noRule] at rule
    cases rule

/-! ## First lines -/

/-- The characters that a pinned line begins with. -/
theorem isPinned_cases {line : Text} (pinned : isPinned line = true) :
    ∃ rest, line = '<' :: rest ∨ line = '#' :: '!' :: rest ∨ line = '#' :: ' ' :: rest := by
  simp only [isPinned, List.any_eq_true, startsWith_iff] at pinned
  obtain ⟨beginning, member, behind, equal⟩ := pinned
  -- Whatever the word is, its first sign is a `<` or a `#`, and case does not matter for signs.
  simp only [pinnedBeginnings, List.mem_cons, List.not_mem_nil, or_false] at member
  rcases member with rfl | rfl | rfl | rfl | rfl | rfl | rfl | rfl
  all_goals
    obtain ⟨rest, rfl, loweredRest⟩ := eq_of_lowerAfter (by decide) (by decide) equal.symm
  case inr.inl | inr.inr.inl | inr.inr.inr.inr.inr.inl => exact ⟨rest, .inl rfl⟩
  all_goals
    obtain ⟨rest, rfl, -⟩ := eq_of_lowerAfter (by decide) (by decide) loweredRest
  case inl => exact ⟨rest, .inr (.inl rfl)⟩
  all_goals exact ⟨rest, .inr (.inr rfl)⟩

/-- A pinned line is no rule, unless it is a rule of the header's own comment. -/
theorem isSeparator_eq_false_of_isPinned {comment line : Text} (pinned : isPinned line = true)
    (unruled : isCommentRule comment line = false) : isSeparator comment line = false := by
  have noTokenRule : isTokenRule comment (trim line) = false := by
    rw [Bool.eq_false_iff]
    intro rule
    rw [isCommentRule_of_isTokenRule rule] at unruled
    exact absurd unruled (by decide)
  have noDecoration : isDecorativeRule (trim line) = false := by
    have begun : trimStart line = line := by
      obtain ⟨rest, rfl | rfl | rfl⟩ := isPinned_cases pinned <;> exact trimStart_cons _ (by decide)
    obtain ⟨white, split, -⟩ := exists_trimEnd_split line
    -- At most the `#` at the front is a decoration, which is too few for a rule.
    have short : (line.takeWhile isDecoration).length ≤ 1 := by
      obtain ⟨rest, rfl | rfl | rfl⟩ := isPinned_cases pinned <;> simp [isDecoration]
    have shorter : ((trim line).takeWhile isDecoration).length ≤ (line.takeWhile isDecoration).length := by
      rw [trim, begun]
      conv => rhs; rw [split, List.takeWhile_append]
      split
      · next whole =>
        rw [List.length_append, whole]
        exact Nat.le_add_right _ _
      · exact Nat.le_refl _
    rw [Bool.eq_false_iff]
    intro rule
    simp only [isDecorativeRule, Bool.and_eq_true, decide_eq_true_eq] at rule
    have long : 4 ≤ ((trim line).takeWhile isDecoration).length := rule.1
    omega
  simp [isSeparator, noDecoration, noTokenRule]

end Masthead.Header

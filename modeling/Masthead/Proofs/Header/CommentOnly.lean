import Mathlib.Data.Bool.AllAny
import Masthead.Config.Check
import Masthead.Proofs.Document.PhysicalLines
import Masthead.Proofs.Header.Access
import Masthead.Proofs.Header.Insertion
import Masthead.Proofs.Header.Written

/-!
# What an inserted header adds to a text

A line that is put into a document may be broken by the values that it was filled with, and what
stands behind a line feed is no comment of its own accord. So an inserted header adds only comments
exactly if its token holds no line feed and all that a broken line comes to is harmless by itself.
-/

namespace Masthead

open Text

namespace Text

/-- The first piece of a text begins as the text does, up to the first separator. -/
theorem exists_splitOn_begun {separator : Char} {begun : Text} (back : Text) (absent : separator ∉ begun) :
    ∃ more others, splitOn separator (begun ++ back) = (begun ++ more) :: others := by
  by_cases present : separator ∈ back
  · obtain ⟨more, rest, rfl, moreAbsent⟩ := List.eq_append_cons_of_mem present
    have whole : separator ∉ begun ++ more := by simp [absent, moreAbsent]
    exact ⟨more, _, by rw [← List.append_assoc, splitOn_append whole]⟩
  · have whole : separator ∉ begun ++ back := by simp [absent, present]
    exact ⟨back, [], splitOn_of_not_mem whole⟩

/-- Behind every separator a piece begins. -/
theorem exists_piece {separator : Char} {begun : Text} (front back : Text) (absent : separator ∉ begun) :
    ∃ more, begun ++ more ∈ splitOn separator (front ++ separator :: (begun ++ back)) := by
  obtain ⟨more, others, split⟩ := exists_splitOn_begun back absent
  refine ⟨more, ?_⟩
  rw [splitOn_eq] at split ⊢
  rw [List.splitOn_append_cons_self, split]
  exact List.mem_append_right _ List.mem_cons_self

end Text

namespace Template

/-- Every built-in header has a line on its author and one on the editor. -/
theorem exists_row_of_letter (style : HeaderStyle) : ∀ letter ∈ ['A', 'E'],
    ∃ line ∈ builtinHeader style, value "comment" ++ [' ', letter] <+: line :=
  List.all_iff_forall_prop.mp (by cases style <;> decide)

end Template

namespace Header

/-- Whether a physical line adds no code: it is blank, or names the interpreter, or begins with the comment token. -/
def IsHarmless (comment : Text) (interpreter : Option Text) (line : Text) : Prop :=
  isBlank line = true ∨ (∃ named, interpreter = some named ∧ (line = named ∨ line = named ++ ['\r'])) ∨
    startsWith comment line = true

variable {comment : Text} {interpreter : Option Text}

/-- A token with a line feed begins no physical line, so that only the interpreter's line may say anything. -/
theorem IsHarmless.exists_interpreter {text line front : Text} {letter : Char}
    (harmless : IsHarmless comment interpreter line) (broken : '\n' ∈ comment) (listed : line ∈ splitOn '\n' text)
    (visible : isWhite letter = false) (begun : front ++ [letter] <+: line) :
    ∃ named, interpreter = some named ∧ front ++ [letter] <+: named := by
  rcases harmless with blank | ⟨named, given, equal⟩ | commented
  · have member : letter ∈ line := begun.subset (by simp)
    rw [isBlank, List.all_eq_true] at blank
    rw [blank letter member] at visible
    cases visible
  · refine ⟨named, given, ?_⟩
    rcases equal with rfl | rfl
    · exact begun
    · refine (List.prefix_concat_iff.mp begun).resolve_left fun whole => ?_
      obtain ⟨-, returned⟩ := List.append_inj' whole rfl
      rw [List.cons.inj returned |>.1] at visible
      cases visible
  · exact absurd ((startsWith_iff.mp commented).subset broken) (not_mem_of_mem_splitOn listed)

namespace Engine

open Template

variable {engine : Engine} {config : Config} {context : FileContext} {document : Document} {position : Nat}
  {lines : List Text} {notice : Option Notice}

theorem isChange_of_eq_inserted {edit : Outcome} (inserted : edit = .inserted position lines notice) :
    edit.isChange = true := by
  rw [inserted]
  rfl

theorem of_insert_eq_inserted
    (inserted : engine.insert config context document = .inserted position lines notice) :
    BeginsVisibly (commentOf config context) ∧ position = (opening config context document.lines).1 ∧
      lines = (opening config context document.lines).2 ++ engine.render config context
        ++ spacing document.lines (opening config context document.lines).1 := by
  obtain ⟨-, ruled, equal⟩ := of_isChange_insert (isChange_of_eq_inserted inserted)
  obtain ⟨rule, -, isRule⟩ := List.any_eq_true.mp ruled
  rw [inserted] at equal
  cases equal
  exact ⟨beginsVisibly_of_isCommentRule isRule, rfl, rfl⟩

theorem position_le (inserted : engine.insert config context document = .inserted position lines notice) :
    position ≤ document.length := by
  have fits := fits_insert engine config context document
  rwa [inserted] at fits

/-- What is put into a document: lines for the top, blank lines, and lines that begin with the token. -/
theorem mem_inserted_cases (builtIn : engine.templates = .builtin)
    (inserted : engine.insert config context document = .inserted position lines notice) {line : Text}
    (member : line ∈ lines) :
    line = [] ∨ shebang? config context.language = some line ∧ line ∈ (opening config context document.lines).2 ∨
      commentOf config context <+: line := by
  obtain ⟨-, -, rfl⟩ := of_insert_eq_inserted inserted
  simp only [List.mem_append] at member
  rcases member with (member | member) | member
  · have above := member
    unfold opening at member
    split at member
    · exact .inl (List.mem_singleton.mp member)
    · exact .inr (.inl ⟨Option.mem_toList.mp member, above⟩)
  · rw [eq_builtin builtIn] at member
    exact .inr (.inr (comment_prefix_of_mem_render engine.now config context member))
  · unfold spacing at member
    split at member
    · exact .inl (List.mem_singleton.mp member)
    · cases member

/-- A line that is not broken adds no code. -/
theorem isHarmless_of_not_mem (builtIn : engine.templates = .builtin)
    (inserted : engine.insert config context document = .inserted position lines notice) {line tail : Text}
    (member : line ∈ lines) (isMark : document.ending.IsMark tail) :
    IsHarmless (commentOf config context) (shebang? config context.language) (line ++ tail) := by
  rcases mem_inserted_cases builtIn inserted member with rfl | ⟨named, -⟩ | begun
  · left
    rcases isMark with rfl | rfl
    · rfl
    · cases document.ending <;> rfl
  · refine .inr (.inl ⟨line, named, ?_⟩)
    rcases isMark with rfl | rfl
    · exact .inl (List.append_nil line)
    · cases document.ending with
      | lf => exact .inl (List.append_nil line)
      | crlf => exact .inr rfl
  · exact .inr (.inr (startsWith_iff.mpr (begun.trans (List.prefix_append line tail))))

/-- Of a broken line that begins with the token, the first piece does. -/
theorem isHarmless_head {comment : Text} (interpreter : Option Text) (absent : '\n' ∉ comment) {line : Text}
    (begun : comment <+: line) :
    ∃ first others, splitOn '\n' line = first :: others ∧ IsHarmless comment interpreter first := by
  obtain ⟨rest, rfl⟩ := begun
  obtain ⟨more, others, split⟩ := exists_splitOn_begun rest absent
  exact ⟨_, others, split, .inr (.inr (startsWith_iff.mpr (List.prefix_append _ _)))⟩

/-- The lines on author and editor, whatever the values are. -/
theorem exists_mem_render_of_letter (builtIn : engine.templates = .builtin) (config : Config) (context : FileContext) :
    ∀ letter ∈ ['A', 'E'], ∃ rest,
      commentOf config context ++ ([' ', letter] ++ rest) ∈ engine.render config context := by
  intro letter listed
  obtain ⟨template, inTemplate, rest, rfl⟩ := exists_row_of_letter config.headerStyle letter listed
  have plain : ∀ letter ∈ ['A', 'E'], '$' ∉ [' ', letter] :=
    List.all_iff_forall_prop.mp (by decide)
  rw [eq_builtin builtIn, render_builtin]
  refine ⟨((builtin engine.now).values config context).fill rest, List.mem_map.mpr ⟨_, inTemplate, ?_⟩⟩
  have row : value "comment" ++ [' ', letter] ++ rest = Template.row [[' ', letter], rest] := by
    simp [Template.row]
  rw [row, fill_row (values_comment _ config context)]
  simp only [List.flatten_cons, List.flatten_nil, List.append_nil, Variables.fill]
  rw [Placeholder.fill_plain_append _ _ (plain letter listed)]

/-- A token with a line feed leaves the fixed words of a header outside of the comment. -/
theorem not_mem_comment_of_isHarmless (builtIn : engine.templates = .builtin)
    (inserted : engine.insert config context document = .inserted position lines notice)
    (harmless : ∀ line ∈ (document.insertLines position lines).physicalLinesOf position lines.length,
      IsHarmless (commentOf config context) (shebang? config context.language) line) :
    '\n' ∉ commentOf config context := by
  intro broken
  have within := position_le inserted
  obtain ⟨-, -, linesEqual⟩ := of_insert_eq_inserted inserted
  obtain ⟨front, last, commentEqual, absent⟩ :
      ∃ front last, commentOf config context = front ++ '\n' :: last ∧ '\n' ∉ last := by
    obtain ⟨last, front, reversed, absent⟩ := List.eq_append_cons_of_mem (List.mem_reverse.mpr broken)
    refine ⟨front.reverse, last.reverse, ?_, by simpa using absent⟩
    rw [← List.reverse_reverse (commentOf config context), reversed]
    simp
  have shown : ∀ letter ∈ ['A', 'E'], isWhite letter = false ∧ letter ≠ '\n' :=
    List.all_iff_forall_prop.mp (by decide)
  have named : ∀ letter ∈ ['A', 'E'], ∃ named, shebang? config context.language = some named ∧
      (last ++ [' ']) ++ [letter] <+: named := by
    intro letter listed
    obtain ⟨rest, rendered⟩ := exists_mem_render_of_letter builtIn config context letter listed
    have member : commentOf config context ++ ([' ', letter] ++ rest) ∈ lines := by
      rw [linesEqual]
      exact List.mem_append_left _ (List.mem_append_right _ rendered)
    obtain ⟨tail, -, standing⟩ := Document.exists_mem_standing within member
    have begun : '\n' ∉ (last ++ [' ']) ++ [letter] := by
      simp [absent, Ne.symm (shown letter listed).2]
    obtain ⟨more, piece⟩ := exists_piece front (rest ++ tail) begun
    have split : front ++ '\n' :: (last ++ [' '] ++ [letter] ++ (rest ++ tail))
        = commentOf config context ++ ([' ', letter] ++ rest) ++ tail := by
      simp [commentEqual]
    rw [split] at piece
    exact (harmless _ (List.mem_flatMap.mpr ⟨_, standing, piece⟩)).exists_interpreter broken piece (shown letter listed).1
      (List.prefix_append _ _)
  obtain ⟨interpreter, given, author⟩ := named 'A' (by simp)
  obtain ⟨other, otherGiven, editor⟩ := named 'E' (by simp)
  rw [given, Option.some.injEq] at otherGiven
  subst otherGiven
  -- The interpreter's line cannot go on with two letters.
  have equal := (List.prefix_of_prefix_length_le author editor (by simp)).eq_of_length (by simp)
  have letters := List.append_cancel_left equal
  cases letters

/-- A broken line for the interpreter begins with the token if its first piece adds no code. -/
theorem startsWith_of_isHarmless {tail named : Text} (given : shebang? config context.language = some named)
    (broken : '\n' ∈ named)
    (harmless : ∀ line ∈ splitOn '\n' (named ++ tail),
      IsHarmless (commentOf config context) (shebang? config context.language) line) :
    startsWith (commentOf config context) named = true := by
  obtain ⟨piece, rest, split, absent⟩ := List.eq_append_cons_of_mem broken
  have listed : piece ∈ splitOn '\n' (named ++ tail) := by
    rw [split, List.append_assoc, List.cons_append, splitOn_append absent]
    exact List.mem_cons_self
  rcases harmless piece listed with blank | ⟨other, otherGiven, equal⟩ | begun
  · -- The line begins with two signs, neither of which is blank.
    obtain ⟨interpreter, -, namedEqual⟩ := Option.map_eq_some_iff.mp given
    cases piece with
    | nil => rw [split] at namedEqual; cases namedEqual
    | cons sign piece =>
      rw [split] at namedEqual
      have signEqual : '#' = sign := (List.cons.inj namedEqual).1
      rw [isBlank, List.all_cons, ← signEqual] at blank
      cases blank
  · rw [given, Option.some.injEq] at otherGiven
    subst otherGiven
    rcases equal with rfl | rfl
    · exact absurd broken absent
    · exact absurd (List.mem_append_left _ broken) absent
  · rw [startsWith_iff] at begun ⊢
    exact begun.trans (split ▸ List.prefix_append _ _)

/-- What a line stands as in the text is harmless, piece by piece, if what stands behind its line feeds is. -/
theorem isHarmless_of_tail (builtIn : engine.templates = .builtin)
    (inserted : engine.insert config context document = .inserted position lines notice)
    (absent : '\n' ∉ commentOf config context)
    (interpreter : ∀ named ∈ (opening config context document.lines).2, '\n' ∈ named →
      startsWith (commentOf config context) named = true) {standing : Text}
    (member : standing ∈ (document.insertLines position lines).standing position lines.length)
    (behind : ∀ line ∈ (splitOn '\n' standing).tail,
      IsHarmless (commentOf config context) (shebang? config context.language) line) :
    ∀ line ∈ splitOn '\n' standing, IsHarmless (commentOf config context) (shebang? config context.language) line := by
  obtain ⟨whole, listed, tail, isMark, rfl⟩ := Document.exists_of_mem_standing (position_le inserted) member
  by_cases broken : '\n' ∈ whole
  · -- A broken line begins with the token, and its other pieces are harmless by assumption.
    have begun : commentOf config context <+: whole := by
      rcases mem_inserted_cases builtIn inserted listed with rfl | ⟨-, above⟩ | begun
      · cases broken
      · exact startsWith_iff.mp (interpreter whole above broken)
      · exact begun
    obtain ⟨first, others, split, harmless⟩ := isHarmless_head (shebang? config context.language) absent
      (begun.trans (List.prefix_append whole tail))
    rw [split] at behind ⊢
    exact List.forall_mem_cons.mpr ⟨harmless, behind⟩
  · have unbroken : '\n' ∉ whole ++ tail := by
      rw [List.mem_append, not_or]
      exact ⟨broken, isMark.not_mem⟩
    intro line piece
    rw [splitOn_of_not_mem unbroken, List.mem_singleton] at piece
    exact piece ▸ isHarmless_of_not_mem builtIn inserted listed isMark

theorem isHarmless_iff (builtIn : engine.templates = .builtin)
    (inserted : engine.insert config context document = .inserted position lines notice) :
    (∀ line ∈ (document.insertLines position lines).physicalLinesOf position lines.length,
        IsHarmless (commentOf config context) (shebang? config context.language) line) ↔
      '\n' ∉ commentOf config context ∧
        (∀ named ∈ (opening config context document.lines).2, '\n' ∈ named →
          startsWith (commentOf config context) named = true) ∧
        ∀ standing ∈ (document.insertLines position lines).standing position lines.length,
          ∀ line ∈ (splitOn '\n' standing).tail,
            IsHarmless (commentOf config context) (shebang? config context.language) line := by
  have within := position_le inserted
  constructor
  · intro all
    refine ⟨not_mem_comment_of_isHarmless builtIn inserted all, ?_, ?_⟩
    · -- A line above the header that is broken is the one that names the interpreter.
      intro named above broken
      have listed : named ∈ lines := by
        obtain ⟨-, -, linesEqual⟩ := of_insert_eq_inserted inserted
        rw [linesEqual]
        exact List.mem_append_left _ (List.mem_append_left _ above)
      have given : shebang? config context.language = some named := by
        unfold opening at above
        split at above
        · rw [List.mem_singleton.mp above] at broken
          cases broken
        · exact Option.mem_toList.mp above
      obtain ⟨tail, -, standing⟩ := Document.exists_mem_standing within listed
      exact startsWith_of_isHarmless given broken fun line piece =>
        all line (List.mem_flatMap.mpr ⟨_, standing, piece⟩)
    · intro standing member line piece
      exact all line (List.mem_flatMap.mpr ⟨standing, member, List.mem_of_mem_tail piece⟩)
  · -- The first piece of a line that is put in is harmless by itself; the others are those behind its breaks.
    rintro ⟨absent, interpreter, behind⟩ line member
    obtain ⟨standing, listed, piece⟩ := List.mem_flatMap.mp member
    exact isHarmless_of_tail builtIn inserted absent interpreter listed (behind standing listed) line piece

theorem isHarmless_of_unbroken (builtIn : engine.templates = .builtin)
    (inserted : engine.insert config context document = .inserted position lines notice)
    (configUnbroken : ∀ text ∈ config.texts, Unbroken text) (contextUnbroken : ∀ text ∈ context.texts, Unbroken text) :
    ∀ line ∈ (document.insertLines position lines).physicalLinesOf position lines.length,
      IsHarmless (commentOf config context) (shebang? config context.language) line := by
  obtain ⟨visible, -, linesEqual⟩ := of_insert_eq_inserted inserted
  have unbroken : ∀ line ∈ lines, '\n' ∉ line := by
    intro line member
    simp only [linesEqual, List.mem_append] at member
    rcases member with (member | member) | member
    · exact (unbroken_opening configUnbroken _ line member).1
    · exact (isWritable_render builtIn configUnbroken contextUnbroken visible line member).1.1
    · unfold spacing at member
      split at member
      · rw [List.mem_singleton.mp member]
        decide
      · cases member
  intro line member
  obtain ⟨standing, listed, piece⟩ := List.mem_flatMap.mp member
  obtain ⟨whole, inLines, tail, isMark, rfl⟩ := Document.exists_of_mem_standing (position_le inserted) listed
  -- A line that is not broken stands in the text as a single line, with what ends it.
  have absent : '\n' ∉ whole ++ tail := by
    rw [List.mem_append, not_or]
    exact ⟨unbroken whole inLines, isMark.not_mem⟩
  rw [splitOn_of_not_mem absent, List.mem_singleton] at piece
  exact piece ▸ isHarmless_of_not_mem builtIn inserted inLines isMark

/-- An inserted header adds only comments exactly if its token is not broken, a broken line for the interpreter begins
with the token, and whatever stands behind a line feed within an inserted line is harmless by itself. Without line feeds
in the texts that the lines are made from this is always so. -/
theorem physicalLines_insert (builtIn : engine.templates = .builtin)
    (inserted : engine.insert config context document = .inserted position lines notice) :
    let after := document.insertLines position lines
    let harmless := IsHarmless (commentOf config context) (shebang? config context.language)
    (∃ above below, after.physicalLines = above ++ (after.physicalLinesOf position lines.length ++ below) ∧
        ((∃ text, document = .parse text) → document.physicalLines = above ++ below)) ∧
      ((∀ line ∈ after.physicalLinesOf position lines.length, harmless line) ↔
        '\n' ∉ commentOf config context ∧
          (∀ named ∈ (opening config context document.lines).2, '\n' ∈ named →
            startsWith (commentOf config context) named = true) ∧
          ∀ standing ∈ after.standing position lines.length, ∀ line ∈ (splitOn '\n' standing).tail, harmless line) ∧
      ((∀ text ∈ config.texts, Unbroken text) → (∀ text ∈ context.texts, Unbroken text) →
        ∀ line ∈ after.physicalLinesOf position lines.length, harmless line) := by
  intro after harmless
  obtain ⟨visible, positionEqual, linesEqual⟩ := of_insert_eq_inserted inserted
  refine ⟨?_, isHarmless_iff builtIn inserted, isHarmless_of_unbroken builtIn inserted⟩
  have nonempty : lines ≠ [] := by
    obtain ⟨rest, rendered⟩ := exists_mem_render_of_letter builtIn config context 'A' (by simp)
    rw [linesEqual]
    simp [List.ne_nil_of_mem rendered]
  obtain ⟨above, below, split, others⟩ := Document.physicalLines_insertLines (position_le inserted) nonempty
  refine ⟨above, below, split, others ?_⟩
  rw [positionEqual, opening]
  split
  · exact Nat.le_refl _
  · exact Nat.zero_le _

/-- Where lines end in a carriage return and a line feed, below the line of an interpreter. -/
theorem physicalLines_insert_below_interpreter :
    let config := { Config.default with shebangPerLanguage := [("rust", "/usr/bin/env run")] }
    let context := FileContext.ofPath "rust" "/work/src/main.rs"
    let document := Document.parse "fn main();\r\n"
    (builtin (0 : Int)).templates = .builtin ∧ ∃ lines,
      (builtin (0 : Int)).insert config context document = .inserted 0 lines none ∧
        ∀ line ∈ (document.insertLines 0 lines).physicalLinesOf 0 lines.length,
          IsHarmless (commentOf config context) (some "#!/usr/bin/env run") line := by
  intro config context document
  have ruled : isCommentRule (commentOf config context) (ruleLine config context) = true := by decide +kernel
  have absent : hasHeader config context document = false := by decide +kernel
  have inserted := insert_builtin (0 : Int) ruled absent
  have configUnbroken : ∀ text ∈ config.texts, Unbroken text := by decide +kernel
  have contextUnbroken : ∀ text ∈ context.texts, Unbroken text := by decide +kernel
  exact ⟨rfl, _, inserted, (physicalLines_insert rfl inserted).2.2 configUnbroken contextUnbroken⟩

/-- A statement of the license on two lines passes the checks of a configuration, and its second line is no comment. -/
theorem not_isHarmless_insert :
    let config :=
      { Config.default with licenseType := "Custom", customLicenseText := some "Free to read,\nnot to copy" }
    let context := FileContext.ofPath "rust" "/work/src/main.rs"
    let document := Document.parse "fn main();\n"
    config.fault? (0 : Int) = none ∧ ∃ lines,
      (builtin (0 : Int)).insert config context document = .inserted 0 lines none ∧
        ¬ ∀ line ∈ (document.insertLines 0 lines).physicalLinesOf 0 lines.length,
          IsHarmless (commentOf config context) (shebang? config context.language) line := by
  intro config context document
  have ruled : isCommentRule (commentOf config context) (ruleLine config context) = true := by decide +kernel
  have absent : hasHeader config context document = false := by decide +kernel
  have token : commentOf config context = ("//" : Text) := by decide +kernel
  refine ⟨by decide +kernel, _, insert_builtin (0 : Int) ruled absent, fun all => ?_⟩
  have listed : ("not to copy" : Text) ∈ (document.insertLines 0
      ((opening config context document.lines).2 ++ (builtin (0 : Int)).render config context
        ++ spacing document.lines 0)).physicalLinesOf 0
      ((opening config context document.lines).2 ++ (builtin (0 : Int)).render config context
        ++ spacing document.lines 0).length := by decide +kernel
  -- The line is not blank, there is no interpreter to be named, and the token does not begin it.
  rcases all _ listed with blank | ⟨named, given, -⟩ | begun
  · exact absurd blank (by decide)
  · cases given
  · rw [token] at begun
    exact absurd begun (by decide)

end Engine

end Header

end Masthead

import Mathlib.Data.List.Infix
import Masthead.Proofs.Document.PhysicalLines
import Masthead.Proofs.Header.CommentOnly

/-!
# The text with a header in it

Lines that are put into a document come to a piece of its text: each of them with the terminator that the text uses.
What stands before that piece and behind it is the text as it was, character for character, if the text uses one
terminator throughout and something stands behind the place. So a header changes nothing but the place where it is put.
-/

namespace Masthead

open Text

namespace Document

/-! ## Lines with their terminators -/

/-- Whether a text is some number of lines, each with its terminator. -/
def IsLines (count : Nat) (text : Text) : Prop :=
  text.count '\n' = count ∧ ∀ last ∈ text.getLast?, last = '\n'

theorem isLines_flatMap (ending : LineEnding) {rows : List Text} (unfed : ∀ row ∈ rows, '\n' ∉ row) :
    IsLines rows.length (rows.flatMap (· ++ ending.text)) := by
  have fed (row : Text) : (row ++ ending.text).getLast? = some '\n' := by
    cases ending <;> simp [LineEnding.text]
  constructor
  · -- Every row brings the one line feed of its terminator.
    have one : ending.text.count '\n' = 1 := by cases ending <;> rfl
    induction rows with
    | nil => rfl
    | cons row rows inductionHypothesis =>
      rw [List.flatMap_cons, List.count_append, List.count_append, one,
        List.count_eq_zero_of_not_mem (unfed row List.mem_cons_self),
        inductionHypothesis fun other member => unfed other (List.mem_cons_of_mem _ member), List.length_cons]
      omega
  · rcases List.eq_nil_or_concat rows with rfl | ⟨front, row, rfl⟩
    · intro last member
      cases member
    · rw [List.concat_eq_append, List.flatMap_append, List.flatMap_singleton, List.getLast?_append, fed]
      rintro last ⟨⟩
      rfl

/-- The terminator of a text that uses one throughout. -/
theorem ending_parse {text : Text} (used : UsesOneTerminator text) :
    (parse text).ending.text = if ['\r', '\n'] <:+: text then ['\r', '\n'] else ['\n'] := by
  have detected : (parse text).ending = LineEnding.detect text := rfl
  obtain ⟨ending, used⟩ := usesOneTerminator_iff.mp used
  by_cases present : '\n' ∈ text
  · rw [detected, LineEnding.detect_eq_of_usedThroughout used present]
    cases ending with
    | lf =>
      rw [if_neg, LineEnding.text]
      rintro ⟨before, after, rfl⟩
      have returned := (used (before ++ ['\r']) after (by simp)).mp (by simp)
      cases returned
    | crlf =>
      -- Before any line feed there is a carriage return.
      obtain ⟨before, after, equal⟩ := List.append_of_mem present
      obtain ⟨front, rfl⟩ := List.getLast?_eq_some_iff.mp ((used before after equal).mpr rfl)
      rw [if_pos ⟨front, after, by simp [equal]⟩, LineEnding.text]
  · rw [detected, LineEnding.detect_of_not_mem present, if_neg, LineEnding.text]
    exact fun inside => present (inside.subset (by simp))

/-- Lines that are put before some row of a text are put behind the lines above it, and nothing else changes. -/
theorem exists_split_insertLines {text : Text} (back : (parse text).toText = text) {position : Nat}
    (room : position < (parse text).rows.length) :
    ∃ above below, text = above ++ below ∧ IsLines position above ∧
      ∀ added, ((parse text).insertLines position added).toText
        = above ++ (added.flatMap (· ++ (parse text).ending.text) ++ below) := by
  have within : position ≤ (parse text).length := by
    rw [length_rows] at room
    have atMost := Bool.toNat_le (parse text).terminated
    exact Nat.le_of_lt_succ (Nat.lt_of_lt_of_le room (Nat.add_le_add_left atMost _))
  have rest : (parse text).rows.drop position ≠ [] := by simpa using room
  have unfed : ∀ row ∈ (parse text).rows.take position, '\n' ∉ row := by
    intro row member
    have listed := List.mem_of_mem_take member
    rw [rows_parse] at listed
    obtain ⟨piece, pieceListed, rfl⟩ := List.mem_map.mp listed
    exact not_mem_dropReturn (not_mem_of_mem_splitOn pieceListed)
  have isLines := isLines_flatMap (parse text).ending unfed
  rw [length_take_rows within] at isLines
  -- A row comes next, so that every row above the place has its terminator.
  refine ⟨_, joinWith (parse text).ending.text ((parse text).rows.drop position), ?_, isLines, ?_⟩
  · rw [← joinWith_append _ _ rest, List.take_append_drop, ← toText_eq, back]
  · intro added
    rw [toText_eq, rows_insertLines within, joinWith_append _ _ (by simp [rest]), joinWith_append _ _ rest]
    rfl

end Document

namespace Header.Engine

open Document

variable {engine : Engine} {config : Config} {context : FileContext} {document : Document} {position : Nat}
  {lines : List Text} {notice : Option Notice}

/-! ## The end of what is put in -/

/-- Whether the last of some lines is blank. -/
def EndsBlank (lines : List Text) : Prop :=
  ∃ last, lines.getLast? = some last ∧ isBlank last = true

theorem endsBlank_singleton_iff {line : Text} : EndsBlank [line] ↔ isBlank line = true := by
  simp [EndsBlank]

theorem endsBlank_append_iff {front back : List Text} (nonempty : back ≠ []) :
    EndsBlank (front ++ back) ↔ EndsBlank back := by
  unfold EndsBlank
  rw [List.getLast?_append, Option.or_of_isSome (by simpa using nonempty)]

/-- Whether a line that is not blank stands at a position. -/
def IsShown (lines : List Text) (position : Nat) : Prop :=
  ∃ next, lines[position]? = some next ∧ isBlank next = false

theorem spacing_of_isShown {position : Nat} (shown : IsShown document.lines position) :
    spacing document.lines position = [[]] := by
  obtain ⟨next, found, visible⟩ := shown
  rw [spacing, found, Option.any_some, visible]
  rfl

theorem spacing_of_not_isShown {position : Nat} (hidden : ¬ IsShown document.lines position) :
    spacing document.lines position = [] := by
  refine if_neg fun shown => hidden ?_
  obtain ⟨next, found, visible⟩ := (Option.any_eq_true _ _).mp shown
  exact ⟨next, found, by simpa using visible⟩

/-- What is put in ends with the blank line below the header, or else as the header does. -/
theorem endsBlank_insert_iff (inserted : engine.insert config context document = .inserted position lines notice) :
    EndsBlank lines ↔ IsShown document.lines position ∨ EndsBlank (engine.render config context) := by
  obtain ⟨-, positionEqual, linesEqual⟩ := of_insert_eq_inserted inserted
  rw [linesEqual, ← positionEqual]
  by_cases shown : IsShown document.lines position
  · rw [spacing_of_isShown shown, endsBlank_append_iff (List.cons_ne_nil _ _), endsBlank_singleton_iff]
    exact iff_of_true rfl (.inl shown)
  · -- Without a blank line below it the header stands last, and it has a rule.
    obtain ⟨-, ruled, -⟩ := of_isChange_insert (isChange_of_eq_inserted inserted)
    obtain ⟨rule, listed, -⟩ := List.any_eq_true.mp ruled
    rw [spacing_of_not_isShown shown, List.append_nil, endsBlank_append_iff (List.ne_nil_of_mem listed),
      or_iff_right shown]

/-- A built-in header ends in a rule. -/
theorem not_endsBlank_render (builtIn : engine.templates = .builtin)
    (visible : BeginsVisibly (commentOf config context)) : ¬ EndsBlank (engine.render config context) := by
  obtain ⟨inner, rendered, -⟩ := exists_render_inner engine.now config context
  obtain ⟨head, rest, token, headVisible⟩ := visible
  have member : head ∈ ruleLine config context := List.mem_append_left _ (token ▸ List.mem_cons_self)
  rw [eq_builtin builtIn, rendered, ← List.cons_append, endsBlank_append_iff (List.cons_ne_nil _ _),
    endsBlank_singleton_iff, isBlank_eq_false_of_mem member headVisible]
  exact Bool.false_ne_true

/-! ## The text with the header -/

/-- A header goes into a text between what stands above its place and the rest, each of its lines with the terminator of
the text. Its place is below a first line that stays the first, and else the top. Its last line is blank if a line that
is not blank comes next, and else only if the template ends so; no built-in template does. -/
theorem toText_insert {text : Text} (complete : text.getLast? ≠ some '\r') (used : UsesOneTerminator text)
    (inserted : engine.insert config context (parse text) = .inserted position lines notice)
    (room : position < (parse text).length ∨ text = [] ∨ text.getLast? = some '\n') :
    let terminator : Text := if ['\r', '\n'] <:+: text then ['\r', '\n'] else ['\n']
    (∃ above below, text = above ++ below ∧ IsLines position above ∧
        ((parse text).insertLines position lines).toText
          = above ++ (lines.flatMap (· ++ terminator) ++ below)) ∧
      position = (if (parse text).lines.head?.any isPinned then 1 else 0) ∧
      (EndsBlank lines ↔ IsShown (parse text).lines position ∨ EndsBlank (engine.render config context)) ∧
      (engine.templates = .builtin → (EndsBlank lines ↔ IsShown (parse text).lines position)) := by
  intro terminator
  obtain ⟨visible, positionEqual, -⟩ := of_insert_eq_inserted inserted
  have ends := endsBlank_insert_iff inserted
  refine ⟨?_, ?_, ends, fun builtIn => ends.trans (or_iff_left (not_endsBlank_render builtIn visible))⟩
  · -- Behind a terminator at the end there is an empty row, and the empty text is such a row.
    have rowed : position < (parse text).rows.length := by
      rw [length_rows]
      rcases room with below | closed
      · exact Nat.lt_add_right _ below
      · have terminated : (parse text).terminated = true := by simpa [parse] using closed
        rw [terminated]
        exact Nat.lt_succ_of_le (position_le inserted)
    obtain ⟨above, below, split, isLines, others⟩ := exists_split_insertLines
      (toText_parse_eq_iff.mpr ⟨complete, usesOneTerminator_iff.mp used⟩) rowed
    exact ⟨above, below, split, isLines, by rw [others, ending_parse used]⟩
  · rw [positionEqual, opening]
    split <;> rfl

/-- Below the line of an interpreter, in a text that uses the longer terminator and does not end in one. -/
theorem toText_insert_below_pinned :
    let text : Text := "#!/bin/sh\r\nfn main();"
    let context := FileContext.ofPath "rust" "/work/src/main.rs"
    text.getLast? ≠ some '\r' ∧ UsesOneTerminator text ∧ 1 < (parse text).length ∧ ∃ lines,
      (builtin (0 : Int)).insert Config.default context (parse text) = .inserted 1 lines none ∧ EndsBlank lines ∧
        ∃ above below, text = above ++ below ∧ IsLines 1 above ∧
          ((parse text).insertLines 1 lines).toText = above ++ (lines.flatMap (· ++ ['\r', '\n']) ++ below) := by
  intro text context
  have back : (parse text).toText = text := by decide +kernel
  obtain ⟨complete, used⟩ := toText_parse_eq_iff.mp back
  have oneTerminator := usesOneTerminator_iff.mpr used
  have room : 1 < (parse text).length := by decide +kernel
  have ruled : isCommentRule (commentOf Config.default context) (ruleLine Config.default context) = true := by
    decide +kernel
  have absent : hasHeader Config.default context (parse text) = false := by decide +kernel
  have below : (opening Config.default context (parse text).lines).1 = 1 := by decide +kernel
  have inserted := insert_builtin (0 : Int) ruled absent
  rw [below] at inserted
  have shown : IsShown (parse text).lines 1 := ⟨"fn main();", by decide +kernel, by decide +kernel⟩
  have longer : ['\r', '\n'] <:+: text := ⟨"#!/bin/sh", "fn main();", rfl⟩
  obtain ⟨pieces, -, -, ends⟩ := toText_insert complete oneTerminator inserted (.inl room)
  rw [if_pos longer] at pieces
  exact ⟨complete, oneTerminator, room, _, inserted, (ends rfl).mpr shown, pieces⟩

/-- A template may end in a blank line, which then stands above another. -/
theorem endsBlank_insert_of_template :
    let templates : TemplateSet := ⟨[("standard", ["$\x7bcomment\x7d$\x7bseparator\x7d", ""])], [], []⟩
    let engine : Engine := ⟨templates, (0 : Int)⟩
    let context := FileContext.ofPath "rust" "/work/src/main.rs"
    let text : Text := "\nfn main();\n"
    text.getLast? ≠ some '\r' ∧ UsesOneTerminator text ∧ 0 < (parse text).length ∧ ∃ lines,
      engine.insert Config.default context (parse text) = .inserted 0 lines none ∧ (∀ line ∈ lines, IsRow line) ∧
        EndsBlank lines ∧ ¬ IsShown (parse text).lines 0 := by
  intro templates engine context text
  have back : (parse text).toText = text := by decide
  obtain ⟨complete, used⟩ := toText_parse_eq_iff.mp back
  let signs : Text := List.replicate 68 '-'
  have inserted : engine.insert Config.default context (parse text) = .inserted 0 ["//".toList ++ signs, []] none := by
    decide +kernel
  refine ⟨complete, usesOneTerminator_iff.mpr used, by decide, _, inserted, by decide +kernel, ⟨[], rfl, rfl⟩, ?_⟩
  rintro ⟨next, found, visible⟩
  have blank : (parse text).lines[0]? = some [] := by decide
  rw [blank] at found
  cases found
  cases visible

end Header.Engine

end Masthead

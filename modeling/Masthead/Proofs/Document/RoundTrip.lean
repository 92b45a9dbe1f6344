import Masthead.Document
import Masthead.Proofs.Text.Split
import Masthead.Proofs.Text.Unbroken

/-!
# Reading a text and writing it back

A text is its rows with terminators between them, where the last row of a terminated document is
empty. Reading takes one carriage return off every row, and writing puts one and the same terminator
between all of them. So a text comes back unchanged exactly if it uses one terminator throughout, and
lines come back unchanged exactly if the last one is terminated or shows. A document comes back as a
whole if no line holds a part of a terminator and its text shows how its lines are terminated.
-/

namespace Masthead

open Text

namespace LineEnding

/-! ## The terminator of a text -/

theorem detectAfter_cons {character : Char} (before : Option Char) (rest : Text) (inner : character ≠ '\n') :
    detectAfter before (character :: rest) = detectAfter (some character) rest := by
  rw [detectAfter]
  exact inner

theorem detectAfter_of_not_mem {text : Text} (before : Option Char) (absent : '\n' ∉ text) :
    detectAfter before text = lf := by
  induction text generalizing before with
  | nil => rfl
  | cons character rest inductionHypothesis =>
    rw [List.mem_cons, not_or] at absent
    rw [detectAfter_cons _ _ (Ne.symm absent.1), inductionHypothesis _ absent.2]

theorem detectAfter_append {piece : Text} (before : Option Char) (absent : '\n' ∉ piece) (rest : Text) :
    detectAfter before (piece ++ '\n' :: rest) = if piece.getLast?.or before = some '\r' then crlf else lf := by
  induction piece generalizing before with
  | nil => rfl
  | cons character piece inductionHypothesis =>
    rw [List.mem_cons, not_or] at absent
    rw [List.cons_append, detectAfter_cons _ _ (Ne.symm absent.1), inductionHypothesis _ absent.2, List.getLast?_cons]
    cases piece.getLast? <;> rfl

theorem detect_of_not_mem {text : Text} (absent : '\n' ∉ text) : detect text = lf :=
  detectAfter_of_not_mem none absent

theorem detect_append {piece : Text} (absent : '\n' ∉ piece) (rest : Text) :
    detect (piece ++ '\n' :: rest) = if piece.getLast? = some '\r' then crlf else lf := by
  rw [detect, detectAfter_append none absent, Option.or_none]

/-- Whether every line feed of a text belongs to this terminator. -/
def UsedThroughout (ending : LineEnding) (text : Text) : Prop :=
  ∀ before after, text = before ++ '\n' :: after → (before.getLast? = some '\r' ↔ ending = .crlf)

theorem usedThroughout_of_not_mem (ending : LineEnding) {text : Text} (absent : '\n' ∉ text) :
    ending.UsedThroughout text := by
  rintro before after rfl
  exact absurd (List.mem_append_right before List.mem_cons_self) absent

/-- Behind a line feed no carriage return is left over from before. -/
theorem getLast?_append_feed (piece : Text) (before : Text) :
    (piece ++ '\n' :: before).getLast? = some '\r' ↔ before.getLast? = some '\r' := by
  rw [List.getLast?_append, List.getLast?_cons]
  cases before.getLast? <;> simp

theorem usedThroughout_append_iff {ending : LineEnding} {piece rest : Text} (absent : '\n' ∉ piece) :
    ending.UsedThroughout (piece ++ '\n' :: rest) ↔
      (piece.getLast? = some '\r' ↔ ending = .crlf) ∧ ending.UsedThroughout rest := by
  constructor
  · intro used
    refine ⟨used piece rest rfl, ?_⟩
    rintro before after rfl
    rw [← used (piece ++ '\n' :: before) after (by simp), getLast?_append_feed]
  · rintro ⟨first, others⟩ before after equal
    -- The line feed is the one behind the piece, or lies in what follows it.
    rcases List.append_eq_append_iff.mp equal with ⟨middle, rfl, behind⟩ | ⟨middle, rfl, behind⟩
    · cases middle with
      | nil => rwa [List.append_nil]
      | cons character middle =>
        obtain ⟨rfl, rfl⟩ := List.cons.inj behind
        rw [getLast?_append_feed]
        exact others middle after rfl
    · cases middle with
      | nil => rwa [List.append_nil] at first
      | cons character middle =>
        -- This line feed would lie within the piece.
        obtain ⟨rfl, -⟩ := List.cons.inj behind
        exact absurd (by simp) absent

theorem detect_eq_of_usedThroughout {ending : LineEnding} {text : Text} (used : ending.UsedThroughout text)
    (present : '\n' ∈ text) : detect text = ending := by
  obtain ⟨piece, rest, rfl, absent⟩ := List.eq_append_cons_of_mem present
  rw [detect_append absent]
  cases ending with
  | lf => exact if_neg fun returned => nomatch (used piece rest rfl).mp returned
  | crlf => exact if_pos ((used piece rest rfl).mpr rfl)

end LineEnding

namespace Document

/-! ## Rows -/

/-- The lines, and the empty row behind the last terminator. -/
def rows (document : Document) : List Text :=
  document.lines ++ if document.terminated then [[]] else []

theorem length_rows (document : Document) : document.rows.length = document.lines.length + document.terminated.toNat := by
  rw [rows, List.length_append]
  cases document.terminated <;> rfl

theorem joinWith_append_nil (separator : Text) {lines : List Text} (nonempty : lines ≠ []) :
    joinWith separator (lines ++ [[]]) = joinWith separator lines ++ separator := by
  induction lines with
  | nil => exact absurd rfl nonempty
  | cons line rest inductionHypothesis =>
    rw [List.cons_append, joinWith_cons _ _ (by simp)]
    by_cases more : rest = []
    · rw [more]
      simp [joinWith]
    · rw [inductionHypothesis more, joinWith_cons _ _ more]
      simp only [List.append_assoc]

theorem toText_eq (document : Document) :
    document.toText = joinWith document.ending.text document.rows := by
  obtain ⟨lines, ending, terminated⟩ := document
  cases terminated with
  | false => simp [toText, rows]
  | true =>
    by_cases nonempty : lines = []
    · rw [nonempty]
      rfl
    · simp [toText, rows, nonempty, joinWith_append_nil]

theorem rows_parse (text : Text) : (parse text).rows = (splitOn '\n' text).map dropReturn := by
  rcases List.eq_nil_or_concat text with rfl | ⟨front, last, rfl⟩
  · rfl
  · rw [List.concat_eq_append]
    by_cases fed : last = '\n'
    · -- The row behind the last line feed is empty.
      have split : splitOn '\n' (front ++ ['\n']) = splitOn '\n' front ++ [[]] := by
        simp only [splitOn_eq, List.splitOn_append_cons_self, List.splitOn_nil]
      subst fed
      simp [rows, parse, dropFeed, split]
      rfl
    · simp [rows, parse, dropFeed, fed]

/-- What is written when a text has been read: the same rows, with the text's first terminator. -/
theorem toText_parse (text : Text) :
    (parse text).toText = joinWith (LineEnding.detect text).text ((splitOn '\n' text).map dropReturn) := by
  rw [toText_eq, rows_parse]
  rfl

/-! ## Texts that come back -/

theorem dropReturn_eq_iff {line : Text} : dropReturn line = line ↔ line.getLast? ≠ some '\r' := by
  rcases List.eq_nil_or_concat line with rfl | ⟨front, last, rfl⟩
  · simp [dropReturn]
  · by_cases returned : last = '\r' <;> simp [dropReturn, returned]

theorem not_mem_dropReturn {line : Text} {character : Char} (absent : character ∉ line) :
    character ∉ dropReturn line := by
  unfold dropReturn
  split
  · exact fun member => absent (List.dropLast_subset line member)
  · exact absent

/-- Putting the terminator back behind a piece gives the piece with its line feed exactly if the piece
had the rest of this terminator. -/
theorem dropReturn_append_iff {ending : LineEnding} {piece other rest : Text} :
    dropReturn piece ++ (ending.text ++ other) = piece ++ '\n' :: rest ↔
      (piece.getLast? = some '\r' ↔ ending = .crlf) ∧ other = rest := by
  by_cases returned : piece.getLast? = some '\r'
  · obtain ⟨front, rfl⟩ := List.getLast?_eq_some_iff.mp returned
    cases ending <;> simp [dropReturn, LineEnding.text]
  · rw [dropReturn_eq_iff.mpr returned]
    cases ending <;> simp [returned, LineEnding.text]

theorem joinWith_splitOn_eq_iff {ending : LineEnding} {text : Text} :
    joinWith ending.text ((splitOn '\n' text).map dropReturn) = text ↔
      text.getLast? ≠ some '\r' ∧ ending.UsedThroughout text := by
  induction text using pieceInduction '\n' with
  | last piece absent =>
    rw [splitOn_of_not_mem absent, List.map_singleton, joinWith, dropReturn_eq_iff,
      and_iff_left (ending.usedThroughout_of_not_mem absent)]
  | more piece rest absent inductionHypothesis =>
    have nonempty : (splitOn '\n' rest).map dropReturn ≠ [] := by simp [splitOn_ne_nil]
    rw [splitOn_append absent, List.map_cons, joinWith_cons _ _ nonempty, dropReturn_append_iff,
      inductionHypothesis, LineEnding.usedThroughout_append_iff absent, ne_eq, ne_eq, LineEnding.getLast?_append_feed,
      and_left_comm]

/-- A text comes back exactly if no carriage return is left at its end and all its line feeds belong to
one terminator. -/
theorem toText_parse_eq_iff {text : Text} :
    (parse text).toText = text ↔ text.getLast? ≠ some '\r' ∧ ∃ ending : LineEnding, ending.UsedThroughout text := by
  rw [toText_parse, joinWith_splitOn_eq_iff]
  refine and_congr_right fun _ => ⟨fun used => ⟨_, used⟩, ?_⟩
  rintro ⟨ending, used⟩
  by_cases present : '\n' ∈ text
  · rwa [LineEnding.detect_eq_of_usedThroughout used present]
  · exact LineEnding.usedThroughout_of_not_mem _ present

/-! ## Rows that come back -/

/-- A line that comes back from between terminators: it holds no line feed and ends in no carriage return. -/
def IsRow (line : Text) : Prop :=
  '\n' ∉ line ∧ line.getLast? ≠ some '\r'

instance (line : Text) : Decidable (IsRow line) :=
  inferInstanceAs (Decidable ('\n' ∉ line ∧ line.getLast? ≠ some '\r'))

theorem IsRow.dropReturn_eq {line : Text} (isRow : IsRow line) : dropReturn line = line :=
  dropReturn_eq_iff.mpr isRow.2

/-- A row with the terminator behind it, cut at the line feed. -/
theorem exists_terminated_piece (ending : LineEnding) {row : Text} (isRow : IsRow row) :
    ∃ piece, '\n' ∉ piece ∧ dropReturn piece = row ∧ (piece.getLast? = some '\r' ↔ ending = .crlf) ∧
      ∀ rest, row ++ (ending.text ++ rest) = piece ++ '\n' :: rest := by
  cases ending with
  | lf => exact ⟨row, isRow.1, isRow.dropReturn_eq, by simp [isRow.2], fun rest => rfl⟩
  | crlf => exact ⟨row ++ ['\r'], by simp [isRow.1], by simp [dropReturn], by simp, by simp [LineEnding.text]⟩

/-- Rows are found again between the terminators. -/
theorem map_dropReturn_splitOn {ending : LineEnding} {rows : List Text} (nonempty : rows ≠ [])
    (areRows : ∀ row ∈ rows, IsRow row) :
    (splitOn '\n' (joinWith ending.text rows)).map dropReturn = rows := by
  induction rows with
  | nil => exact absurd rfl nonempty
  | cons row rest inductionHypothesis =>
    have isRow := areRows row List.mem_cons_self
    by_cases more : rest = []
    · rw [more, joinWith, splitOn_of_not_mem isRow.1, List.map_singleton, isRow.dropReturn_eq]
    · obtain ⟨piece, absent, dropped, -, terminated⟩ := exists_terminated_piece ending isRow
      rw [joinWith_cons _ _ more, terminated, splitOn_append absent, List.map_cons, dropped,
        inductionHypothesis more fun other member => areRows other (List.mem_cons_of_mem _ member)]

theorem detect_joinWith {ending : LineEnding} {rows : List Text} (areRows : ∀ row ∈ rows, IsRow row)
    (detectable : ending = .crlf → 1 < rows.length) :
    LineEnding.detect (joinWith ending.text rows) = ending := by
  have single {row : Text} (isRow : IsRow row) (short : ending ≠ .crlf) : LineEnding.detect row = ending := by
    rw [LineEnding.detect_of_not_mem isRow.1]
    cases ending with
    | lf => rfl
    | crlf => exact absurd rfl short
  -- With one row there is no terminator to be seen, and the text counts as using line feeds.
  match rows with
  | [] =>
    have nothing : IsRow [] := by decide
    exact single nothing fun equal => absurd (detectable equal) (by simp)
  | [row] => exact single (areRows row List.mem_cons_self) fun equal => absurd (detectable equal) (by simp)
  | row :: second :: rest =>
    obtain ⟨piece, absent, -, returned, terminated⟩ := exists_terminated_piece ending (areRows row List.mem_cons_self)
    rw [joinWith_cons _ _ (List.cons_ne_nil _ _), terminated, LineEnding.detect_append absent]
    cases ending with
    | lf => exact if_neg fun found => nomatch returned.mp found
    | crlf => exact if_pos (returned.mpr rfl)

theorem getLast?_joinWith (separator : Text) (front : List Text) {last : Text} (nonempty : last ≠ []) :
    (joinWith separator (front ++ [last])).getLast? = last.getLast? := by
  induction front with
  | nil => rfl
  | cons first front inductionHypothesis =>
    obtain ⟨character, ends⟩ := Option.isSome_iff_exists.mp (List.getLast?_isSome.mpr nonempty)
    rw [List.cons_append, joinWith_cons _ _ (by simp), List.getLast?_append, List.getLast?_append,
      inductionHypothesis, ends]
    rfl

/-- The text of some rows counts as terminated exactly if the last row is empty. -/
theorem terminated_parse_joinWith (ending : LineEnding) (front : List Text) {last : Text} (isRow : IsRow last) :
    (parse (joinWith ending.text (front ++ [last]))).terminated = decide (last = []) := by
  by_cases empty : last = []
  · subst empty
    by_cases single : front = []
    · subst single
      rfl
    · rw [joinWith_append_nil _ single]
      cases ending <;> simp [parse, LineEnding.text]
  · -- The text ends in the last row, which shows and holds no line feed.
    have joined := getLast?_joinWith ending.text front empty
    have fed : last.getLast? ≠ some '\n' := fun found => isRow.1 (List.mem_of_getLast? found)
    have shown : joinWith ending.text (front ++ [last]) ≠ [] := by
      intro nothing
      rw [nothing] at joined
      exact empty (List.getLast?_eq_none_iff.mp joined.symm)
    simp [parse, joined, fed, shown, empty]

/-- The rows of a text are its lines, but for an empty one at the end. -/
theorem lines_parse_joinWith (ending : LineEnding) {front : List Text} {last : Text}
    (areRows : ∀ row ∈ front ++ [last], IsRow row) :
    (parse (joinWith ending.text (front ++ [last]))).lines = if last = [] then front else front ++ [last] := by
  have sameRows : (parse (joinWith ending.text (front ++ [last]))).rows = front ++ [last] := by
    rw [rows_parse, map_dropReturn_splitOn (by simp) areRows]
  rw [rows, terminated_parse_joinWith ending front (areRows last (by simp))] at sameRows
  split
  · next empty =>
    rw [empty, decide_eq_true rfl, if_pos rfl] at sameRows
    rw [empty]
    exact List.append_cancel_right sameRows
  · next shown =>
    rwa [decide_eq_false shown, if_neg (by decide), List.append_nil] at sameRows

/-! ## Documents that come back -/

/-- Whether there is a last line that shows without a terminator behind it. -/
def EndsShown (lines : List Text) : Prop :=
  ∃ last, lines.getLast? = some last ∧ last ≠ []

theorem isRow_rows {document : Document} (areRows : ∀ line ∈ document.lines, IsRow line) :
    ∀ row ∈ document.rows, IsRow row := by
  intro row member
  rw [rows, List.mem_append] at member
  rcases member with member | member
  · exact areRows row member
  · split at member
    · rw [List.mem_singleton.mp member]
      decide
    · cases member

/-- Lines are lost only where the last one is empty and no terminator stands behind it. -/
theorem lines_parse_toText_iff {document : Document} (areRows : ∀ line ∈ document.lines, IsRow line) :
    (parse document.toText).lines = document.lines ↔
      document.lines = [] ∨ document.terminated = true ∨ EndsShown document.lines := by
  cases terminated : document.terminated with
  | true =>
    -- The empty row at the end is the one behind the last terminator.
    have rowsEqual : document.rows = document.lines ++ [[]] := by rw [rows, if_pos terminated]
    rw [toText_eq, rowsEqual, lines_parse_joinWith _ (rowsEqual ▸ isRow_rows areRows), if_pos rfl]
    simp
  | false =>
    have rowsEqual : document.rows = document.lines := by simp [rows, terminated]
    rw [toText_eq, rowsEqual]
    rcases List.eq_nil_or_concat document.lines with none | ⟨front, last, linesEqual⟩
    · rw [none]
      simp [joinWith, parse]
    · rw [List.concat_eq_append] at linesEqual
      rw [linesEqual] at areRows ⊢
      rw [lines_parse_joinWith _ areRows, EndsShown]
      by_cases empty : last = [] <;> simp [empty]

/-- Whether all line feeds of a text have a carriage return before them, or none has. -/
def UsesOneTerminator (text : Text) : Prop :=
  (∀ before after, text = before ++ '\n' :: after → before.getLast? = some '\r') ∨
    ∀ before after, text = before ++ '\n' :: after → before.getLast? ≠ some '\r'

theorem usesOneTerminator_iff {text : Text} :
    UsesOneTerminator text ↔ ∃ ending : LineEnding, ending.UsedThroughout text := by
  constructor
  · rintro (returned | unreturned)
    · exact ⟨.crlf, fun before after equal => by simp [returned before after equal]⟩
    · exact ⟨.lf, fun before after equal => by simp [unreturned before after equal]⟩
  · rintro ⟨ending, used⟩
    cases ending with
    | lf => exact .inr fun before after equal => by simp [used before after equal]
    | crlf => exact .inl fun before after equal => by simp [used before after equal]

/-- Reading and writing undo each other: a text comes back exactly if it uses one terminator and ends in no carriage
return, and lines come back exactly if they are terminated or their last one shows. -/
theorem parse_toText_inverse :
    (∀ text : Text, (parse text).toText = text ↔ text.getLast? ≠ some '\r' ∧ UsesOneTerminator text) ∧
      ∀ document : Document, (∀ line ∈ document.lines, IsRow line) →
        ((parse document.toText).lines = document.lines ↔
          document.lines = [] ∨ document.terminated = true ∨ EndsShown document.lines) :=
  ⟨fun _ => by rw [usesOneTerminator_iff, toText_parse_eq_iff], fun _ => lines_parse_toText_iff⟩

/-- A carriage return within a line, and an empty last line that is terminated. -/
theorem parse_toText_inverse_terminated :
    let document : Document := ⟨["a\rb", []], .crlf, true⟩
    (∀ line ∈ document.lines, IsRow line) ∧ (parse document.toText).lines = document.lines := by
  intro document
  have areRows : ∀ line ∈ document.lines, IsRow line := by decide
  exact ⟨areRows, (parse_toText_inverse.2 document areRows).mpr (.inr (.inl rfl))⟩

end Document

theorem Unbroken.isRow {line : Text} (unbroken : Unbroken line) : Document.IsRow line :=
  ⟨unbroken.1, fun returned => unbroken.2 (List.mem_of_getLast? returned)⟩

namespace Document

/-- What makes a document the one that is read from its own text. -/
structure WellFormed (document : Document) : Prop where
  unbroken : ∀ line ∈ document.lines, Unbroken line
  ended : document.terminated = false → EndsShown document.lines
  /-- There is a terminator, if it is not the one that every text without any counts as using. -/
  detectable : document.ending = .crlf → 1 < document.rows.length

theorem WellFormed.isRow {document : Document} (wellFormed : document.WellFormed) :
    ∀ line ∈ document.lines, IsRow line :=
  fun line member => (wellFormed.unbroken line member).isRow

theorem WellFormed.exists_rows {document : Document} (wellFormed : document.WellFormed) :
    ∃ front last, document.rows = front ++ [last] ∧ document.terminated = decide (last = []) := by
  cases terminated : document.terminated with
  | true => exact ⟨document.lines, [], by rw [rows, if_pos terminated], by simp⟩
  | false =>
    obtain ⟨last, ended, shown⟩ := wellFormed.ended terminated
    obtain ⟨front, linesEqual⟩ := List.getLast?_eq_some_iff.mp ended
    exact ⟨front, last, by simp [rows, terminated, linesEqual], by simp [shown]⟩

/-- Such a document is read from its own text. -/
theorem parse_toText {document : Document} (wellFormed : document.WellFormed) : parse document.toText = document := by
  obtain ⟨front, last, rowsEqual, ended⟩ := wellFormed.exists_rows
  have areRows := isRow_rows wellFormed.isRow
  have sameEnd : (parse document.toText).terminated = document.terminated := by
    rw [toText_eq, rowsEqual, terminated_parse_joinWith _ _ (areRows last (by simp [rowsEqual])), ended]
  have sameEnding : (parse document.toText).ending = document.ending := by
    rw [toText_eq]
    exact detect_joinWith areRows wellFormed.detectable
  -- A terminator at the end is what tells the last line from an empty one behind it.
  have sameLines : (parse document.toText).lines = document.lines := by
    refine (lines_parse_toText_iff wellFormed.isRow).mpr (.inr ?_)
    cases terminated : document.terminated with
    | true => exact .inl rfl
    | false => exact .inr (wellFormed.ended terminated)
  calc parse document.toText
      = ⟨(parse document.toText).lines, (parse document.toText).ending, (parse document.toText).terminated⟩ := rfl
    _ = document := by rw [sameLines, sameEnding, sameEnd]

/-! ## Texts without stray returns -/

/-- Whether every carriage return of a text has a line feed directly behind it. -/
def ReturnsFed (text : Text) : Prop :=
  ∀ before after, text = before ++ '\r' :: after → after.head? = some '\n'

theorem returnsFed_nil : ReturnsFed [] :=
  fun _ _ equal => absurd equal.symm (by simp)

theorem returnsFed_cons_iff {character : Char} {rest : Text} :
    ReturnsFed (character :: rest) ↔ (character = '\r' → rest.head? = some '\n') ∧ ReturnsFed rest := by
  constructor
  · intro fed
    constructor
    · rintro rfl
      exact fed [] rest rfl
    · rintro before after rfl
      exact fed (character :: before) after rfl
  · rintro ⟨here, later⟩ before after equal
    cases before with
    | nil =>
      cases equal
      exact here rfl
    | cons first before => exact later before after (List.cons.inj equal).2

instance decidableReturnsFed : (text : Text) → Decidable (ReturnsFed text)
  | [] => isTrue returnsFed_nil
  | _ :: rest =>
    have := decidableReturnsFed rest
    decidable_of_iff _ returnsFed_cons_iff.symm

theorem ReturnsFed.getLast?_ne {text : Text} (fed : ReturnsFed text) : text.getLast? ≠ some '\r' := by
  intro returned
  obtain ⟨front, rfl⟩ := List.getLast?_eq_some_iff.mp returned
  exact nomatch fed front [] rfl

theorem ReturnsFed.of_append {piece rest : Text} (fed : ReturnsFed (piece ++ '\n' :: rest)) : ReturnsFed rest := by
  rintro before after rfl
  exact fed (piece ++ '\n' :: before) after (by simp)

/-- A line feed is the only thing that can stand behind a return, so a piece ends in its return. -/
theorem ReturnsFed.eq_nil_of_piece {before after rest : Text}
    (fed : ReturnsFed (before ++ '\r' :: after ++ '\n' :: rest)) (absent : '\n' ∉ after) : after = [] := by
  have behind := fed before (after ++ '\n' :: rest) (by simp)
  cases after with
  | nil => rfl
  | cons character after =>
    cases behind
    exact absurd List.mem_cons_self absent

theorem ReturnsFed.not_mem_dropReturn {piece rest : Text} (fed : ReturnsFed (piece ++ '\n' :: rest))
    (absent : '\n' ∉ piece) : '\r' ∉ dropReturn piece := by
  intro member
  obtain ⟨before, after, split⟩ := List.append_of_mem member
  by_cases returned : piece.getLast? = some '\r'
  · obtain ⟨front, rfl⟩ := List.getLast?_eq_some_iff.mp returned
    obtain rfl : front = before ++ '\r' :: after := by simpa [dropReturn] using split
    -- The return at the end stands behind this one.
    have regrouped : before ++ '\r' :: after ++ ['\r'] = before ++ '\r' :: (after ++ ['\r']) := by simp
    rw [regrouped] at fed absent
    have ended := fed.eq_nil_of_piece fun member => absent (List.mem_append_right _ (List.mem_cons_of_mem _ member))
    exact absurd ended (by simp)
  · rw [dropReturn_eq_iff.mpr returned] at split
    subst split
    have ended := fed.eq_nil_of_piece fun member => absent (by simp [member])
    rw [ended] at returned
    exact returned List.getLast?_concat

theorem ReturnsFed.unbroken_rows {text : Text} (fed : ReturnsFed text) :
    ∀ row ∈ (splitOn '\n' text).map dropReturn, Unbroken row := by
  induction text using pieceInduction '\n' with
  | last piece absent =>
    -- A carriage return in the last piece would have a line feed behind it, which ends a piece.
    have unreturned : '\r' ∉ piece := by
      intro member
      obtain ⟨before, after, rfl⟩ := List.append_of_mem member
      have behind := List.mem_of_head? (fed before after rfl)
      exact absent (by simp [behind])
    have unbroken : Unbroken piece := ⟨absent, unreturned⟩
    rw [splitOn_of_not_mem absent, List.map_singleton, unbroken.isRow.dropReturn_eq]
    intro row member
    rwa [List.mem_singleton.mp member]
  | more piece rest absent inductionHypothesis =>
    rw [splitOn_append absent, List.map_cons]
    intro row member
    rcases List.mem_cons.mp member with rfl | member
    · exact ⟨Document.not_mem_dropReturn absent, fed.not_mem_dropReturn absent⟩
    · exact inductionHypothesis fed.of_append row member

/-- A text that ends in no line feed ends in its last piece. -/
theorem exists_last_piece {text : Text} (nonempty : text ≠ []) (unfed : text.getLast? ≠ some '\n') :
    ∃ front last, splitOn '\n' text = front ++ [last] ∧ last ≠ [] ∧ last.getLast? = text.getLast? := by
  have joined : joinWith ['\n'] (splitOn '\n' text) = text := by
    rw [joinWith_eq, splitOn_eq, List.intercalate_splitOn]
  rcases List.eq_nil_or_concat (splitOn '\n' text) with none | ⟨front, last, split⟩
  · exact absurd none (splitOn_ne_nil _ _)
  · rw [List.concat_eq_append] at split
    rw [split] at joined
    have shown : last ≠ [] := by
      rintro rfl
      by_cases single : front = []
      · rw [single] at joined
        exact nonempty joined.symm
      · rw [joinWith_append_nil _ single] at joined
        exact unfed (joined ▸ by simp)
    exact ⟨front, last, split, shown, by rw [← getLast?_joinWith _ front shown, joined]⟩

theorem wellFormed_parse {text : Text} (fed : ReturnsFed text) : (parse text).WellFormed := by
  have rowsEqual := rows_parse text
  constructor
  · intro line member
    apply fed.unbroken_rows
    rw [← rowsEqual]
    exact List.mem_append_left _ member
  · intro unterminated
    simp only [parse, Bool.or_eq_false_iff, List.isEmpty_eq_false_iff, beq_eq_false_iff_ne] at unterminated
    obtain ⟨front, last, split, nonempty, ends⟩ := exists_last_piece unterminated.1 unterminated.2
    have kept : dropReturn last = last := dropReturn_eq_iff.mpr (ends ▸ fed.getLast?_ne)
    refine ⟨last, ?_, nonempty⟩
    simp [parse, unterminated, dropFeed, split, kept]
  · -- Only a line feed can have shown which terminator it is, so there are two rows at least.
    intro returned
    have present : '\n' ∈ text := by
      apply Decidable.byContradiction
      intro absent
      rw [parse, LineEnding.detect_of_not_mem absent] at returned
      cases returned
    obtain ⟨piece, rest, rfl, absent⟩ := List.eq_append_cons_of_mem present
    rw [rowsEqual, splitOn_append absent, List.map_cons, List.length_cons, List.length_map]
    exact Nat.lt_add_of_pos_left (List.length_pos_iff.mpr (splitOn_ne_nil _ _))

end Document

end Masthead

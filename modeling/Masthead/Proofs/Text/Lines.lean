import Masthead.Text.Lines
import Masthead.Proofs.Text.Unbroken

/-!
# Lines with their terminators

The lines of a text, one behind the other, are the text again, and each of them alone is cut into nothing but itself. A
terminated line stays a line in front of everything that does not begin with a line feed.
-/

namespace Masthead.Text

variable {line text rest : Text} {character : Char}

/-! ## The first character -/

/-- The lines of a text with a character in front of it, by the lines that it has without. -/
def linesBehind (character : Char) : List Text → List Text
  | [] => [[character]]
  | line :: others =>
    if character = '\n' then [character] :: line :: others
    else if character = '\r' then
      if line.head? = some '\n' then (character :: line) :: others else [character] :: line :: others
    else (character :: line) :: others

theorem terminatedLines_cons (character : Char) (text : Text) :
    terminatedLines (character :: text) = linesBehind character (terminatedLines text) := by
  rw [terminatedLines, List.foldr_cons]
  change _ = linesBehind character (text.foldr _ [])
  cases text.foldr _ [] <;> rfl

theorem terminatedLines_feed (text : Text) : terminatedLines ('\n' :: text) = ['\n'] :: terminatedLines text := by
  rw [terminatedLines_cons]
  cases terminatedLines text <;> rfl

theorem terminatedLines_return_feed (text : Text) :
    terminatedLines ('\r' :: '\n' :: text) = ['\r', '\n'] :: terminatedLines text := by
  rw [terminatedLines_cons, terminatedLines_feed]
  rfl

theorem terminatedLines_plain (notFeed : character ≠ '\n') (notReturn : character ≠ '\r') (text : Text) :
    terminatedLines (character :: text)
      = (character :: (terminatedLines text).headD []) :: (terminatedLines text).tail := by
  rw [terminatedLines_cons]
  cases terminatedLines text with
  | nil => rfl
  | cons line others => rw [linesBehind, if_neg notFeed, if_neg notReturn, List.headD_cons, List.tail_cons]

/-- The first line begins as the text does. -/
theorem head?_headD_terminatedLines (text : Text) : ((terminatedLines text).headD []).head? = text.head? := by
  cases text with
  | nil => rfl
  | cons character text =>
    rw [terminatedLines_cons]
    unfold linesBehind
    split
    · rfl
    · split
      · rfl
      · split
        · split <;> rfl
        · rfl

theorem terminatedLines_return (next : text.head? ≠ some '\n') :
    terminatedLines ('\r' :: text) = ['\r'] :: terminatedLines text := by
  rw [terminatedLines_cons]
  rw [← head?_headD_terminatedLines] at next
  cases lines : terminatedLines text with
  | nil => rfl
  | cons line others =>
    rw [lines] at next
    exact if_neg next

theorem terminatedLines_eq_nil_iff : terminatedLines text = [] ↔ text = [] := by
  constructor
  · intro none
    have first := head?_headD_terminatedLines text
    rw [none] at first
    exact List.head?_eq_none_iff.mp first.symm
  · rintro rfl
    rfl

/-- To show something of all texts, show it for what can stand at their beginning: a terminator or a plain
character. -/
theorem lineInduction {motive : Text → Prop} (nil : motive []) (feed : ∀ text, motive text → motive ('\n' :: text))
    (returnFeed : ∀ text, motive text → motive ('\r' :: '\n' :: text))
    (loneReturn : ∀ text, text.head? ≠ some '\n' → motive text → motive ('\r' :: text))
    (plain : ∀ character text, character ≠ '\n' → character ≠ '\r' → motive text → motive (character :: text))
    (text : Text) : motive text := by
  induction length : text.length using Nat.strongRecOn generalizing text with
  | ind length inductionHypothesis =>
    subst length
    cases text with
    | nil => exact nil
    | cons character text =>
      have smaller := inductionHypothesis text.length (Nat.lt_succ_self _) text rfl
      by_cases isFeed : character = '\n'
      · subst isFeed
        exact feed text smaller
      · by_cases isReturn : character = '\r'
        · subst isReturn
          cases text with
          | nil => exact loneReturn [] (by decide) smaller
          | cons next text =>
            by_cases nextIsFeed : next = '\n'
            · subst nextIsFeed
              exact returnFeed text (inductionHypothesis text.length (by simp only [List.length_cons]; omega) text rfl)
            · exact loneReturn _ (fun same => nextIsFeed (Option.some.inj same)) smaller
        · exact plain character text isFeed isReturn smaller

/-! ## All lines -/

theorem flatten_terminatedLines (text : Text) : (terminatedLines text).flatten = text := by
  induction text using lineInduction with
  | nil => rfl
  | feed text inductionHypothesis => rw [terminatedLines_feed, List.flatten_cons, inductionHypothesis]; rfl
  | returnFeed text inductionHypothesis =>
    rw [terminatedLines_return_feed, List.flatten_cons, inductionHypothesis]
    rfl
  | loneReturn text next inductionHypothesis =>
    rw [terminatedLines_return next, List.flatten_cons, inductionHypothesis]
    rfl
  | plain character text notFeed notReturn inductionHypothesis =>
    rw [terminatedLines_plain notFeed notReturn, List.flatten_cons, List.cons_append]
    cases lines : terminatedLines text with
    | nil => rw [terminatedLines_eq_nil_iff.mp lines]; rfl
    | cons line others =>
      rw [lines, List.flatten_cons] at inductionHypothesis
      rw [List.headD_cons, List.tail_cons, inductionHypothesis]

/-- A text that is one line. -/
def IsLine (text : Text) : Prop :=
  terminatedLines text = [text]

theorem isLine_of_mem_terminatedLines (member : line ∈ terminatedLines text) : IsLine line := by
  induction text using lineInduction generalizing line with
  | nil => exact nomatch member
  | feed text inductionHypothesis =>
    rw [terminatedLines_feed] at member
    rcases List.mem_cons.mp member with rfl | member
    · rfl
    · exact inductionHypothesis member
  | returnFeed text inductionHypothesis =>
    rw [terminatedLines_return_feed] at member
    rcases List.mem_cons.mp member with rfl | member
    · rfl
    · exact inductionHypothesis member
  | loneReturn text next inductionHypothesis =>
    rw [terminatedLines_return next] at member
    rcases List.mem_cons.mp member with rfl | member
    · rfl
    · exact inductionHypothesis member
  | plain character text notFeed notReturn inductionHypothesis =>
    rw [terminatedLines_plain notFeed notReturn] at member
    rcases List.mem_cons.mp member with rfl | member
    · rw [IsLine, terminatedLines_plain notFeed notReturn]
      cases lines : terminatedLines text with
      | nil => rfl
      | cons line others =>
        have first : terminatedLines line = [line] := inductionHypothesis (lines ▸ List.mem_cons_self)
        rw [List.headD_cons, first]
        rfl
    · exact inductionHypothesis (List.mem_of_mem_tail member)

/-- What a line begins with, and what it can hold behind that. -/
theorem isLine_cons_iff : IsLine (character :: line) ↔
    (character = '\n' ∧ line = []) ∨ (character = '\r' ∧ (line = [] ∨ line = ['\n']))
      ∨ (character ≠ '\n' ∧ character ≠ '\r' ∧ (line = [] ∨ IsLine line)) := by
  constructor
  · intro isLine
    have one : terminatedLines (character :: line) = [character :: line] := isLine
    by_cases isFeed : character = '\n'
    · subst isFeed
      rw [terminatedLines_feed] at one
      exact .inl ⟨rfl, terminatedLines_eq_nil_iff.mp (List.cons.inj one).2⟩
    · by_cases isReturn : character = '\r'
      · subst isReturn
        refine .inr (.inl ⟨rfl, ?_⟩)
        by_cases next : line.head? = some '\n'
        · obtain ⟨rest, rfl⟩ := List.head?_eq_some_iff.mp next
          rw [terminatedLines_return_feed] at one
          rw [terminatedLines_eq_nil_iff.mp (List.cons.inj one).2]
          exact .inr rfl
        · rw [terminatedLines_return next] at one
          exact .inl (terminatedLines_eq_nil_iff.mp (List.cons.inj one).2)
      · refine .inr (.inr ⟨isFeed, isReturn, ?_⟩)
        rw [terminatedLines_plain isFeed isReturn] at one
        obtain ⟨first, others⟩ := List.cons.inj one
        cases lines : terminatedLines line with
        | nil => exact .inl (terminatedLines_eq_nil_iff.mp lines)
        | cons next more =>
          rw [lines] at first others
          rw [IsLine, lines, show more = [] from others, show next = line from (List.cons.inj first).2]
          exact .inr rfl
  · rintro (⟨rfl, rfl⟩ | ⟨rfl, rfl | rfl⟩ | ⟨notFeed, notReturn, rfl | isLine⟩)
    · rfl
    · rfl
    · rfl
    · exact terminatedLines_plain notFeed notReturn []
    · rw [IsLine, terminatedLines_plain notFeed notReturn, isLine]
      rfl

theorem isTerminated_cons (character : Char) (nonempty : line ≠ []) :
    isTerminated (character :: line) = isTerminated line := by
  rw [isTerminated, isTerminated, List.getLast?_cons_of_ne_nil nonempty]

theorem isTerminated_append_feed (line : Text) : isTerminated (line ++ ['\n']) = true := by
  rw [isTerminated, List.getLast?_concat]
  rfl

namespace IsLine

theorem ne_nil (isLine : IsLine line) : line ≠ [] := by
  rintro rfl
  exact nomatch isLine

/-- A terminated line is the first one in front of a text that does not begin with a line feed. -/
theorem terminatedLines_append (isLine : IsLine line) (terminated : isTerminated line = true)
    (next : rest.head? ≠ some '\n') : terminatedLines (line ++ rest) = line :: terminatedLines rest := by
  induction line with
  | nil => exact absurd rfl isLine.ne_nil
  | cons character line inductionHypothesis =>
    rcases isLine_cons_iff.mp isLine with ⟨rfl, rfl⟩ | ⟨rfl, rfl | rfl⟩ | ⟨notFeed, notReturn, rfl | isLine⟩
    · exact terminatedLines_feed rest
    · exact terminatedLines_return next
    · exact terminatedLines_return_feed rest
    · simp [isTerminated, notFeed, notReturn] at terminated
    · rw [isTerminated_cons character isLine.ne_nil] at terminated
      rw [List.cons_append, terminatedLines_plain notFeed notReturn, inductionHypothesis isLine terminated]
      rfl

/-- A line that is not terminated becomes so by a line feed. -/
theorem append_feed (isLine : IsLine line) (unterminated : isTerminated line = false) : IsLine (line ++ ['\n']) := by
  induction line with
  | nil => exact absurd rfl isLine.ne_nil
  | cons character line inductionHypothesis =>
    rcases isLine_cons_iff.mp isLine with ⟨rfl, rfl⟩ | ⟨rfl, rfl | rfl⟩ | ⟨notFeed, notReturn, rfl | isLine⟩
    · exact nomatch unterminated
    · exact nomatch unterminated
    · exact nomatch unterminated
    · exact isLine_cons_iff.mpr (.inr (.inr ⟨notFeed, notReturn, .inr rfl⟩))
    · rw [isTerminated_cons character isLine.ne_nil] at unterminated
      exact isLine_cons_iff.mpr (.inr (.inr ⟨notFeed, notReturn, .inr (inductionHypothesis isLine unterminated)⟩))

end IsLine

/-- A text that holds no part of a terminator is a line in front of a line feed. -/
theorem isLine_append_feed (unbroken : Unbroken text) : IsLine (text ++ ['\n']) := by
  induction text with
  | nil => rfl
  | cons character text inductionHypothesis =>
    have notFeed : character ≠ '\n' := fun same => unbroken.1 (same ▸ List.mem_cons_self)
    have notReturn : character ≠ '\r' := fun same => unbroken.2 (same ▸ List.mem_cons_self)
    have behind : Unbroken text := unbroken.of_subset fun _ member => List.mem_cons_of_mem _ member
    exact isLine_cons_iff.mpr (.inr (.inr ⟨notFeed, notReturn, .inr (inductionHypothesis behind)⟩))

end Masthead.Text

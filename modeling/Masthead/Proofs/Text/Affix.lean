import Mathlib.Data.List.TakeWhile
import Masthead.Text.White

/-!
# Beginnings, inner parts and trimmed texts

`Text.startsWith` and `Text.holds` decide whether one text begins or lies within another, and
trimming takes white space off the ends and nothing else. What a line is to a header depends on
its trimmed text alone, so these facts are all that later proofs know about trimming.
-/

namespace Masthead.Text

theorem startsWith_iff {lead text : Text} : startsWith lead text = true ↔ lead <+: text := by
  simp only [startsWith, Option.isSome_iff_exists, after?_eq_some_iff]
  constructor
  · rintro ⟨rest, equal⟩
    exact ⟨rest, equal.symm⟩
  · rintro ⟨rest, equal⟩
    exact ⟨rest, equal.symm⟩

theorem holds_iff {needle text : Text} : holds needle text = true ↔ needle <:+: text := by
  induction text with
  | nil => simp [holds, List.infix_nil]
  | cons character rest inductionHypothesis =>
    simp only [holds, Bool.or_eq_true, startsWith_iff, inductionHypothesis, List.infix_cons_iff]

theorem after?_append (lead rest : Text) : after? lead (lead ++ rest) = some rest :=
  after?_eq_some_iff.mpr rfl

/-! ## What is taken from the front -/

section

variable {Item : Type} {taken : Item → Bool} {front rest : List Item}

theorem takeWhile_append_of_stop (inside : ∀ item ∈ front, taken item = true) (stopped : rest.head?.any taken = false) :
    (front ++ rest).takeWhile taken = front := by
  rw [List.takeWhile_append_of_pos inside]
  cases rest with
  | nil => simp
  | cons item rest =>
    have refused : taken item = false := stopped
    simp [refused]

theorem dropWhile_append_of_stop (inside : ∀ item ∈ front, taken item = true) (stopped : rest.head?.any taken = false) :
    (front ++ rest).dropWhile taken = rest := by
  rw [List.dropWhile_append_of_pos inside]
  cases rest with
  | nil => rfl
  | cons item rest =>
    have refused : taken item = false := stopped
    simp [refused]

theorem dropWhile_append_cons (front : List Item) {item : Item} (rest : List Item) (stopped : taken item = false) :
    (front ++ item :: rest).dropWhile taken = front.dropWhile taken ++ item :: rest := by
  rw [List.dropWhile_append]
  split
  · next empty =>
    rw [List.isEmpty_iff.mp empty, List.dropWhile_cons_of_neg (by simp [stopped])]
    rfl
  · rfl

theorem any_head?_dropWhile (taken : Item → Bool) (items : List Item) :
    (items.dropWhile taken).head?.any taken = false := by
  have first := List.head?_dropWhile_not taken items
  cases behind : items.dropWhile taken with
  | nil => rfl
  | cons item rest =>
    rw [behind] at first
    simpa using first

end

/-! ## Joined texts with a letter -/

/-- What stands before a text with one more character at its front. -/
theorem getLast?_cons_or (front : Text) (character : Char) (before : Option Char) :
    (character :: front).getLast?.or before = front.getLast?.or (some character) := by
  cases front with
  | nil => rfl
  | cons first front => rw [List.getLast?_cons_cons, Option.or_of_isSome (by simp), Option.or_of_isSome (by simp)]

/-- What stands before the first occurrence of a letter is a beginning of any text before a later one. -/
theorem exists_split_of_not_mem {letter : Char} {first front second rest : Text} (absent : letter ∉ first)
    (equal : first ++ second = front ++ letter :: rest) :
    ∃ middle, front = first ++ middle ∧ second = middle ++ letter :: rest := by
  rcases List.append_eq_append_iff.mp equal with ⟨middle, frontEqual, secondEqual⟩ | ⟨middle, firstEqual, restEqual⟩
  · exact ⟨middle, frontEqual, secondEqual⟩
  · cases middle with
    | nil =>
      obtain rfl : first = front := by rwa [List.append_nil] at firstEqual
      exact ⟨[], (List.append_nil _).symm, restEqual.symm⟩
    | cons character middle =>
      rw [List.cons_append, List.cons.injEq] at restEqual
      rw [firstEqual, restEqual.1] at absent
      exact absurd (List.mem_append_right _ List.mem_cons_self) absent

theorem exists_split_of_not_mem_right {letter : Char} {first front second rest : Text} (absent : letter ∉ second)
    (equal : first ++ second = front ++ letter :: rest) :
    ∃ middle, first = front ++ letter :: middle ∧ rest = middle ++ second := by
  rcases List.append_eq_append_iff.mp equal with ⟨middle, -, secondEqual⟩ | ⟨middle, firstEqual, restEqual⟩
  · rw [secondEqual] at absent
    exact absurd (List.mem_append_right _ List.mem_cons_self) absent
  · cases middle with
    | nil =>
      rw [← show letter :: rest = second from restEqual] at absent
      exact absurd List.mem_cons_self absent
    | cons character middle =>
      rw [List.cons_append, List.cons.injEq] at restEqual
      exact ⟨middle, by rw [firstEqual, restEqual.1], restEqual.2⟩

/-! ## Infixes of a joined text -/

theorem infix_append_cases {word first second : Text} (inside : word <:+: first ++ second) :
    word <:+: first ∨ word <:+: second ∨
      ∃ left right, word = left ++ right ∧ right ≠ [] ∧ left <:+ first ∧ right <+: second := by
  obtain ⟨before, after, equal⟩ := inside
  rw [List.append_assoc] at equal
  rcases List.append_eq_append_iff.mp equal with ⟨middle, firstEqual, wordEqual⟩ | ⟨middle, -, secondEqual⟩
  · -- The word begins in the first text; `middle` is what of that text it may take.
    rcases List.append_eq_append_iff.mp wordEqual with ⟨rest, middleEqual, -⟩ | ⟨rest, wordSplit, secondEqual⟩
    · exact .inl ⟨before, rest, by rw [firstEqual, middleEqual, List.append_assoc]⟩
    · cases rest with
      | nil =>
        rw [List.append_nil] at wordSplit
        exact .inl ⟨before, [], by rw [firstEqual, wordSplit, List.append_nil]⟩
      | cons character rest =>
        exact .inr (.inr ⟨middle, character :: rest, wordSplit, List.cons_ne_nil _ _,
          ⟨before, firstEqual.symm⟩, ⟨after, secondEqual.symm⟩⟩)
  · exact .inr (.inl ⟨middle, after, by rw [secondEqual, List.append_assoc]⟩)

/-- A word whose last character does not stand in the second text lies within the first. -/
theorem infix_of_last_not_mem {word first second : Text} {last : Char}
    (inside : word ++ [last] <:+: first ++ second) (absent : last ∉ second) :
    word ++ [last] <:+: first := by
  rcases infix_append_cases inside with inFirst | inSecond | ⟨left, right, equal, nonempty, -, inSecond⟩
  · exact inFirst
  · exact absurd (inSecond.subset (by simp)) absent
  · obtain rfl | ⟨front, character, rfl⟩ := List.eq_nil_or_concat right
    · exact absurd rfl nonempty
    · have ends := congrArg List.getLast? equal
      simp only [List.concat_eq_append, List.getLast?_append, List.getLast?_singleton, Option.some_or,
        Option.some.injEq] at ends
      exact absurd (inSecond.subset (by simp [ends])) absent

/-- A word whose first character does not stand in the first text lies within the second. -/
theorem infix_of_head_not_mem {head : Char} {word first second : Text}
    (inside : head :: word <:+: first ++ second) (absent : head ∉ first) :
    head :: word <:+: second := by
  rcases infix_append_cases inside with inFirst | inSecond | ⟨left, right, equal, -, inFirst, inSecond⟩
  · exact absurd (inFirst.subset List.mem_cons_self) absent
  · exact inSecond
  · cases left with
    | nil => exact equal ▸ inSecond.isInfix
    | cons character left =>
      rw [List.cons_append, List.cons.injEq] at equal
      exact absurd (inFirst.subset (equal.1 ▸ List.mem_cons_self)) absent

/-! ## Trimming -/

theorem isBlank_eq_false_of_mem {text : Text} {character : Char} (member : character ∈ text)
    (visible : isWhite character = false) : isBlank text = false := by
  simp only [isBlank, List.all_eq_false, Bool.not_eq_true]
  exact ⟨character, member, visible⟩

theorem trimStart_cons {character : Char} (rest : Text) (visible : isWhite character = false) :
    trimStart (character :: rest) = character :: rest := by
  simp [trimStart, visible]

theorem trimStart_white_append {white : Text} (rest : Text) (blank : ∀ character ∈ white, isWhite character) :
    trimStart (white ++ rest) = trimStart rest := by
  simp only [trimStart, List.dropWhile_append_of_pos blank]

theorem trimStart_append {first : Text} (second : Text) (visible : trimStart first ≠ []) :
    trimStart (first ++ second) = trimStart first ++ second := by
  simp only [trimStart, List.dropWhile_append] at visible ⊢
  rw [if_neg (by simpa using visible)]

theorem trimStart_of_blank {white : Text} (blank : ∀ character ∈ white, isWhite character) :
    trimStart white = [] := by
  have dropped := trimStart_white_append [] blank
  simpa [trimStart] using dropped

theorem trimStart_isPrefix {first second : Text} (begins : first <+: second) (visible : trimStart first ≠ []) :
    trimStart first <+: trimStart second := by
  obtain ⟨rest, rfl⟩ := begins
  rw [trimStart_append _ visible]
  exact List.prefix_append _ _

theorem exists_trimStart_split (text : Text) :
    ∃ white, text = white ++ trimStart text ∧ ∀ character ∈ white, isWhite character := by
  refine ⟨text.takeWhile isWhite, (List.takeWhile_append_dropWhile).symm, ?_⟩
  intro character member
  exact List.all_eq_true.mp List.all_takeWhile character member

theorem exists_trimEnd_split (text : Text) :
    ∃ white, text = trimEnd text ++ white ∧ ∀ character ∈ white, isWhite character := by
  obtain ⟨white, equal, blank⟩ := exists_trimStart_split text.reverse
  refine ⟨white.reverse, ?_, ?_⟩
  · have reversed := congrArg List.reverse equal
    simpa [trimEnd, trimStart] using reversed
  · intro character member
    exact blank character (List.mem_reverse.mp member)

theorem trim_prefix_trimStart (text : Text) : trim text <+: trimStart text := by
  obtain ⟨white, equal, -⟩ := exists_trimEnd_split (trimStart text)
  exact ⟨white, equal.symm⟩

theorem exists_trim_split (text : Text) :
    ∃ before after, text = before ++ (trim text ++ after) ∧
      (∀ character ∈ before, isWhite character) ∧ ∀ character ∈ after, isWhite character := by
  obtain ⟨before, startEqual, beforeBlank⟩ := exists_trimStart_split text
  obtain ⟨after, endEqual, afterBlank⟩ := exists_trimEnd_split (trimStart text)
  refine ⟨before, after, ?_, beforeBlank, afterBlank⟩
  rw [trim, ← endEqual, ← startEqual]

theorem trimEnd_append_singleton (text : Text) {character : Char} (visible : isWhite character = false) :
    trimEnd (text ++ [character]) = text ++ [character] := by
  simp [trimEnd, visible]

theorem trimEnd_append_white (text : Text) {white : Text} (blank : ∀ character ∈ white, isWhite character) :
    trimEnd (text ++ white) = trimEnd text := by
  have reversed : ∀ character ∈ white.reverse, isWhite character := by
    intro character member
    exact blank character (List.mem_reverse.mp member)
  simp only [trimEnd, List.reverse_append, List.dropWhile_append_of_pos reversed]

/-- A text with something visible in it ends in the visible part of its last words. -/
theorem exists_last_visible {text : Text} (visible : isBlank text = false) :
    ∃ front last white, text = front ++ [last] ++ white ∧ isWhite last = false ∧
      ∀ character ∈ white, isWhite character := by
  obtain ⟨white, equal, blank⟩ := exists_trimEnd_split text
  rcases List.eq_nil_or_concat (trimEnd text) with ended | ⟨front, last, ended⟩
  · rw [ended, List.nil_append] at equal
    rw [equal, isBlank, List.all_eq_true.mpr blank] at visible
    exact absurd visible (by decide)
  · rw [List.concat_eq_append] at ended
    refine ⟨front, last, white, by rw [← ended, ← equal], ?_, blank⟩
    have reversed := congrArg List.reverse ended
    simp only [trimEnd, List.reverse_reverse, List.reverse_append, List.reverse_singleton,
      List.singleton_append] at reversed
    simpa [reversed] using List.head?_dropWhile_not isWhite text.reverse

/-- Trimming the end of a joined text leaves its first part alone if the second is not blank. -/
theorem trimEnd_append {first second : Text} (visible : isBlank second = false) :
    trimEnd (first ++ second) = first ++ trimEnd second := by
  obtain ⟨front, last, white, equal, lastVisible, blank⟩ := exists_last_visible visible
  rw [equal, trimEnd_append_white _ blank, trimEnd_append_singleton _ lastVisible, ← List.append_assoc,
    ← List.append_assoc, trimEnd_append_white _ blank, trimEnd_append_singleton _ lastVisible]

theorem trimStart_append_cons (front : Text) {letter : Char} (rest : Text) (visible : isWhite letter = false) :
    trimStart (front ++ letter :: rest) = trimStart front ++ letter :: rest :=
  dropWhile_append_cons front rest visible

theorem exists_trimEnd_append_cons (front : Text) {letter : Char} (rest : Text) (visible : isWhite letter = false) :
    ∃ more, trimEnd (front ++ letter :: rest) = front ++ letter :: more := by
  rw [List.append_cons]
  cases blank : isBlank rest with
  | true => exact ⟨[], by rw [trimEnd_append_white _ (List.all_eq_true.mp blank), trimEnd_append_singleton _ visible]⟩
  | false => exact ⟨trimEnd rest, by rw [trimEnd_append blank, ← List.append_cons]⟩

theorem trim_trimEnd (text : Text) : trim (trimEnd text) = trim text := by
  obtain ⟨white, equal, blank⟩ := exists_trimEnd_split text
  cases visible : isBlank (trimEnd text) with
  | false =>
    -- Something visible stands before the blanks at the end, so that trimming the start does not reach them.
    have left : trimStart (trimEnd text) ≠ [] := by
      intro nothing
      have allBlank := List.all_eq_true.mpr (List.dropWhile_eq_nil_iff.mp nothing)
      rw [← isBlank, visible] at allBlank
      cases allBlank
    have started : trimStart text = trimStart (trimEnd text) ++ white := by
      conv => lhs; rw [equal]
      rw [trimStart, List.dropWhile_append, if_neg (by simpa [trimStart] using left), trimStart]
    rw [trim, trim, started, trimEnd_append_white _ blank]
  | true =>
    -- A blank text is trimmed away whole.
    have allBlank : ∀ character ∈ text, isWhite character := by
      intro character member
      rw [equal, List.mem_append] at member
      exact member.elim (List.all_eq_true.mp visible character) (blank character)
    rw [trim, trim, trimStart_of_blank allBlank, trimStart_of_blank (List.all_eq_true.mp visible)]

theorem mem_trim_of_visible {text : Text} {character : Char} (member : character ∈ text)
    (visible : isWhite character = false) : character ∈ trim text := by
  obtain ⟨before, after, equal, beforeBlank, afterBlank⟩ := exists_trim_split text
  rw [equal, List.mem_append, List.mem_append] at member
  rcases member with member | member | member
  · exact absurd (beforeBlank character member) (by simp [visible])
  · exact member
  · exact absurd (afterBlank character member) (by simp [visible])

theorem mem_of_mem_trim {text : Text} {character : Char} (member : character ∈ trim text) :
    character ∈ text := by
  obtain ⟨before, after, equal, -, -⟩ := exists_trim_split text
  rw [equal]
  simp [member]

/-- Trimming leaves a word alone that begins and ends with something visible. -/
theorem infix_trim {word text : Text} {head last : Char} {rest front : Text} (inside : word <:+: text)
    (begins : word = head :: rest) (headVisible : isWhite head = false) (ends : word = front ++ [last])
    (lastVisible : isWhite last = false) : word <:+: trim text := by
  obtain ⟨before, after, equal, beforeBlank, afterBlank⟩ := exists_trim_split text
  rw [equal, begins] at inside
  have trimmed := infix_of_head_not_mem inside fun member => by
    simp [beforeBlank head member] at headVisible
  rw [← begins, ends] at trimmed
  rw [ends]
  exact infix_of_last_not_mem trimmed fun member => by
    simp [afterBlank last member] at lastVisible

end Masthead.Text

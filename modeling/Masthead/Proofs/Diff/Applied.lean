import Masthead.Proofs.Diff.Hunks
import Masthead.Proofs.Text.Affix
import Masthead.Proofs.Text.Lines
import Masthead.Proofs.Text.Numeral

/-!
# Diffs that are applied

A diff is read line by line along with the old text: what is kept or deleted has to stand there, and what is inserted is
taken from the diff. Read in this way, the diff of two texts leads from the old one to the new one, so that nothing of
the new text is lost when only the diff of it is kept.
-/

namespace Masthead.Diff

/-! ## Reading -/

/-- The position at which a range of lines begins. Lines are counted from one, and an empty range has the number of the
line before it. -/
def rangeStart? (text : Text) : Option Nat := do
  let number ← Text.natural? 10 (text.takeWhile Text.isDigit)
  match text.dropWhile Text.isDigit with
  | ',' :: rest =>
    let size ← Text.natural? 10 (rest.takeWhile Text.isDigit)
    return if size = 0 then number else number - 1
  | _ => return number - 1

/-- The position among the old lines at which a hunk begins. -/
def hunkStart? (heading : Text) : Option Nat :=
  (Text.after? "@@ -" heading).bind rangeStart?

/-- Lines without the remarks below those that have no terminator, and those without the one that the diff has given
them. -/
def withoutRemarks : List Text → List Text
  | line :: ('\\' :: _) :: lines => line.dropLast :: withoutRemarks lines
  | line :: lines => line :: withoutRemarks lines
  | [] => []

/-- Whether the first line is a kept one. -/
def keepsFirst : List Text → Bool
  | (' ' :: _) :: _ => true
  | _ => false

/-- The new lines from the old ones from a position on and the lines of a diff. A hunk stands where its heading says if
it begins with a kept line, and otherwise where the one before it has ended. -/
def patched? : (position : Nat) → (old : List Text) → (lines : List Text) → Option (List Text)
  | _, old, [] => some old
  | position, old, ('@' :: heading) :: lines =>
    if keepsFirst lines then
      (hunkStart? ('@' :: heading)).bind fun start =>
        (patched? start (old.drop (start - position)) lines).map (old.take (start - position) ++ ·)
    else patched? position old lines
  | position, line :: old, (' ' :: text) :: lines =>
    if line = text then (patched? (position + 1) old lines).map (line :: ·) else none
  | position, line :: old, ('-' :: text) :: lines =>
    if line = text then patched? (position + 1) old lines else none
  | position, old, ('+' :: text) :: lines => (patched? position old lines).map (text :: ·)
  | _, _, _ => none

/-- The new text of a file, from its old one and the diff of them. -/
def applied? (path : Path) (old diff : Text) : Option Text :=
  if diff = [] then some old
  else do
    let label := Text.replace '\\' '/' path
    let hunks ← Text.after? ("--- a/".toList ++ label ++ "\n+++ b/".toList ++ label ++ "\n".toList) diff
    let lines ← patched? 0 (Text.terminatedLines old) (withoutRemarks (Text.terminatedLines hunks))
    return lines.flatten

/-! ## Lines of hunks -/

/-- Some consecutive lines. -/
def slice (lines : List Text) (start size : Nat) : List Text :=
  (lines.drop start).take size

/-- The lines of a block with their signs. -/
def blockLines (sides : Sides) : Block → List Text
  | .keep old _ size => (slice sides.old.toList old size).map (' ' :: ·)
  | .change old oldSize new newSize =>
    (slice sides.old.toList old oldSize).map ('-' :: ·) ++ (slice sides.new.toList new newSize).map ('+' :: ·)

def hunkLines (sides : Sides) (blocks : List Block) : List Text :=
  hunkHeading blocks :: blocks.flatMap (blockLines sides)

/-! ## Places of hunks -/

/-- A numeral is what is read off in front of a character that is no digit. -/
theorem numeral_append (number : Nat) {character : Char} (rest : Text) (stopped : Text.isDigit character = false) :
    (Text.decimal number ++ character :: rest).takeWhile Text.isDigit = Text.decimal number ∧
      (Text.decimal number ++ character :: rest).dropWhile Text.isDigit = character :: rest := by
  have digits : ∀ character ∈ Text.decimal number, Text.isDigit character = true :=
    fun _ member => Text.isDigit_of_mem_decimalDigits (Text.mem_decimalDigits_of_mem_decimal member)
  exact ⟨Text.takeWhile_append_of_stop digits stopped, Text.dropWhile_append_of_stop digits stopped⟩

theorem rangeStart?_rangeText (start stop : Nat) (rest : Text) :
    rangeStart? (rangeText start stop ++ ' ' :: rest) = some start := by
  unfold rangeText
  extract_lets size
  have blank : Text.isDigit ' ' = false := by decide
  split
  · obtain ⟨number, behind⟩ := numeral_append (start + 1) rest blank
    rw [rangeStart?, number, behind, Text.natural?_decimal]
    rfl
  · have comma : Text.isDigit ',' = false := by decide
    obtain ⟨number, behind⟩ := numeral_append (if size = 0 then start else start + 1) (Text.decimal size ++ ' ' :: rest) comma
    obtain ⟨count, -⟩ := numeral_append size rest blank
    rw [List.append_assoc, List.cons_append, rangeStart?, number, behind, Text.natural?_decimal]
    simp only [count, Text.natural?_decimal, Option.pure_def, Option.bind_eq_bind, Option.bind_some]
    split <;> rfl

theorem exists_hunkHeading_eq (first : Block) (blocks : List Block) :
    ∃ last : Block, hunkHeading (first :: blocks) = "@@ -".toList ++ rangeText first.oldStart last.oldStop ++ " +".toList
      ++ rangeText first.newStart last.newStop ++ " @@\n".toList := by
  rw [hunkHeading, List.head?_cons, List.getLast?_cons]
  exact ⟨_, rfl⟩

/-- A hunk begins where its heading says. -/
theorem hunkStart?_hunkHeading (first : Block) (blocks : List Block) :
    hunkStart? (hunkHeading (first :: blocks)) = some first.oldStart := by
  obtain ⟨last, heading⟩ := exists_hunkHeading_eq first blocks
  rw [heading, hunkStart?, List.append_assoc, List.append_assoc, List.append_assoc, Text.after?_append, Option.bind_some]
  exact rangeStart?_rangeText _ _ _

/-! ## Following the lines -/

variable {sides : Sides} {start stop : Nat × Nat} {old new lines kept : List Text} {position : Nat}

theorem patched?_kept : patched? position (kept ++ old) (kept.map (' ' :: ·) ++ lines)
    = (patched? (position + kept.length) old lines).map (kept ++ ·) := by
  induction kept generalizing position with
  | nil => simp
  | cons line kept inductionHypothesis =>
    rw [List.map_cons, List.cons_append, List.cons_append, patched?, if_pos rfl, inductionHypothesis, Option.map_map,
      List.length_cons, Nat.add_right_comm, Nat.add_assoc]
    rfl

theorem patched?_deleted (deleted : List Text) : patched? position (deleted ++ old) (deleted.map ('-' :: ·) ++ lines)
    = patched? (position + deleted.length) old lines := by
  induction deleted generalizing position with
  | nil => rfl
  | cons line deleted inductionHypothesis =>
    rw [List.map_cons, List.cons_append, List.cons_append, patched?, if_pos rfl, inductionHypothesis,
      List.length_cons, Nat.add_right_comm, Nat.add_assoc]

theorem patched?_inserted (inserted : List Text) : patched? position old (inserted.map ('+' :: ·) ++ lines)
    = (patched? position old lines).map (inserted ++ ·) := by
  induction inserted generalizing position with
  | nil => simp
  | cons line inserted inductionHypothesis =>
    rw [List.map_cons, List.cons_append, patched?, inductionHypothesis, Option.map_map]
    rfl

/-! ## Following the hunks -/

theorem slice_append_drop (lines : List Text) (start size : Nat) :
    slice lines start size ++ lines.drop (start + size) = lines.drop start := by
  rw [slice, ← List.drop_drop, List.take_append_drop]

theorem slice_congr {lines : List Text} {start other size : Nat} (same : size ≠ 0 → start = other) :
    slice lines other size = slice lines start size := by
  by_cases none : size = 0
  · rw [none, slice, slice, List.take_zero, List.take_zero]
  · rw [same none]

theorem length_slice {lines : List Text} {start size : Nat} (within : start + size ≤ lines.length) :
    (slice lines start size).length = size := by
  rw [slice, List.length_take, List.length_drop]
  omega

/-- Whether the lines of a diff lead from a place to the end of both sides. -/
def Completes (sides : Sides) (place : Nat × Nat) (lines : List Text) : Prop :=
  patched? place.1 (sides.old.toList.drop place.1) lines = some (sides.new.toList.drop place.2)

/-- Whether a place lies within both sides. -/
structure Within (sides : Sides) (place : Nat × Nat) : Prop where
  old : place.1 ≤ sides.old.size
  new : place.2 ≤ sides.new.size

theorem Block.Leads.le {block : Block} (leads : block.Leads sides start stop) : start.1 ≤ stop.1 ∧ start.2 ≤ stop.2 := by
  cases block with
  | keep old new size =>
    obtain ⟨-, rfl, rfl, -⟩ := leads
    exact ⟨Nat.le_add_right _ _, Nat.le_add_right _ _⟩
  | change old oldSize new newSize =>
    obtain ⟨-, -, -, rfl⟩ := leads
    exact ⟨Nat.le_add_right _ _, Nat.le_add_right _ _⟩

theorem Within.of_block {block : Block} (within : Within sides stop) (leads : block.Leads sides start stop) :
    Within sides start :=
  ⟨leads.le.1.trans within.old, leads.le.2.trans within.new⟩

theorem Within.of_blocks {blocks : List Block} (within : Within sides stop) (way : Blocks sides start blocks stop) :
    Within sides start := by
  induction way with
  | nil => exact within
  | cons first _ inductionHypothesis => exact (inductionHypothesis within).of_block first

theorem Within.of_hunks {hunks : List (List Block)} (within : Within sides stop) (leads : Hunks sides start hunks stop) :
    Within sides start := by
  induction leads with
  | nil => exact ⟨(Nat.le_add_right _ _).trans within.old, (Nat.le_add_right _ _).trans within.new⟩
  | cons _ _ _ way _ inductionHypothesis =>
    have begun := (inductionHypothesis within).of_blocks way
    exact ⟨(Nat.le_add_right _ _).trans begun.old, (Nat.le_add_right _ _).trans begun.new⟩

theorem Completes.block {block : Block} (leads : block.Leads sides start stop) (within : Within sides stop)
    (completes : Completes sides stop lines) : Completes sides start (blockLines sides block ++ lines) := by
  cases block with
  | keep old new size =>
    obtain ⟨-, rfl, rfl, agrees⟩ := leads
    have same : slice sides.old.toList old size = slice sides.new.toList new size := agrees.slice_eq
    have length : (slice sides.old.toList old size).length = size := length_slice within.old
    unfold Completes at completes ⊢
    dsimp only at completes ⊢
    rw [blockLines, ← slice_append_drop _ old size, patched?_kept, length, completes, Option.map_some, same,
      slice_append_drop]
  | change old oldSize new newSize =>
    obtain ⟨-, oldHere, newHere, rfl⟩ := leads
    have length : (slice sides.old.toList start.1 oldSize).length = oldSize := length_slice within.old
    unfold Completes at completes ⊢
    dsimp only at completes ⊢
    rw [blockLines, slice_congr oldHere, slice_congr newHere, List.append_assoc, ← slice_append_drop _ start.1 oldSize,
      patched?_deleted, length, patched?_inserted, completes, Option.map_some, slice_append_drop]

theorem Completes.blocks {blocks : List Block} (way : Blocks sides start blocks stop) (within : Within sides stop)
    (completes : Completes sides stop lines) : Completes sides start (blocks.flatMap (blockLines sides) ++ lines) := by
  induction way with
  | nil => exact completes
  | cons first rest inductionHypothesis =>
    rw [List.flatMap_cons, List.append_assoc]
    exact .block first (within.of_blocks rest) (inductionHypothesis within completes)

theorem exists_cons_of_slice {slice : List Text} {size : Nat} (length : slice.length = size) (some : 0 < size) :
    ∃ line rest, slice = line :: rest :=
  List.exists_cons_of_length_pos (length ▸ some)

/-- The first line of a block is a kept one just if the block is kept. -/
theorem keepsFirst_blockLines {block : Block} (leads : block.Leads sides start stop) (within : Within sides stop) :
    keepsFirst (blockLines sides block ++ lines) = true ↔ BeginsKept [block] := by
  cases block with
  | keep old new size =>
    obtain ⟨some, rfl, rfl, -⟩ := leads
    obtain ⟨line, rest, lines⟩ := exists_cons_of_slice (length_slice within.old) some
    rw [blockLines, lines]
    exact iff_of_true rfl trivial
  | change old oldSize new newSize =>
    obtain ⟨some, oldHere, newHere, rfl⟩ := leads
    refine iff_of_false ?_ id
    rw [blockLines, slice_congr oldHere, slice_congr newHere]
    by_cases none : oldSize = 0
    · obtain ⟨line, rest, lines⟩ := exists_cons_of_slice (length_slice within.new) (by omega : 0 < newSize)
      rw [none, lines]
      exact Bool.false_ne_true
    · obtain ⟨line, rest, lines⟩ := exists_cons_of_slice (length_slice within.old) (by omega : 0 < oldSize)
      rw [lines]
      exact Bool.false_ne_true

theorem Completes.hunk {hunk : List Block} {old new count : Nat} (agrees : sides.Agrees old new count)
    (kept : count = 0 ∨ BeginsKept hunk) (nonempty : hunk ≠ []) (way : Blocks sides (old + count, new + count) hunk stop)
    (within : Within sides stop) (completes : Completes sides stop lines) :
    Completes sides (old, new) (hunkLines sides hunk ++ lines) := by
  have body := Completes.blocks way within completes
  cases way with
  | nil => exact absurd rfl nonempty
  | @cons _ between _ first blocks leads rest =>
    have beginning : keepsFirst ((first :: blocks).flatMap (blockLines sides) ++ lines) = true ↔ BeginsKept [first] := by
      rw [List.flatMap_cons, List.append_assoc]
      exact keepsFirst_blockLines leads (within.of_blocks rest)
    obtain ⟨text, heading⟩ : ∃ text, hunkHeading (first :: blocks) = '@' :: text := by
      obtain ⟨last, heading⟩ := exists_hunkHeading_eq first blocks
      exact ⟨_, heading⟩
    -- The heading is looked at just where lines may have been left out, and tells there how many they are.
    have place : hunkStart? ('@' :: text) = some first.oldStart := heading ▸ hunkStart?_hunkHeading first blocks
    unfold Completes at body ⊢
    dsimp only at body ⊢
    rw [hunkLines, List.cons_append, heading, patched?]
    split
    · next keeps =>
      cases first with
      | change => exact (beginning.mp keeps).elim
      | keep firstOld firstNew size =>
        obtain ⟨rfl, -⟩ := Prod.mk.inj leads.2.1
        have same : slice sides.old.toList old count = slice sides.new.toList new count := agrees.slice_eq
        rw [place, Option.bind_some, Block.oldStart, Nat.add_sub_cancel_left, List.drop_drop, body, Option.map_some]
        change some (slice _ old count ++ _) = _
        rw [same, slice_append_drop]
    · next keeps =>
      have none : count = 0 := kept.resolve_right fun begins => keeps (beginning.mpr ?_)
      · subst none
        exact body
      · cases first <;> exact begins

/-- The lines of the hunks lead through both sides. -/
theorem Completes.hunks {hunks : List (List Block)} (leads : Hunks sides start hunks stop)
    (ends : stop = (sides.old.size, sides.new.size)) : Completes sides start (hunks.flatMap (hunkLines sides)) := by
  have within : Within sides stop := ends ▸ ⟨Nat.le_refl _, Nat.le_refl _⟩
  induction leads with
  | @nil old new count agrees =>
    obtain ⟨oldEnds, newEnds⟩ := Prod.mk.inj ends
    have same := agrees.slice_eq
    rw [List.take_of_length_le, List.take_of_length_le] at same
    · exact congrArg some same
    · rw [List.length_drop, Array.length_toList]
      omega
    · rw [List.length_drop, Array.length_toList]
      omega
  | cons agrees kept nonempty way rest inductionHypothesis =>
    rw [List.flatMap_cons]
    exact .hunk agrees kept nonempty way (within.of_hunks rest) (inductionHypothesis ends within)

/-! ## Lines as they are written -/

/-- Whether a text begins neither with the rest of a terminator nor with a remark. -/
def Follows (text : Text) : Prop :=
  text.head? ≠ some '\n' ∧ text.head? ≠ some '\\'

theorem follows_nil : Follows [] := by
  simp [Follows]

theorem Follows.append {text rest : Text} (follows : Follows text) (restFollows : Follows rest) : Follows (text ++ rest) := by
  cases text with
  | nil => exact restFollows
  | cons => exact follows

theorem withoutRemarks_cons (line : Text) {rest : Text} (follows : Follows rest) :
    withoutRemarks (line :: Text.terminatedLines rest) = line :: withoutRemarks (Text.terminatedLines rest) := by
  have first := Text.head?_headD_terminatedLines rest
  cases behind : Text.terminatedLines rest with
  | nil => rfl
  | cons next others =>
    rw [behind] at first
    cases next with
    | nil => simp [withoutRemarks]
    | cons character next =>
      have other : character ≠ '\\' := fun same => follows.2 (first ▸ same ▸ rfl)
      simp [withoutRemarks, other]

/-- Whether a text in front of others is read as some lines in front of theirs. -/
structure ReadsAs (text : Text) (lines : List Text) : Prop where
  follows : Follows text
  reads : ∀ rest, Follows rest → withoutRemarks (Text.terminatedLines (text ++ rest))
    = lines ++ withoutRemarks (Text.terminatedLines rest)

namespace ReadsAs

variable {text other : Text} {otherLines : List Text}

theorem nil : ReadsAs [] [] :=
  ⟨follows_nil, fun _ _ => rfl⟩

theorem append (reads : ReadsAs text lines) (otherReads : ReadsAs other otherLines) :
    ReadsAs (text ++ other) (lines ++ otherLines) := by
  refine ⟨reads.follows.append otherReads.follows, fun rest follows => ?_⟩
  rw [List.append_assoc, reads.reads _ (otherReads.follows.append follows), otherReads.reads rest follows,
    List.append_assoc]

theorem flatMap {Item : Type} {items : List Item} {write : Item → Text} {read : Item → List Text}
    (reads : ∀ item ∈ items, ReadsAs (write item) (read item)) : ReadsAs (items.flatMap write) (items.flatMap read) := by
  induction items with
  | nil => exact nil
  | cons item items inductionHypothesis =>
    rw [List.flatMap_cons, List.flatMap_cons]
    exact (reads item List.mem_cons_self).append
      (inductionHypothesis fun other member => reads other (List.mem_cons_of_mem _ member))

/-- A terminated line is read as it is written. -/
theorem line (isLine : Text.IsLine text) (terminated : Text.isTerminated text = true) (follows : Follows text) :
    ReadsAs text [text] := by
  refine ⟨follows, fun rest restFollows => ?_⟩
  rw [isLine.terminatedLines_append terminated restFollows.1, withoutRemarks_cons text restFollows]
  rfl

end ReadsAs

/-- The signs of lines. -/
def signs : Text := [' ', '-', '+']

/-- What stands below a line that is not terminated. -/
def remark : Text := "\\ No newline at end of file\n".toList

/-- A line with its sign is read as such, whether it is terminated or not. -/
theorem readsAs_signedLine {sign : Char} (isSign : sign ∈ signs) {line : Text} (isLine : Text.IsLine line) :
    ReadsAs (signedLine sign line) [sign :: line] := by
  have others : ∀ sign ∈ signs, sign ≠ '\n' ∧ sign ≠ '\r' ∧ sign ≠ '\\' := by
    intro sign member
    simp only [signs, List.mem_cons, List.not_mem_nil, or_false] at member
    rcases member with rfl | rfl | rfl <;> decide
  obtain ⟨notFeed, notReturn, notSlash⟩ := others sign isSign
  have follows (more : Text) : Follows (sign :: more) :=
    ⟨fun same => notFeed (Option.some.inj same), fun same => notSlash (Option.some.inj same)⟩
  have signed : Text.IsLine (sign :: line) := Text.isLine_cons_iff.mpr (.inr (.inr ⟨notFeed, notReturn, .inr isLine⟩))
  have same : Text.isTerminated (sign :: line) = Text.isTerminated line := Text.isTerminated_cons sign isLine.ne_nil
  unfold signedLine
  split
  · next terminated =>
    rw [List.append_nil]
    exact .line signed (same.trans terminated) (follows line)
  · next isOpen =>
    have unterminated : Text.isTerminated (sign :: line) = false := same.trans (Bool.eq_false_iff.mpr isOpen)
    have written : (sign :: line) ++ "\n\\ No newline at end of file\n".toList = (sign :: line) ++ ['\n'] ++ remark := by
      rw [List.append_assoc]
      rfl
    rw [written]
    refine ⟨follows (line ++ ['\n'] ++ remark), fun rest restFollows => ?_⟩
    have isRemark : Text.IsLine remark := rfl
    have next : (remark ++ rest).head? ≠ some '\n' := fun same => absurd (Option.some.inj same) (by decide)
    rw [List.append_assoc, (signed.append_feed unterminated).terminatedLines_append (Text.isTerminated_append_feed _) next,
      isRemark.terminatedLines_append rfl restFollows.1]
    change List.dropLast _ :: _ = _
    rw [List.dropLast_concat]
    rfl

theorem readsAs_signedLines {sign : Char} (isSign : sign ∈ signs) {lines : Array Text}
    (areLines : ∀ line ∈ lines.toList, Text.IsLine line) (start size : Nat) :
    ReadsAs (signedLines sign lines start size) ((slice lines.toList start size).map (sign :: ·)) := by
  rw [List.map_eq_flatMap]
  exact .flatMap fun line member =>
    readsAs_signedLine isSign (areLines line (List.mem_of_mem_drop (List.mem_of_mem_take member)))

/-- Whether both sides of a comparison hold lines. -/
structure Sides.AreLines (sides : Sides) : Prop where
  old : ∀ line ∈ sides.old.toList, Text.IsLine line
  new : ∀ line ∈ sides.new.toList, Text.IsLine line

theorem readsAs_blockText (areLines : sides.AreLines) (block : Block) :
    ReadsAs (blockText sides block) (blockLines sides block) := by
  cases block with
  | keep => exact readsAs_signedLines (by decide) areLines.old _ _
  | change =>
    exact (readsAs_signedLines (by decide) areLines.old _ _).append (readsAs_signedLines (by decide) areLines.new _ _)

theorem unbroken_rangeText (start stop : Nat) : Unbroken (rangeText start stop) := by
  unfold rangeText
  extract_lets size
  split
  · exact .decimal _
  · exact (Unbroken.decimal _).append (.cons (by decide) (.decimal _))

theorem readsAs_hunkHeading {blocks : List Block} (nonempty : blocks ≠ []) :
    ReadsAs (hunkHeading blocks) [hunkHeading blocks] := by
  obtain ⟨first, rest, rfl⟩ := List.exists_cons_of_ne_nil nonempty
  obtain ⟨last, heading⟩ := exists_hunkHeading_eq first rest
  have unbroken : Unbroken ("@@ -".toList ++ rangeText first.oldStart last.oldStop ++ " +".toList
      ++ rangeText first.newStart last.newStop ++ " @@".toList) :=
    ((((show Unbroken "@@ -".toList by decide).append (unbroken_rangeText _ _)).append
      (show Unbroken " +".toList by decide)).append (unbroken_rangeText _ _)).append (by decide)
  have ends : " @@\n".toList = " @@".toList ++ ['\n'] := rfl
  rw [heading, ends, ← List.append_assoc]
  exact .line (Text.isLine_append_feed unbroken) (Text.isTerminated_append_feed _) (by simp [Follows])

theorem readsAs_hunkText (areLines : sides.AreLines) {blocks : List Block} (nonempty : blocks ≠ []) :
    ReadsAs (hunkText sides blocks) (hunkLines sides blocks) :=
  (readsAs_hunkHeading nonempty).append (.flatMap fun block _ => readsAs_blockText areLines block)

/-! ## Reading a diff -/

theorem Hunks.ne_nil_of_mem {hunks : List (List Block)} (leads : Hunks sides start hunks stop) {hunk : List Block}
    (member : hunk ∈ hunks) : hunk ≠ [] := by
  induction leads with
  | nil => exact nomatch member
  | cons _ _ nonempty _ _ inductionHypothesis =>
    rcases List.mem_cons.mp member with rfl | member
    · exact nonempty
    · exact inductionHypothesis member

/-- A diff leads from the old text to the new one. -/
theorem applied?_unified (path : Path) (old new : Text) : applied? path old (unified path old new) = some new := by
  unfold unified
  extract_lets sides label
  have leads := hunks_hunks sides
  have whole : Completes sides (0, 0) ((hunks (blocks sides)).flatMap (hunkLines sides)) := .hunks leads rfl
  have completes : patched? 0 (Text.terminatedLines old) ((hunks (blocks sides)).flatMap (hunkLines sides))
      = some (Text.terminatedLines new) := whole
  cases found : hunks (blocks sides) with
  | nil =>
    rw [found] at completes
    have same : Text.terminatedLines old = Text.terminatedLines new := Option.some.inj completes
    rw [← Text.flatten_terminatedLines old, same, Text.flatten_terminatedLines]
    rfl
  | cons hunk others =>
    -- The text of the hunks is read as their lines, and the lines lead through both sides.
    have areLines : sides.AreLines :=
      ⟨fun _ => Text.isLine_of_mem_terminatedLines, fun _ => Text.isLine_of_mem_terminatedLines⟩
    have reads : ReadsAs ((hunk :: others).flatMap (hunkText sides)) ((hunk :: others).flatMap (hunkLines sides)) :=
      .flatMap fun other member => readsAs_hunkText areLines (leads.ne_nil_of_mem (found ▸ member))
    have lines : withoutRemarks (Text.terminatedLines ((hunk :: others).flatMap (hunkText sides)))
        = (hunk :: others).flatMap (hunkLines sides) := by
      simpa [Text.terminatedLines, withoutRemarks] using reads.reads [] follows_nil
    rw [found] at completes
    dsimp only
    rw [applied?, if_neg (by simp)]
    simp only [label, Text.after?_append, lines, completes, Option.bind_eq_bind, Option.bind_some, Option.pure_def,
      Text.flatten_terminatedLines]

/-- A line put in front of another one. -/
example : unified "lib.rs" "fn lib();\n" "// Notes\nfn lib();\n"
    = "--- a/lib.rs\n+++ b/lib.rs\n@@ -1 +1,2 @@\n+// Notes\n fn lib();\n".toList := by
  decide +kernel

/-- There is nothing in a diff just if the two texts are the same. -/
theorem unified_eq_nil_iff (path : Path) (old new : Text) : unified path old new = [] ↔ old = new := by
  constructor
  · intro empty
    have applied := applied?_unified path old new
    rw [empty] at applied
    exact Option.some.inj applied
  · rintro rfl
    rw [unified, hunks_of_eq rfl]

end Masthead.Diff

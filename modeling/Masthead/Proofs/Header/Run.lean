import Masthead.Header.Engine

/-!
# Runs of edits

Headers are inserted, rendered anew and given entries in any order, and each time with templates,
decisions and an instant of their own. Whatever a run does, the code of the document stays: an edit
only puts lines between others, or replaces lines that have been checked to be a comment.
-/

namespace Masthead.Header

/-- With what a header is edited. -/
structure Setting where
  engine : Engine
  config : Config
  context : FileContext

namespace Setting

def comment (setting : Setting) : Text :=
  commentOf setting.config setting.context

end Setting

/-- What is done to a header. -/
inductive Edit
  | insert
  | update
  | addEntry (kind : EntryKind)
  deriving DecidableEq, Repr

namespace Edit

def apply (setting : Setting) (document : Document) : Edit → Document
  | insert => (setting.engine.insert setting.config setting.context document).apply document
  | update => (setting.engine.update setting.config setting.context document).apply document
  | addEntry kind => (setting.engine.insertEntry setting.config setting.context document kind).apply document

end Edit

/-- The document after some edits, each in its own setting. -/
def run (document : Document) (steps : List (Setting × Edit)) : Document :=
  steps.foldl (fun document step => step.2.apply step.1 document) document

/-- The lines that no header can hold: code, and blank lines. -/
def codeLines (comment : Text) (lines : List Text) : List Text :=
  lines.filter fun line => !isHeaderLine comment line

theorem codeLines_insertLines (comment : Text) (document : Document) (position : Nat) (added : List Text) :
    (codeLines comment document.lines).Sublist (codeLines comment (document.insertLines position added).lines) := by
  refine List.Sublist.filter _ ?_
  have around : document.lines.take position ++ document.lines.drop position = document.lines :=
    List.take_append_drop position document.lines
  conv => lhs; rw [← around]
  simp only [Document.insertLines]
  exact List.Sublist.append (List.sublist_append_left _ added) (List.Sublist.refl _)

/-- Nothing but a comment is lost where a comment block is replaced. -/
theorem codeLines_replaceLines {comment : Text} {document : Document} {bounds : Bounds}
    (block : isCommentBlock comment document.lines bounds = true) (replacement : List Text) :
    (codeLines comment document.lines).Sublist
      (codeLines comment (document.replaceLines bounds.first bounds.last replacement).lines) := by
  simp only [isCommentBlock, Bool.and_eq_true, decide_eq_true_eq, List.all_eq_true] at block
  obtain ⟨⟨ordered, -⟩, headerLines⟩ := block
  have split : document.lines
      = document.lines.take bounds.first ++ (bounds.slice document.lines ++ document.lines.drop (bounds.last + 1)) := by
    have initial : document.lines.take bounds.first = (document.lines.take (bounds.last + 1)).take bounds.first := by
      rw [List.take_take, Nat.min_eq_left ordered]
    rw [← List.append_assoc, Bounds.slice, initial, List.take_append_drop, List.take_append_drop]
  -- What is replaced has been checked line by line.
  have noCode : codeLines comment (bounds.slice document.lines) = [] := by
    rw [codeLines, List.filter_eq_nil_iff]
    intro line member
    simp [headerLines line member]
  have kept : codeLines comment document.lines
      = codeLines comment (document.lines.take bounds.first) ++ codeLines comment (document.lines.drop (bounds.last + 1)) := by
    conv => lhs; rw [split]
    simp only [codeLines, List.filter_append] at noCode ⊢
    rw [noCode, List.nil_append]
  rw [kept]
  simp only [Document.replaceLines, Nat.max_eq_right ordered, codeLines, List.filter_append]
  exact List.Sublist.append (List.sublist_append_left _ _) (List.Sublist.refl _)

theorem codeLines_insert (setting : Setting) (document : Document) (comment : Text) :
    (codeLines comment document.lines).Sublist
      (codeLines comment (Edit.insert.apply setting document).lines) := by
  simp only [Edit.apply, Engine.insert]
  split
  · exact List.Sublist.refl _
  · split
    · exact List.Sublist.refl _
    · exact codeLines_insertLines comment document _ _

theorem codeLines_update (setting : Setting) (document : Document) :
    (codeLines setting.comment document.lines).Sublist
      (codeLines setting.comment (Edit.update.apply setting document).lines) := by
  simp only [Edit.apply, Engine.update]
  split
  · -- Without a header an update is an insertion.
    have inserted := codeLines_insert setting document setting.comment
    simp only [Edit.apply] at inserted
    cases outcome : setting.engine.insert setting.config setting.context document with
    | inserted position lines notice => simpa only [outcome, Engine.asUpdate, Outcome.apply] using inserted
    | updated bounds lines => simpa only [outcome, Engine.asUpdate] using inserted
    | skipped notice => exact List.Sublist.refl _
  · split
    · exact List.Sublist.refl _
    · split
      · next bounds _ terminated =>
        simp only [Engine.isTerminated, Bool.and_eq_true] at terminated
        exact codeLines_replaceLines terminated.2 _
      · exact List.Sublist.refl _

/-- One edit keeps the code of a document. -/
theorem codeLines_apply (setting : Setting) (document : Document) (edit : Edit) :
    (codeLines setting.comment document.lines).Sublist
      (codeLines setting.comment (edit.apply setting document).lines) := by
  cases edit with
  | insert => exact codeLines_insert setting document _
  | update => exact codeLines_update setting document
  | addEntry kind => exact codeLines_insertLines _ document _ _

theorem codeLines_run {comment : Text} (steps : List (Setting × Edit)) (document : Document)
    (resolved : ∀ step ∈ steps, step.1.comment = comment) :
    (codeLines comment document.lines).Sublist (codeLines comment (run document steps).lines) := by
  induction steps generalizing document with
  | nil => exact List.Sublist.refl _
  | cons step steps inductionHypothesis =>
    have first : (codeLines comment document.lines).Sublist
        (codeLines comment (step.2.apply step.1 document).lines) := by
      have kept := codeLines_apply step.1 document step.2
      rwa [resolved step List.mem_cons_self] at kept
    exact first.trans (inductionHypothesis _ fun other member => resolved other (List.mem_cons_of_mem _ member))

/-- A run of edits loses no code. -/
theorem code_sublist_run (document : Document) (comment : Text) (steps : List (Setting × Edit))
    (resolved : ∀ step ∈ steps, step.1.comment = comment) :
    (document.lines.filter fun line => !isSeparator comment line && !isCommentLine comment line).Sublist
      (run document steps).lines := by
  have kept := codeLines_run steps document resolved
  simp only [codeLines, isHeaderLine, Bool.not_or] at kept
  exact kept.trans List.filter_sublist

/-- A header is put between code, gets an entry, and is rendered anew in a shorter style. -/
theorem code_sublist_run_below_rule :
    let context := FileContext.ofPath "rust" "/work/src/main.rs"
    let setting (style : HeaderStyle) : Setting :=
      ⟨⟨.builtin, (0 : Int)⟩, { Config.default with headerStyle := style }, context⟩
    let steps := [(setting .standard, Edit.insert), (setting .standard, .addEntry .version),
      (setting .minimal, .update), (setting .detailed, .addEntry .todo)]
    let document := Document.ofLines ["use std;", "", "========", "// Notes", "fn main();"]
    (∀ step ∈ steps, step.1.comment = "//") ∧
      ["use std;".toList, [], "fn main();".toList].Sublist (run document steps).lines := by
  intro context setting steps document
  have resolved : ∀ step ∈ steps, step.1.comment = "//" := by
    intro step member
    simp only [steps, List.mem_cons, List.not_mem_nil, or_false] at member
    rcases member with rfl | rfl | rfl | rfl <;> rfl
  exact ⟨resolved, code_sublist_run document "//" steps resolved⟩

end Masthead.Header

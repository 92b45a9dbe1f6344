import Masthead.Proofs.Header.Entry
import Masthead.Proofs.Header.Run
import Masthead.Proofs.Header.Signature
import Masthead.Proofs.Variables

/-!
# What built-in entries say

A built-in entry is the day, its number between a parenthesis and a comma, and the author. Nothing
in front of the number can be taken for one, so the number that is read in an entry is the one that
has been written into it.
-/

namespace Masthead.Header.Setting

open Text Template

variable (setting : Setting)

/-- What stands in front of the number of an entry. -/
def entryFront : Text :=
  setting.comment ++ ("      * ".toList ++ (setting.engine.now.today setting.config.timeZone ++ " : ".toList))

/-- What stands behind the number of an entry. -/
def entryEnd : Text :=
  authorName setting.config setting.context ++ ") Description".toList

def versionEntry (version : Version) : Text :=
  setting.entryFront
    ++ ('(' :: version.format setting.config.effectiveVersionFormat ++ ',' :: ("  ".toList ++ setting.entryEnd))

def todoEntry (index : Nat) : Text :=
  setting.entryFront ++ ("(ToDo#".toList ++ (Engine.numeral index ++ ',' :: (" ".toList ++ setting.entryEnd)))

variable {setting}

/-! ## Entries as they are filled in -/

theorem entryText_version
    (builtIn : setting.engine.templates.versionLine setting.config.headerStyle = builtinVersionEntry) (list : EntryList) :
    setting.engine.entryText setting.config setting.context list .version
      = setting.versionEntry (list.nextVersionFor (.shownBy setting.config.effectiveVersionFormat)) := by
  rw [Engine.entryText, builtIn, builtinVersionEntry]
  -- The four values that the row names are those of the file, of the instant and of the list.
  refine (fill_entry rfl (by decide) (by decide)).trans ?_
  simp only [versionEntry, entryFront, entryEnd, List.append_assoc, List.cons_append]
  rfl

theorem entryText_todo
    (builtIn : setting.engine.templates.todoLine setting.config.headerStyle = builtinTodoEntry) (list : EntryList) :
    setting.engine.entryText setting.config setting.context list .todo = setting.todoEntry list.nextTodoIndex := by
  rw [Engine.entryText, builtIn, builtinTodoEntry]
  refine (fill_entry rfl (by decide) (by decide)).trans ?_
  simp only [todoEntry, entryFront, entryEnd, List.append_assoc]
  rfl

/-! ## Entries as they are listed -/

theorem isWritten_entry (visible : BeginsVisibly setting.comment) (number : Text) :
    IsWritten setting.comment (setting.entryFront ++ (number ++ setting.entryEnd)) := by
  have wordy : 'D' ∈ ") Description".toList := by decide
  simp only [entryFront, entryEnd, List.append_assoc]
  refine isWritten_append visible ?_ (bullet_prefix_trim ?_)
  · simp only [List.mem_append, wordy, or_true]
  · simp only [List.mem_append, wordy, or_true]

theorem isWritten_versionEntry (visible : BeginsVisibly setting.comment) (version : Version) :
    IsWritten setting.comment (setting.versionEntry version) := by
  have written := isWritten_entry visible ('(' :: version.format setting.config.effectiveVersionFormat ++ ',' :: "  ".toList)
  rwa [List.append_assoc, List.cons_append] at written

theorem isWritten_todoEntry (visible : BeginsVisibly setting.comment) (index : Nat) :
    IsWritten setting.comment (setting.todoEntry index) := by
  have written := isWritten_entry visible ("(ToDo#".toList ++ (Engine.numeral index ++ ',' :: " ".toList))
  rwa [List.append_assoc, List.append_assoc, List.cons_append] at written

/-! ## Entries as they are read -/

theorem parenthesis_not_mem_entryFront (absent : '(' ∉ setting.comment) : '(' ∉ setting.entryFront := by
  have day : '(' ∉ setting.engine.now.today setting.config.timeZone :=
    fun member => absurd (Calendar.Moment.of_mem_format member) (by decide)
  simp only [entryFront, List.mem_append, not_or]
  exact ⟨absent, by decide, day, by decide⟩

theorem parseVersion?_versionEntry (absent : '(' ∉ setting.comment) {version read : Version}
    (accepted : parseVersion? ('(' :: version.format setting.config.effectiveVersionFormat ++ [',']) = some read) :
    parseVersion? (setting.versionEntry version) = some read :=
  parseVersion?_append (parenthesis_not_mem_entryFront absent) _ accepted

theorem parseTodo?_todoEntry (absent : '(' ∉ setting.comment) {index : Nat} (within : index ≤ numberLimit) :
    parseTodo? (setting.todoEntry index) = some index := by
  rw [todoEntry, Engine.numeral,
    parseTodo?_append (parenthesis_not_mem_entryFront absent) (areDigits_paddedDecimal 2 index)]
  exact naturalUpTo?_paddedDecimal 2 within

end Masthead.Header.Setting

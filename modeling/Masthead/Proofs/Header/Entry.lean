import Masthead.Proofs.Header.Bounds
import Masthead.Proofs.Header.Rendering

/-!
# Entries below their label

A built-in entry is a bullet of the comment that says something: it neither separates nor names
anything. It goes below the entries that its section begins with, and so into the header, since no
list reaches beyond a label or a rule.
-/

namespace Masthead

namespace Template

open Placeholder

variable {values : Variables} {comment : Text}

/-- A row with a bullet, three values and a word at its end. -/
theorem fill_entry (token : values.get? "comment" = some comment) {first second third before between : Text}
    (named : ∀ name ∈ [first, second, third], name ≠ [] ∧ name.all Text.isWord = true)
    (plain : ∀ text ∈ [before, between], '$' ∉ text) :
    values.fill (row ["      * ", value first, before, value second, between, value third, ") Description"])
      = comment ++ ("      * ".toList ++ ((values.get? first).getD (written first) ++ (before
          ++ ((values.get? second).getD (written second) ++ (between
          ++ ((values.get? third).getD (written third) ++ ") Description".toList)))))) := by
  simp only [List.mem_cons, List.not_mem_nil, or_false, forall_eq_or_imp, forall_eq] at named plain
  obtain ⟨⟨firstNonempty, firstWord⟩, ⟨secondNonempty, secondWord⟩, thirdNonempty, thirdWord⟩ := named
  rw [fill_row token]
  simp only [List.flatten_cons, List.flatten_nil, Variables.fill, value]
  rw [fill_plain_append _ _ (by decide), fill_written_append _ _ firstNonempty firstWord, fill_plain_append _ _ plain.1,
    fill_written_append _ _ secondNonempty secondWord, fill_plain_append _ _ plain.2,
    fill_written_append _ _ thirdNonempty thirdWord, fill_plain_append _ _ (by decide), fill_nil, List.append_nil]

theorem exists_fill_entry (token : values.get? "comment" = some comment) {first second third before between : Text}
    (named : ∀ name ∈ [first, second, third], name ≠ [] ∧ name.all Text.isWord = true)
    (plain : ∀ text ∈ [before, between], '$' ∉ text) :
    ∃ rest, values.fill (row ["      * ", value first, before, value second, between, value third, ") Description"])
        = comment ++ ("      * ".toList ++ rest) ∧ 'D' ∈ rest := by
  refine ⟨_, fill_entry token named plain, ?_⟩
  have last : 'D' ∈ ") Description".toList := by decide
  simp only [List.mem_append, last, or_true]

end Template

namespace Header

open Text

/-! ## What an entry is to a header -/

/-- A line that an entry may be written as. -/
structure IsWritten (comment entry : Text) : Prop where
  listed : isEntryLine comment entry = true
  inside : endsSection comment entry = false
  visible : isBlankComment comment entry = false
  wordy : isBareBullet comment entry = false

theorem not_bulleted_of_sectionLabel? {comment line : Text} {part : Section}
    (labelled : sectionLabel? comment line = some part) : ¬ ['*'] <+: commentText comment line := by
  rintro ⟨more, starEqual⟩
  obtain ⟨letter, rest, textEqual, letterly⟩ := exists_letter_of_sectionLabel? labelled
  rw [textEqual, List.singleton_append] at starEqual
  rw [← (List.cons.inj starEqual).1] at letterly
  exact absurd letterly (by decide)

/-- A bullet with a word behind it is written as an entry. -/
theorem isWritten_append {comment text : Text} (visible : BeginsVisibly comment) (wordy : 'D' ∈ text)
    (bulleted : ['*'] <+: trim text) : IsWritten comment (comment ++ text) := by
  have noSeparator : isSeparator comment (comment ++ text) = false :=
    isSeparator_append_eq_false visible wordy (by decide)
  -- The letter of the word settles that the line is no rule, not blank, and no bare bullet.
  have nonblank : isBlank text = false := isBlank_eq_false_of_mem wordy (by decide)
  have textEqual := commentText_append visible nonblank
  have wordyComment : 'D' ∈ trim text := mem_trim_of_visible wordy (by decide)
  refine ⟨?_, ?_, ?_, ?_⟩
  · simp [isEntryLine, isCommentLine_append visible, noSeparator, textEqual, startsWith_iff.mpr bulleted]
  · have unnamed : sectionLabel? comment (comment ++ text) = none := by
      cases labelled : sectionLabel? comment (comment ++ text) with
      | none => rfl
      | some part =>
        exact absurd (textEqual ▸ bulleted) (not_bulleted_of_sectionLabel? labelled)
    exact endsSection_eq_false_iff.mpr ⟨unnamed, noSeparator⟩
  · simp [isBlankComment, textEqual, List.ne_nil_of_mem wordyComment]
  · have differs (bullet : Char) (other : 'D' ≠ bullet) : trim text ≠ [bullet] := by
      intro equal
      rw [equal, List.mem_singleton] at wordyComment
      exact other wordyComment
    simp [isBareBullet, textEqual, differs 'o' (by decide), differs '*' (by decide), differs '-' (by decide)]

theorem bullet_prefix_trim {rest : Text} (wordy : 'D' ∈ rest) : ['*'] <+: trim ("      * ".toList ++ rest) := by
  have nonblank : isBlank (' ' :: rest) = false :=
    isBlank_eq_false_of_mem (List.mem_cons_of_mem _ wordy) (by decide)
  have started : trimStart ("      * ".toList ++ rest) = ['*'] ++ ' ' :: rest := by
    show trimStart ("      ".toList ++ ('*' :: ' ' :: rest)) = '*' :: ' ' :: rest
    have blank : "      ".toList.all isWhite = true := by decide
    rw [trimStart_white_append _ (List.all_eq_true.mp blank), trimStart_cons _ (by decide)]
  rw [trim, started, trimEnd_append nonblank]
  exact List.prefix_append _ _

theorem isEntryLine_eq_false_of_endsSection {comment line : Text} (ended : endsSection comment line = true) :
    isEntryLine comment line = false := by
  cases labelled : sectionLabel? comment line with
  | none =>
    have rule : isSeparator comment line = true := by simpa [endsSection, labelled] using ended
    simp [isEntryLine, rule]
  | some part =>
    have unstarred : startsWith ['*'] (commentText comment line) = false := by
      rw [Bool.eq_false_iff]
      intro starred
      exact not_bulleted_of_sectionLabel? labelled (startsWith_iff.mp starred)
    simp [isEntryLine, unstarred]

namespace Engine

theorem isWritten_entryText {now : Calendar.Instant} {config : Config} {context : FileContext}
    (visible : BeginsVisibly (commentOf config context)) (list : EntryList) (kind : EntryKind) :
    IsWritten (commentOf config context) ((builtin now).entryText config context list kind) := by
  have exists_rest : ∃ rest, (builtin now).entryText config context list kind
      = commentOf config context ++ ("      * ".toList ++ rest) ∧ 'D' ∈ rest := by
    cases kind with
    | version =>
      simp only [entryText, builtin, TemplateSet.builtin_versionLine]
      exact Template.exists_fill_entry rfl (by decide) (by decide)
    | todo =>
      simp only [entryText, builtin, TemplateSet.builtin_todoLine]
      exact Template.exists_fill_entry rfl (by decide) (by decide)
  obtain ⟨rest, equal, wordy⟩ := exists_rest
  rw [equal]
  exact isWritten_append visible (List.mem_append_right _ wordy) (bullet_prefix_trim wordy)

end Engine

/-! ## Entries in the text of a section -/

/-- The text of a section with more entries below those that it begins with. -/
def withEntries (comment : Text) (entries text : List Text) : List Text :=
  text.takeWhile (isEntryLine comment) ++ (entries ++ text.dropWhile (isEntryLine comment))

theorem withEntries_nil (comment : Text) : withEntries comment [] = id := by
  funext text
  rw [withEntries, List.nil_append, List.takeWhile_append_dropWhile, id]

theorem withEntries_append {comment : Text} (entries : List Text) {begun rest : List Text}
    (listed : ∀ entry ∈ begun, isEntryLine comment entry = true)
    (stopped : rest.head?.any (isEntryLine comment) = false) :
    withEntries comment entries (begun ++ rest) = begun ++ (entries ++ rest) := by
  rw [withEntries, takeWhile_append_of_stop listed stopped, dropWhile_append_of_stop listed stopped]

/-- A text is the entries that it begins with, and a rest that begins with none. -/
theorem exists_begun (comment : Text) (text : List Text) :
    ∃ begun rest, text = begun ++ rest ∧ (∀ entry ∈ begun, isEntryLine comment entry = true) ∧
      rest.head?.any (isEntryLine comment) = false :=
  ⟨text.takeWhile (isEntryLine comment), text.dropWhile (isEntryLine comment), List.takeWhile_append_dropWhile.symm,
    fun entry member => List.all_eq_true.mp List.all_takeWhile entry member, any_head?_dropWhile _ text⟩

theorem withEntries_withEntries {comment : Text} {entries : List Text} (more text : List Text)
    (listed : ∀ entry ∈ entries, isEntryLine comment entry = true) :
    withEntries comment more (withEntries comment entries text) = withEntries comment (entries ++ more) text := by
  obtain ⟨begun, rest, rfl, begunListed, stopped⟩ := exists_begun comment text
  have longer : ∀ entry ∈ begun ++ entries, isEntryLine comment entry = true := by
    intro entry member
    exact (List.mem_append.mp member).elim (begunListed entry) (listed entry)
  rw [withEntries_append _ begunListed stopped, withEntries_append _ begunListed stopped, ← List.append_assoc,
    withEntries_append _ longer stopped]
  simp only [List.append_assoc]

theorem mem_withEntries {comment line : Text} {entries text : List Text} :
    line ∈ withEntries comment entries text ↔ line ∈ entries ∨ line ∈ text := by
  conv => rhs; rw [← List.takeWhile_append_dropWhile (p := isEntryLine comment) (l := text)]
  simp only [withEntries, List.mem_append]
  exact or_left_comm

theorem length_withEntries (comment : Text) (entries text : List Text) :
    (withEntries comment entries text).length = text.length + entries.length := by
  conv => rhs; rw [← List.takeWhile_append_dropWhile (p := isEntryLine comment) (l := text)]
  simp only [withEntries, List.length_append]
  omega

theorem takeWhile_isEntryLine_append {comment : Text} (text : List Text) {rest : List Text}
    (ended : ∀ line, rest.head? = some line → endsSection comment line = true) :
    (text ++ rest).takeWhile (isEntryLine comment) = text.takeWhile (isEntryLine comment) := by
  cases rest with
  | nil => rw [List.append_nil]
  | cons line rest =>
    exact takeWhile_append_stop _ _ (isEntryLine_eq_false_of_endsSection (ended line rfl))

end Header

end Masthead

import Masthead.Proofs.Header.Line
import Masthead.Proofs.Header.Section
import Masthead.Proofs.Template.Fill

/-!
# Headers rendered from the built-in templates

Every built-in header lies between two rules, and all its lines are lines of the comment, whatever
the values are. A rendered header therefore stands or falls with its rule. The styles with a history
name all three sections.
-/

namespace Masthead

namespace Template

theorem comment_prefix_of_mem_builtinHeader (style : HeaderStyle) :
    ∀ line ∈ builtinHeader style, value "comment" <+: line := by
  cases style <;> decide

theorem exists_row_of_mem_builtinHeader {style : HeaderStyle} {line : Text}
    (member : line ∈ builtinHeader style) : ∃ rest, line = row [rest] := by
  obtain ⟨rest, equal⟩ := comment_prefix_of_mem_builtinHeader style line member
  exact ⟨rest, by rw [row, List.flatten_singleton, ← equal]⟩

/-- A built-in header opens and closes with a rule, and is short. -/
theorem exists_builtinHeader_inner (style : HeaderStyle) :
    ∃ inner, builtinHeader style = rule :: (inner ++ [rule]) ∧ inner.length < Header.closingWindow := by
  refine ⟨(builtinHeader style).tail.dropLast, ?_, ?_⟩ <;> cases style <;> decide

/-- The styles in which a header has a history and a to-do list. -/
def keepsHistory : HeaderStyle → Bool
  | .minimal => false
  | _ => true

/-- The line that names a section, behind the comment token. -/
def labelText : Header.Section → Text
  | .description => " Description   :"
  | .fileHistory => " File History :"
  | .todoList => " To-Do List   :"

theorem labelText_mem_builtinHeader : ∀ style ∈ HeaderStyle.all, keepsHistory style = true →
    ∀ part ∈ Header.Section.all, row [labelText part] ∈ builtinHeader style := by
  decide

theorem fill_labelText (values : Variables) (part : Header.Section) :
    values.fill [labelText part].flatten = labelText part := by
  have plain : '$' ∉ labelText part := by cases part <;> decide
  have kept := Placeholder.fill_plain_append values.get? [] plain
  rw [List.append_nil, Placeholder.fill_nil, List.append_nil] at kept
  rw [List.flatten_singleton]
  exact kept

end Template

namespace TemplateSet

theorem builtin_header (style : HeaderStyle) : builtin.header style = Template.builtinHeader style := by
  cases style <;> rfl

theorem builtin_versionLine (style : HeaderStyle) :
    builtin.versionLine style = Template.builtinVersionEntry := by
  cases style <;> decide

theorem builtin_todoLine (style : HeaderStyle) : builtin.todoLine style = Template.builtinTodoEntry := by
  cases style <;> decide

end TemplateSet

namespace Header

open Text Template

/-- The line that opens and closes a header. -/
def ruleLine (config : Config) (context : FileContext) : Text :=
  let comment := commentOf config context
  comment ++ ruleBehind comment config.separatorChar config.separatorLength

namespace Engine

/-- The engine of a user who brings no templates. -/
def builtin (now : Calendar.Instant) : Engine :=
  ⟨.builtin, now⟩

variable (engine : Engine) (now : Calendar.Instant) (config : Config) (context : FileContext)

theorem values_comment : (engine.values config context).get? "comment" = some (commentOf config context) := rfl

theorem values_separator :
    (engine.values config context).get? "separator"
      = some (ruleBehind (commentOf config context) config.separatorChar config.separatorLength) := rfl

theorem render_builtin :
    (builtin now).render config context
      = (builtinHeader config.headerStyle).map ((builtin now).values config context).fill := by
  rw [render, builtin, TemplateSet.builtin_header]

/-- Every rendered line begins with the comment token. -/
theorem comment_prefix_of_mem_render {line : Text} (member : line ∈ (builtin now).render config context) :
    commentOf config context <+: line := by
  rw [render_builtin, List.mem_map] at member
  obtain ⟨template, inTemplate, rfl⟩ := member
  obtain ⟨rest, rfl⟩ := exists_row_of_mem_builtinHeader inTemplate
  rw [fill_row (values_comment _ config context)]
  exact List.prefix_append _ _

theorem isCommentLine_of_mem_render (visible : BeginsVisibly (commentOf config context)) {line : Text}
    (member : line ∈ (builtin now).render config context) :
    isCommentLine (commentOf config context) line = true := by
  obtain ⟨rest, rfl⟩ := comment_prefix_of_mem_render now config context member
  exact isCommentLine_append visible rest

/-- A rendered header lies between two rules and fits the closing window. -/
theorem exists_render_inner :
    ∃ inner, (builtin now).render config context = ruleLine config context :: (inner ++ [ruleLine config context]) ∧
      inner.length < closingWindow := by
  obtain ⟨inner, equal, short⟩ := exists_builtinHeader_inner config.headerStyle
  refine ⟨inner.map ((builtin now).values config context).fill, ?_, by simpa using short⟩
  have ruled : ((builtin now).values config context).fill rule = ruleLine config context :=
    fill_rule (values_comment _ config context) (values_separator _ config context)
  rw [render_builtin, equal]
  simp [ruled]

theorem sectionLabel?_append_labelText {comment : Text} (visible : BeginsVisibly comment) (part : Section) :
    sectionLabel? comment (comment ++ labelText part) = some part := by
  have nonblank : isBlank (labelText part) = false := by cases part <;> decide
  rw [sectionLabel?, commentText_append visible nonblank]
  cases part <;> decide

/-- A header with a history has all three sections. -/
theorem sectionText?_render_isSome {engine : Engine} (builtIn : engine.templates = .builtin)
    (visible : BeginsVisibly (commentOf config context)) (style : keepsHistory config.headerStyle = true)
    (part : Section) :
    (sectionText? (commentOf config context) part (engine.render config context)).isSome = true := by
  obtain ⟨templates, now⟩ := engine
  cases builtIn
  have listedStyle : config.headerStyle ∈ HeaderStyle.all := by cases config.headerStyle <;> decide
  have listed : part ∈ Section.all := by cases part <;> decide
  -- The line with the label has no placeholder behind the token, so no value can change it.
  have member : commentOf config context ++ labelText part ∈ (builtin now).render config context := by
    rw [render_builtin, List.mem_map]
    refine ⟨_, labelText_mem_builtinHeader _ listedStyle style part listed, ?_⟩
    rw [fill_row (values_comment _ config context), fill_labelText]
  show (sectionText? (commentOf config context) part ((builtin now).render config context)).isSome = true
  cases text : sectionText? (commentOf config context) part ((builtin now).render config context) with
  | some body => rfl
  | none => exact absurd (sectionLabel?_append_labelText visible part) (sectionText?_eq_none text _ member)

end Engine

end Header

end Masthead

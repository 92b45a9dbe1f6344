import Masthead.Proofs.Placeholder
import Masthead.Template.Builtin
import Masthead.Variables

/-!
# Filling a row

A row of a built-in template begins with the placeholder for the comment token. So it is filled with the comment
token followed by whatever fills the rest of the row.
-/

namespace Masthead

open Text

namespace Template

/-- A row begins with the comment token. -/
theorem fill_row {values : Variables} {comment : Text} (token : values.get? "comment" = some comment)
    (parts : List Text) : values.fill (row parts) = comment ++ values.fill parts.flatten := by
  simp only [Variables.fill, row, value]
  rw [Placeholder.fill_written_append _ _ (by decide) (by decide), token, Option.getD_some]

theorem fill_rule {values : Variables} {comment separator : Text} (token : values.get? "comment" = some comment)
    (signs : values.get? "separator" = some separator) : values.fill rule = comment ++ separator := by
  rw [rule, fill_row token]
  simp only [Variables.fill, value, List.flatten_cons, List.flatten_nil]
  rw [Placeholder.fill_written_append _ _ (by decide) (by decide), signs, Option.getD_some,
    Placeholder.fill_nil, List.append_nil]

/-- A row that ends in a value behind a heading without placeholders. -/
theorem fill_row_value {values : Variables} {comment heading name text : Text}
    (token : values.get? "comment" = some comment) (plain : '$' ∉ heading) (nonempty : name ≠ [])
    (word : name.all isWord = true) (found : values.get? name = some text) :
    values.fill (row [heading, value name]) = comment ++ (heading ++ text) := by
  rw [fill_row token]
  simp only [Variables.fill, value, List.flatten_cons, List.flatten_nil]
  rw [Placeholder.fill_plain_append _ _ plain, Placeholder.fill_written_append _ _ nonempty word, found,
    Option.getD_some, Placeholder.fill_nil, List.append_nil]

end Template

end Masthead

import Masthead.Text.Numeral
import Masthead.Data.Value

/-!
# Writing JSON

A value in one line, or spread over lines with two blanks for each level.
-/

namespace Masthead.Data.Json

/-- A hexadecimal digit in lower case. -/
def hexDigit (digit : Nat) : Char :=
  if digit < 10 then Char.ofNat ('0'.toNat + digit) else Char.ofNat ('a'.toNat + digit - 10)

/-- A character within quotes. Control characters have short escapes or escapes by number. -/
def escaped (character : Char) : Text :=
  if character = '"' then "\\\""
  else if character = '\\' then "\\\\"
  else if character = '\x08' then "\\b"
  else if character = '\x0c' then "\\f"
  else if character = '\n' then "\\n"
  else if character = '\r' then "\\r"
  else if character = '\t' then "\\t"
  else if character.toNat < 0x20 then
    "\\u00".toList ++ [hexDigit (character.toNat / 16), hexDigit (character.toNat % 16)]
  else [character]

/-- A text in quotes. -/
def quotation (text : Text) : Text :=
  '"' :: (text.flatMap escaped ++ ['"'])

/-- A value that has no parts. -/
def scalar : Value → Text
  | .null => "null"
  | .boolean true => "true"
  | .boolean false => "false"
  | .integer value => Text.integer value
  | .number written => written
  | .text value => quotation value
  | .unreadable => "null"
  | .list _ => "[]"
  | .table _ => "\x7b\x7d"

mutual

/-- A value in one line. -/
def compact : Value → Text
  | .list items => '[' :: (Text.joinWith [','] (compactItems items) ++ [']'])
  | .table entries => '\x7b' :: (Text.joinWith [','] (compactEntries entries) ++ ['\x7d'])
  | value => scalar value

def compactItems : List Value → List Text
  | [] => []
  | item :: items => compact item :: compactItems items

def compactEntries : List (Text × Value) → List Text
  | [] => []
  | (key, value) :: entries =>
    (quotation key ++ (':' :: compact value)) :: compactEntries entries

end

/-- The beginning of a line of some level. -/
def lineStart (level : Nat) : Text :=
  '\n' :: List.replicate (2 * level) ' '

/-- Parts on lines of their own between two brackets. -/
def spread (opening closing : Char) (level : Nat) (parts : List Text) : Text :=
  if parts.isEmpty then [opening, closing]
  else
    let lines := parts.map fun part => lineStart (level + 1) ++ part
    opening :: (Text.joinWith [','] lines ++ lineStart level ++ [closing])

mutual

/-- A value spread over lines, where its first line stands on the given level. -/
def pretty (level : Nat) : Value → Text
  | .list items => spread '[' ']' level (prettyItems (level + 1) items)
  | .table entries => spread '\x7b' '\x7d' level (prettyEntries (level + 1) entries)
  | value => scalar value

def prettyItems (level : Nat) : List Value → List Text
  | [] => []
  | item :: items => pretty level item :: prettyItems level items

def prettyEntries (level : Nat) : List (Text × Value) → List Text
  | [] => []
  | (key, value) :: entries =>
    (quotation key ++ (": ".toList ++ pretty level value)) :: prettyEntries level entries

end

end Masthead.Data.Json

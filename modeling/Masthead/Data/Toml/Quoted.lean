import Masthead.Text.Numeral
import Masthead.Text.Pieces

/-!
# Quoted texts

Texts in double quotes know escapes, texts in single quotes do not; three quotes enclose a text of
several lines, whose first line feed does not count.
-/

namespace Masthead.Data.Toml

/-- The character of a code point that is written by `count` hexadecimal digits. -/
def codePoint? (count : Nat) (text : Text) : Option Char := do
  let digits := text.take count
  let code ← if digits.length = count then Text.natural? 16 digits else none
  -- The codes in between belong to halves of characters.
  if code < 0xd800 ∨ (0xe000 ≤ code ∧ code ≤ 0x10ffff) then some (Char.ofNat code) else none

/-- Blanks within a line. -/
def isSpace (character : Char) : Bool :=
  character == ' ' || character == '\t'

/-- Blanks and the characters of terminators. -/
def isSpaceOrFeed (character : Char) : Bool :=
  isSpace character || character == '\n' || character == '\r'

/-- How many blanks follow a backslash at the end of a line, terminators among them; none if the
line does not end there. -/
def foldedSize? (rest : Text) : Option Nat :=
  match rest.dropWhile isSpace with
  | '\n' :: _ => some (rest.takeWhile isSpaceOrFeed).length
  | '\r' :: '\n' :: _ => some (rest.takeWhile isSpaceOrFeed).length
  | _ => none

/-- The escape that a text begins with: what it stands for, if it is a right one, and its size. -/
def escape? (isMultiline : Bool) : Text → Option (Option Text × Nat)
  | '\\' :: character :: rest =>
    let single (meant : Char) : Option (Option Text × Nat) := some (some [meant], 2)
    let byCode (count : Nat) : Option (Option Text × Nat) :=
      some ((codePoint? count rest).map ([·]), count + 2)
    match character with
    | 'b' => single '\x08'
    | 't' => single '\t'
    | 'n' => single '\n'
    | 'f' => single '\x0c'
    | 'r' => single '\r'
    | 'e' => single '\x1b'
    | '"' => single '"'
    | '\\' => single '\\'
    | 'x' => byCode 2
    | 'u' => byCode 4
    | 'U' => byCode 8
    | _ =>
      match if isMultiline then foldedSize? (character :: rest) else none with
      | some size => some (some [], size + 1)
      | none => some (none, 2)
  | ['\\'] => some (none, 1)
  | _ => none

/-- Whether a character may stand in a comment or a text without being escaped. -/
def isPrintable (character : Char) : Bool :=
  character == '\t' || (0x20 ≤ character.toNat && character.toNat ≠ 0x7f)

/-- Whether every carriage return is followed by a line feed. -/
def hasWholeTerminators : Text → Bool
  | [] => true
  | '\r' :: rest => rest.head? == some '\n' && hasWholeTerminators rest
  | _ :: rest => hasWholeTerminators rest

/-- Whether a character may stand in a quoted text. -/
def isQuotable (isMultiline : Bool) (character : Char) : Bool :=
  isPrintable character || (isMultiline && (character == '\n' || character == '\r'))

/-- The text that a body stands for. -/
def meaning? (isMultiline knowsEscapes : Bool) (body : Text) : Option Text :=
  let read? (text : Text) : Option (Option Text × Nat) :=
    if knowsEscapes then escape? isMultiline text else none
  let parts := (Text.cut read? body).mapM fun
    | .plain character => if isQuotable isMultiline character then some [character] else none
    | .token meant => meant
  if hasWholeTerminators body then parts.map List.flatten else none

/-- The characters up to the closing quote, and the text behind it. -/
def body? (quote : Char) (isEscaped : Bool) : Text → Option (Text × Text)
  | [] => none
  | character :: rest =>
    if character = quote ∧ isEscaped = false then some ([], rest)
    else (body? quote (quote == '"' && character == '\\' && !isEscaped) rest).map
      fun (body, after) => (character :: body, after)

/-- The characters up to three closing quotes, and the text behind them. Two quotes more may stand
before the closing ones. -/
def longBody? (quote : Char) (isEscaped : Bool) : Text → Option (Text × Text)
  | [] => none
  | character :: rest =>
    let text := character :: rest
    if isEscaped = false ∧ Text.startsWith [quote, quote, quote] text then
      let extra := min ((text.takeWhile (· == quote)).length - 3) 2
      some (List.replicate extra quote, text.drop (3 + extra))
    else (longBody? quote (quote == '"' && character == '\\' && !isEscaped) rest).map
      fun (body, after) => (character :: body, after)

/-- The text without a terminator at its beginning. -/
def dropFirstTerminator : Text → Text
  | '\n' :: rest => rest
  | '\r' :: '\n' :: rest => rest
  | text => text

/-- A quoted text within a line, whose opening quote is already passed. -/
def short? (quote : Char) (text : Text) : Option (Text × Text) := do
  let (body, rest) ← body? quote false text
  let value ← meaning? false (quote == '"') body
  some (value, rest)

/-- A quoted text whose first opening quote is already passed. -/
def quoted? (quote : Char) (text : Text) : Option (Text × Text) :=
  match Text.after? [quote, quote] text with
  | none => short? quote text
  | some opened => do
    let (body, rest) ← longBody? quote false (dropFirstTerminator opened)
    let value ← meaning? true (quote == '"') body
    some (value, rest)

end Masthead.Data.Toml

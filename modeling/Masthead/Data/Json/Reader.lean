import Masthead.Text.Pieces
import Masthead.Data.Decimal
import Masthead.Data.Value

/-!
# Reading JSON

A reader takes a value off the beginning of a text and returns what is left. Texts are read as the
standard has it: nothing but blanks may follow the value, and strings hold no control characters.
A lone surrogate makes a string unreadable, and so does an enormous magnitude with a number.
-/

namespace Masthead.Data.Json

def isBlank (character : Char) : Bool :=
  character == ' ' || character == '\n' || character == '\t' || character == '\r'

def skipBlanks (text : Text) : Text :=
  text.dropWhile isBlank

/-! ## Strings -/

/-- The number of the four hexadecimal digits that a text begins with. -/
def codeUnit? (text : Text) : Option Nat :=
  if (text.take 4).length = 4 then Text.natural? 16 (text.take 4) else none

/-- What an escape stands for. -/
inductive Escape
  | character (character : Char)
  /-- A surrogate without the other half of its pair. -/
  | half
  /-- No escape at all. -/
  | malformed
  deriving DecidableEq, Repr

/-- The low surrogate of an escape that a text begins with. -/
def lowSurrogate? (text : Text) : Option Nat :=
  ((Text.after? "\\u" text).bind codeUnit?).filter fun unit => 0xdc00 ≤ unit && unit ≤ 0xdfff

/-- The escape by code unit whose digits `rest` begins with, and its size. A high surrogate and a
low one behind it stand for one character. -/
def escapedUnit (rest : Text) : Escape × Nat :=
  match codeUnit? rest with
  | none => (.malformed, 6)
  | some unit =>
    if unit < 0xd800 ∨ 0xdfff < unit then (.character (Char.ofNat unit), 6)
    else if 0xdc00 ≤ unit then (.half, 6)
    else match lowSurrogate? (rest.drop 4) with
      | some low =>
        (.character (Char.ofNat (0x10000 + (unit - 0xd800) * 0x400 + (low - 0xdc00))), 12)
      | none => (.half, 6)

/-- The escape that a text begins with, and its size. -/
def escape? : Text → Option (Escape × Nat)
  | '\\' :: 'u' :: rest => some (escapedUnit rest)
  | '\\' :: '"' :: _ => some (.character '"', 2)
  | '\\' :: '\\' :: _ => some (.character '\\', 2)
  | '\\' :: '/' :: _ => some (.character '/', 2)
  | '\\' :: 'b' :: _ => some (.character '\x08', 2)
  | '\\' :: 'f' :: _ => some (.character '\x0c', 2)
  | '\\' :: 'n' :: _ => some (.character '\n', 2)
  | '\\' :: 'r' :: _ => some (.character '\r', 2)
  | '\\' :: 't' :: _ => some (.character '\t', 2)
  | '\\' :: _ => some (.malformed, 2)
  | _ => none

/-- The characters up to the closing quote, and the text behind it. -/
def quoted? (isEscaped : Bool) : Text → Option (Text × Text)
  | [] => none
  | character :: rest =>
    if character = '"' ∧ isEscaped = false then some ([], rest)
    else (quoted? (character == '\\' && !isEscaped) rest).map fun (body, after) =>
      (character :: body, after)

/-- What a string holds: a text, unless a half of a character is in it. -/
abbrev Content := Option Text

/-- What the body of a string stands for, if it is well formed. -/
def content? (body : Text) : Option Content :=
  let pieces := Text.cut escape? body
  let isSound : Text.Piece Escape → Bool
    | .plain character => 0x20 ≤ character.toNat
    | .token escape => escape ≠ .malformed
  let character? : Text.Piece Escape → Option Char
    | .plain character => some character
    | .token (.character character) => some character
    -- A half of a character is well formed, but it leaves no text to return.
    | .token _ => none
  if pieces.all isSound then some (pieces.mapM character?) else none

/-- A string whose opening quote is already passed. -/
def string? (text : Text) : Option (Content × Text) := do
  let (body, rest) ← quoted? false text
  let content ← content? body
  some (content, rest)

def stringValue : Content → Value
  | some text => .text text
  | none => .unreadable

/-! ## Numbers -/

def takeDigits (text : Text) : Text × Text :=
  (text.takeWhile Char.isDigit, text.dropWhile Char.isDigit)

/-- The fraction that a text begins with, which may be empty. -/
def fraction? : Text → Option (Text × Text)
  | '.' :: rest =>
    let (digits, after) := takeDigits rest
    if digits.isEmpty then none else some ('.' :: digits, after)
  | text => some ([], text)

/-- The exponent that a text begins with, which may be empty. -/
def exponent? : Text → Option (Text × Text)
  | character :: rest =>
    if character = 'e' ∨ character = 'E' then
      let (sign, unsigned) := match rest with
        | '+' :: more => (['+'], more)
        | '-' :: more => (['-'], more)
        | more => ([], more)
      let (digits, after) := takeDigits unsigned
      if digits.isEmpty then none else some (character :: sign ++ digits, after)
    else some ([], character :: rest)
  | [] => some ([], [])

/-- The value of a numeral that is not the numeral of an integer. -/
def fractional (numeral : Text) : Value :=
  if (Decimal.ofNumeral numeral).isOverflowing then .unreadable else .number numeral

/-- The value of a number without fraction and exponent. A negative zero and what lies beyond 64
bits are no integers. -/
def wholeNumber (isNegative : Bool) (digits : Text) : Value :=
  let magnitude := (Text.natural? 10 digits).getD 0
  if isNegative then
    if magnitude = 0 ∨ magnitude > 9223372036854775808 then fractional ('-' :: digits)
    else .integer (-(magnitude : Int))
  else if magnitude > 18446744073709551615 then fractional digits
  else .integer magnitude

def number? (text : Text) : Option (Value × Text) := do
  let (isNegative, unsigned) := match text with
    | '-' :: rest => (true, rest)
    | _ => (false, text)
  let (digits, afterDigits) := takeDigits unsigned
  if digits.isEmpty || (digits.head? == some '0' && 1 < digits.length) then none
  else
    let (fraction, afterFraction) ← fraction? afterDigits
    let (exponent, rest) ← exponent? afterFraction
    if fraction.isEmpty && exponent.isEmpty then some (wholeNumber isNegative digits, rest)
    else
      let sign : Text := if isNegative then ['-'] else []
      some (fractional (sign ++ digits ++ fraction ++ exponent), rest)

/-! ## Values -/

/-- A word such as `true`, and the value that it stands for. -/
def words : List (Text × Value) :=
  [("null", .null), ("true", .boolean true), ("false", .boolean false)]

def word? (text : Text) : Option (Value × Text) :=
  words.findSome? fun (word, value) => (Text.after? word text).map fun rest => (value, rest)

/-- The table of the entries whose keys are given; with an unreadable key it is unreadable. -/
def tableOf (entries : List (Content × Value)) : Value :=
  match entries.mapM fun entry => entry.1.map fun key => (key, entry.2) with
  | some entries => .table entries
  | none => .unreadable

mutual

/-- The value that a text begins with. `steps` bounds the recursion. -/
def value? (steps : Nat) (text : Text) : Option (Value × Text) :=
  match steps with
  | 0 => none
  | steps + 1 =>
    match skipBlanks text with
    | [] => none
    | character :: rest =>
      if character = '"' then
        (string? rest).map fun (content, after) => (stringValue content, after)
      else if character = '[' then
        match skipBlanks rest with
        | ']' :: after => some (.list [], after)
        | first => items? steps [] first
      else if character = '\x7b' then
        match skipBlanks rest with
        | '\x7d' :: after => some (.table [], after)
        | first => entries? steps [] first
      else if character = '-' ∨ character.isDigit then number? (character :: rest)
      else word? (character :: rest)

/-- The items of a list behind those already read, the last of which stands first in `read`. -/
def items? (steps : Nat) (read : List Value) (text : Text) : Option (Value × Text) :=
  match steps with
  | 0 => none
  | steps + 1 =>
    match value? steps text with
    | none => none
    | some (item, rest) =>
      match skipBlanks rest with
      | ',' :: next => items? steps (item :: read) next
      | ']' :: after => some (.list (item :: read).reverse, after)
      | _ => none

/-- The entries of a table behind those already read, the last of which stands first in `read`. -/
def entries? (steps : Nat) (read : List (Content × Value)) (text : Text) :
    Option (Value × Text) :=
  match steps with
  | 0 => none
  | steps + 1 =>
    match skipBlanks text with
    | '"' :: opened =>
      match string? opened with
      | none => none
      | some (key, afterKey) =>
        match skipBlanks afterKey with
        | ':' :: afterColon =>
          match value? steps afterColon with
          | none => none
          | some (value, rest) =>
            match skipBlanks rest with
            | ',' :: next => entries? steps ((key, value) :: read) next
            | '\x7d' :: after => some (tableOf ((key, value) :: read).reverse, after)
            | _ => none
        | _ => none
    | _ => none

end

/-- The value of a whole text. What is unreadable in it can still be passed over. -/
def parse? (text : Text) : Option Value :=
  match value? (2 * text.length + 2) text with
  | some (value, rest) => if (skipBlanks rest).isEmpty then some value else none
  | none => none

/-- How deep lists and tables may be nested in a value that is read as a whole. -/
def nestingLimit : Nat := 127

/-- The value of a whole text in which everything is readable. -/
def parseWhole? (text : Text) : Option Value :=
  (parse? text).filter fun value => value.isReadable && decide (value.depth ≤ nestingLimit)

def isNothing : Value → Bool
  | .null => true
  | _ => false

end Masthead.Data.Json

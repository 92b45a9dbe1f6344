import Masthead.Data.Toml.Tree
import Masthead.Data.Toml.Scalar
import Masthead.Data.Toml.Quoted

/-!
# Reading TOML

A document is a sequence of lines, each a header, an assignment or nothing. Headers say which table
the assignments below them belong to.
-/

namespace Masthead.Data.Toml

def skipSpaces (text : Text) : Text :=
  text.dropWhile isSpace

/-- What follows the terminator that a text begins with. -/
def behindTerminator? : Text → Option Text
  | '\n' :: rest => some rest
  | '\r' :: '\n' :: rest => some rest
  | _ => none

/-- What follows the comment that a text begins with, up to the end of the line. -/
def behindComment? : Text → Option Text
  | '#' :: rest =>
    let isInLine (character : Char) : Bool := character != '\n' && character != '\r'
    if (rest.takeWhile isInLine).all isPrintable then some (rest.dropWhile isInLine) else none
  | text => some text

/-- What follows blanks, comments and terminators. -/
def skipLines? (steps : Nat) (text : Text) : Option Text :=
  match steps with
  | 0 => none
  | steps + 1 =>
    match behindComment? (skipSpaces text) with
    | none => none
    | some rest =>
      match behindTerminator? rest with
      | some next => skipLines? steps next
      | none => some rest

/-- The next line, where nothing but a comment is left on this one. -/
def nextLine? (text : Text) : Option Text :=
  match behindComment? (skipSpaces text) with
  | some [] => some []
  | some rest => behindTerminator? rest
  | none => none

/-! ## Keys -/

def isBareKey (character : Char) : Bool :=
  character.isAlphanum || character == '_' || character == '-'

def simpleKey? : Text → Option (Text × Text)
  | '"' :: rest => short? '"' rest
  | '\'' :: rest => short? '\'' rest
  | text =>
    let key := text.takeWhile isBareKey
    if key.isEmpty then none else some (key, text.dropWhile isBareKey)

/-- Parts of a key, joined by dots with blanks between them. -/
def parts? (steps : Nat) (text : Text) : Option (List Text × Text) :=
  match steps with
  | 0 => none
  | steps + 1 =>
    match simpleKey? (skipSpaces text) with
    | none => none
    | some (part, rest) =>
      match skipSpaces rest with
      | '.' :: more => (parts? steps more).map fun (parts, after) => (part :: parts, after)
      | after => some ([part], after)

/-- How deep lists and tables may be nested, and how many parts a key may have. -/
def nestingLimit : Nat := 80

/-- A key of parts joined by dots, with blanks between them. -/
def key? (text : Text) : Option (List Text × Text) :=
  (parts? (text.length + 1) text).filter fun (parts, _) => decide (parts.length ≤ nestingLimit)

/-! ## Values -/

mutual

/-- The value that a text begins with. `steps` bounds the recursion and `depth` the nesting. -/
def value? (steps depth : Nat) (text : Text) : Option (Value × Text) :=
  match steps with
  | 0 => none
  | steps + 1 =>
    match text with
    | '"' :: rest => (quoted? '"' rest).map fun (value, after) => (.text value, after)
    | '\'' :: rest => (quoted? '\'' rest).map fun (value, after) => (.text value, after)
    | '[' :: rest => if depth = 0 then none else items? steps (depth - 1) [] rest
    | '\x7b' :: rest => if depth = 0 then none else fields? steps (depth - 1) [] rest
    | _ => readBare? text

/-- The items of a list behind those already read, the last of which stands first in `read`. -/
def items? (steps depth : Nat) (read : List Value) (text : Text) : Option (Value × Text) :=
  match steps with
  | 0 => none
  | steps + 1 =>
    match skipLines? (text.length + 1) text with
    | none => none
    | some (']' :: after) => some (.list read.reverse, after)
    | some first =>
      match value? steps depth first with
      | none => none
      | some (item, rest) =>
        match skipLines? (rest.length + 1) rest with
        | some (',' :: next) => items? steps depth (item :: read) next
        | some (']' :: after) => some (.list (item :: read).reverse, after)
        | _ => none

/-- The fields of a table in braces behind those already read. A field may go over several
lines. -/
def fields? (steps depth : Nat) (read : Entries) (text : Text) : Option (Value × Text) :=
  match steps with
  | 0 => none
  | steps + 1 =>
    match skipLines? (text.length + 1) text with
    | none => none
    | some ('\x7d' :: after) => some (.table (finishedEntries read), after)
    | some first =>
      match key? first with
      | none => none
      | some (key, afterKey) =>
        match skipLines? (afterKey.length + 1) afterKey with
        | some ('=' :: afterSign) =>
          match (skipLines? (afterSign.length + 1) afterSign).bind (value? steps depth) with
          | none => none
          | some (value, rest) =>
            match Entries.assign? value key read, skipLines? (rest.length + 1) rest with
            | some entries, some (',' :: next) => fields? steps depth entries next
            | some entries, some ('\x7d' :: after) =>
              some (.table (finishedEntries entries), after)
            | _, _ => none
        | _ => none

end

/-! ## Documents -/

/-- What has been read of a document: its tables, and the path of the one that is open. -/
structure Progress where
  entries : Entries
  openPath : List Text

/-- A header whose first bracket is already passed. A second bracket begins a table of a list. -/
def header? (progress : Progress) (text : Text) : Option (Progress × Text) := do
  let (isItem, afterBrackets) := match text with
    | '[' :: rest => (true, rest)
    | _ => (false, text)
  let (path, rest) ← key? afterBrackets
  let after ← Text.after? (if isItem then "]]" else "]") rest
  let last ← path.getLast?
  let change := if isItem then Entries.openItem? last else Entries.openTable? last
  let entries ← Entries.changeAt? change path.dropLast progress.entries
  some (⟨entries, path⟩, after)

/-- An assignment of a value to a key of the open table. -/
def assignment? (progress : Progress) (text : Text) : Option (Progress × Text) := do
  let (key, rest) ← key? text
  let afterSign ← Text.after? "=" rest
  -- Two steps at most are taken for one character: one at a list and one at its first item.
  let (value, after) ← value? (2 * text.length + 2) nestingLimit (skipSpaces afterSign)
  let entries ←
    Entries.changeAt? (Entries.assign? value key) progress.openPath progress.entries
  some (⟨entries, progress.openPath⟩, after)

/-- Reads lines up to the end of the document. -/
def lines? (steps : Nat) (progress : Progress) (text : Text) : Option Entries :=
  match steps with
  | 0 => none
  | steps + 1 =>
    match skipLines? (text.length + 1) text with
    | none => none
    | some [] => some progress.entries
    | some (character :: rest) =>
      let line? :=
        if character = '[' then header? progress rest
        else assignment? progress (character :: rest)
      match line? with
      | none => none
      | some (progress, after) =>
        match nextLine? after with
        | none => none
        | some next => lines? steps progress next

/-- The table of a whole document, which may begin with a byte order mark. -/
def parse? (text : Text) : Option Value :=
  let body := (Text.after? ['\ufeff'] text).getD text
  (lines? (body.length + 1) ⟨[], []⟩ body).map fun entries => .table (finishedEntries entries)

def isNothing : Value → Bool
  | .list [] => true
  | .table [] => true
  | _ => false

end Masthead.Data.Toml

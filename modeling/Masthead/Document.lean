import Masthead.Text.Basic

/-!
# Documents

A document is the list of its lines. It remembers which terminator its text used and whether the
last line was terminated, so that a text written back keeps the conventions it was read with.
-/

namespace Masthead

/-- The terminator of a document's lines. -/
inductive LineEnding
  | lf
  | crlf
  deriving DecidableEq, Repr

namespace LineEnding

def text : LineEnding → Text
  | lf => ['\n']
  | crlf => ['\r', '\n']

/-- The first terminator of a text decides, where `before` is the character already passed. -/
def detectAfter (before : Option Char) : Text → LineEnding
  | [] => lf
  | '\n' :: _ => if before = some '\r' then crlf else lf
  | character :: rest => detectAfter (some character) rest

/-- The ending that a text uses; one without any terminator counts as `lf`. -/
def detect (text : Text) : LineEnding :=
  detectAfter none text

end LineEnding

/-- The lines of a text, without their terminators. -/
structure Document where
  lines : List Text
  ending : LineEnding
  terminated : Bool
  deriving DecidableEq, Repr

namespace Document

/-- The line without one carriage return at its end. -/
def dropReturn (line : Text) : Text :=
  if line.getLast? = some '\r' then line.dropLast else line

/-- The text without one line feed at its end. -/
def dropFeed (text : Text) : Text :=
  if text.getLast? = some '\n' then text.dropLast else text

/-- Reads a text. The empty text counts as terminated, so lines put into it end in a terminator. -/
def parse (text : Text) : Document where
  lines := if text.isEmpty then [] else (Text.splitOn '\n' (dropFeed text)).map dropReturn
  ending := LineEnding.detect text
  terminated := text.isEmpty || text.getLast? == some '\n'

/-- A terminated document of the given lines. -/
def ofLines (lines : List Text) : Document :=
  ⟨lines, .lf, true⟩

/-- The number of lines. -/
def length (document : Document) : Nat :=
  document.lines.length

def isEmpty (document : Document) : Bool :=
  document.lines.isEmpty

/-- Puts lines before the line at `position`, or at the end if there is no such line. -/
def insertLines (document : Document) (position : Nat) (added : List Text) : Document :=
  { document with lines := document.lines.take position ++ added ++ document.lines.drop position }

/-- Replaces the lines from `first` to `last`, both included, as far as they exist. -/
def replaceLines (document : Document) (first last : Nat) (replacement : List Text) : Document :=
  { document with
    lines := document.lines.take first ++ replacement
      ++ document.lines.drop (max first (last + 1)) }

/-- Replaces one line; nothing happens if it does not exist. -/
def setLine (document : Document) (position : Nat) (line : Text) : Document :=
  { document with lines := document.lines.set position line }

/-- The lines joined with the document's own conventions. -/
def toText (document : Document) : Text :=
  let joined := Text.joinWith document.ending.text document.lines
  if document.terminated && !document.lines.isEmpty then joined ++ document.ending.text else joined

end Document

end Masthead

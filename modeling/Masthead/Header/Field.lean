import Masthead.Text.Word
import Masthead.Text.White

/-!
# Labelled values

A field of a header is a label with a colon and a value behind it. The label begins a word, and
the value reaches to the end of the line without the blanks there.
-/

namespace Masthead.Header

/-- How a field is written. -/
structure FieldShape where
  labels : List Text
  /-- The blanks that may stand between the colon and the value. -/
  isGap : Char → Bool
  /-- Whether something must stand behind the colon. -/
  needsValue : Bool

namespace FieldShape

/-- A line cut at the beginning of a field's value. -/
structure Cut where
  head : Text
  value : Text
  deriving DecidableEq, Repr

/-- The label, the blanks behind it and the colon that a text begins with, and what follows. -/
def colonBehind? (label text : Text) : Option (Text × Text) :=
  match Text.after? label text with
  | none => none
  | some rest =>
    match rest.dropWhile Text.isWhite with
    | ':' :: more => some (label ++ rest.takeWhile Text.isWhite ++ [':'], more)
    | _ => none

/-- Cuts a text that begins with the field. -/
def cutHere? (shape : FieldShape) (text : Text) : Option Cut :=
  match shape.labels.findSome? fun label => colonBehind? label text with
  | none => none
  | some (head, rest) =>
    let value := Text.trimEnd (rest.dropWhile shape.isGap)
    if value.contains '\n' || (shape.needsValue && value.isEmpty) then none
    else some ⟨head ++ rest.takeWhile shape.isGap, value⟩

/-- Cuts a line at its first field, where `before` is the character already passed. -/
def cutAfter? (shape : FieldShape) (before : Option Char) : Text → Option Cut
  | [] => none
  | character :: rest =>
    let text := character :: rest
    let here? := if Text.atWordBoundary before text then shape.cutHere? text else none
    match here? with
    | some found => some found
    | none =>
      -- The text before a field lies within one line.
      if character = '\n' then none
      else (cutAfter? shape (some character) rest).map fun found =>
        { found with head := character :: found.head }

/-- Cuts a line at the value of its first field. -/
def cut? (shape : FieldShape) (line : Text) : Option Cut :=
  shape.cutAfter? none line

end FieldShape

end Masthead.Header

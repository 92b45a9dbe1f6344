import Masthead.Text.Word
import Masthead.Text.Pieces

/-!
# Placeholders

A template is a text with placeholders: a name of word characters in braces behind a dollar sign.
Filling a template replaces every placeholder whose name has a value. Values are not read again,
and a placeholder without a value stays as it is, so that a later reader still sees it.
-/

namespace Masthead.Placeholder

/-- A placeholder as it is written. -/
def written (name : Text) : Text :=
  '$' :: '\x7b' :: (name ++ ['\x7d'])

/-- The name of the placeholder that the text begins with. -/
def name? : Text → Option Text
  | '$' :: '\x7b' :: rest =>
    let name := rest.takeWhile Text.isWord
    if name ≠ [] ∧ (rest.dropWhile Text.isWord).head? = some '\x7d' then some name else none
  | _ => none

/-- The placeholder at the beginning of a text, with the characters it takes. -/
def read? (text : Text) : Option (Text × Nat) :=
  (name? text).map fun name => (name, (written name).length)

/-- A template cut into placeholders and plain characters. -/
def pieces (template : Text) : List (Text.Piece Text) :=
  Text.cut read? template

/-- The template with every placeholder replaced whose name has a value. -/
def fill (value? : Text → Option Text) (template : Text) : Text :=
  Text.render (fun name => (value? name).getD (written name)) (pieces template)

/-- Whether a placeholder stands somewhere in the text. -/
def occurs (text : Text) : Bool :=
  !(Text.tokens (pieces text)).isEmpty

end Masthead.Placeholder

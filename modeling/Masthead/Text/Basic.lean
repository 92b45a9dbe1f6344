/-!
# Text

Text is a list of characters, so that reading it is recursion on its structure. This module holds
the operations that do not depend on what kind of character stands where: taking a text apart at
its beginning, searching it, splitting it at a character, and comparing two texts.
-/

namespace Masthead

/-- A text, read character by character. -/
abbrev Text := List Char

instance : Coe String Text := ⟨String.toList⟩

namespace Text

/-- Renders a text for display. -/
def toString (text : Text) : String := String.ofList text

/-- The number of bytes that hold a text. -/
def byteCount (text : Text) : Nat :=
  text.foldl (fun count character => count + character.utf8Size) 0

/-- What follows `lead`, if the text begins with it. -/
def after? : (lead text : Text) → Option Text
  | [], text => some text
  | _ :: _, [] => none
  | expected :: lead, character :: text =>
    if expected = character then after? lead text else none

theorem after?_eq_some_iff {lead text rest : Text} :
    after? lead text = some rest ↔ text = lead ++ rest := by
  induction lead generalizing text with
  | nil => simp [after?, eq_comm]
  | cons expected lead inductionHypothesis =>
    cases text with
    | nil => simp [after?]
    | cons character text =>
      by_cases same : expected = character
      · subst same
        simp [after?, inductionHypothesis]
      · simp [after?, same, eq_comm]

/-- Whether the text begins with `lead`. -/
def startsWith (lead text : Text) : Bool :=
  (after? lead text).isSome

/-- Whether `needle` stands somewhere in the text. -/
def holds (needle : Text) : Text → Bool
  | [] => needle.isEmpty
  | character :: rest => startsWith needle (character :: rest) || holds needle rest

/-- The pieces between the occurrences of `separator`; a text without it is one piece. -/
def splitOn (separator : Char) (text : Text) : List Text :=
  text.foldr (fun character pieces =>
    if character = separator then [] :: pieces
    else match pieces with
      | [] => [[character]]
      | first :: others => (character :: first) :: others) [[]]

def replace (old new : Char) (text : Text) : Text :=
  text.map fun character => if character = old then new else character

/-- The order of texts by code points, an initial part before the longer text. -/
def lessOrEqual : Text → Text → Bool
  | [], _ => true
  | _ :: _, [] => false
  | first :: text, second :: other =>
    if first = second then lessOrEqual text other else first < second

/-- The texts with `separator` between each two of them. -/
def joinWith (separator : Text) : List Text → Text
  | [] => []
  | [text] => text
  | text :: others => text ++ (separator ++ joinWith separator others)

end Text

/-- The first value listed under `key`. -/
def valueOf? {Value : Type} (key : Text) (entries : List (Text × Value)) : Option Value :=
  (entries.find? fun entry => entry.1 == key).map (·.2)

end Masthead

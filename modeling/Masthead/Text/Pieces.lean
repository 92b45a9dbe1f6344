import Masthead.Text.Basic

/-!
# Tokens within text

A template is plain text with tokens in it. Cutting a text finds its tokens from left to right,
each at the first place where one can be read, and keeps the characters between them. Tokens never
overlap.
-/

namespace Masthead.Text

/-- A part of a text: a token or a plain character. -/
inductive Piece (Token : Type)
  | plain (character : Char)
  | token (token : Token)
  deriving DecidableEq, Repr

/-- Cuts a text whose first `skip` characters belong to a token already found. -/
def cutAfter {Token : Type} (read? : Text → Option (Token × Nat)) : Nat → Text → List (Piece Token)
  | _, [] => []
  | skip + 1, _ :: rest => cutAfter read? skip rest
  | 0, character :: rest =>
    match read? (character :: rest) with
    | some (token, size) => .token token :: cutAfter read? (size - 1) rest
    | none => .plain character :: cutAfter read? 0 rest

/-- The tokens of a text and the characters between them. `read?` finds the token that a text
begins with and says how many characters it takes. -/
def cut {Token : Type} (read? : Text → Option (Token × Nat)) (text : Text) : List (Piece Token) :=
  cutAfter read? 0 text

/-- The text in which every token is written by `write`. -/
def render {Token : Type} (write : Token → Text) (pieces : List (Piece Token)) : Text :=
  pieces.flatMap fun
    | .plain character => [character]
    | .token token => write token

/-- The tokens alone, in their order. -/
def tokens {Token : Type} (pieces : List (Piece Token)) : List Token :=
  pieces.filterMap fun
    | .plain _ => none
    | .token token => some token

theorem cutAfter_eq_cut_drop {Token : Type} (read? : Text → Option (Token × Nat)) (skip : Nat)
    (text : Text) : cutAfter read? skip text = cut read? (text.drop skip) := by
  induction text generalizing skip with
  | nil => simp [cut, cutAfter]
  | cons character rest inductionHypothesis =>
    cases skip with
    | zero => rfl
    | succ skip => simpa [cutAfter] using inductionHypothesis skip

end Masthead.Text

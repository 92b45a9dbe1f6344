import Masthead.Text.White

/-!
# Lines of a comment

What a line is to a header: a rule that opens, divides or closes it, a line of the comment, or
neither. A rule is recognised by its characters alone or together with the comment token.
-/

namespace Masthead.Header

/-- The least number of equal characters in a rule. -/
def minimalRule : Nat := 4

/-- Characters that a decorative rule begins with. -/
def isDecoration (character : Char) : Bool :=
  "/*#%-+=".toList.contains character

/-- Characters that the end of a decorative rule is made of. -/
def isTrailingDecoration (character : Char) : Bool :=
  "-+=".toList.contains character || Text.isWhite character

def isPunctuation (character : Char) : Bool :=
  0x21 ≤ character.toNat && character.toNat ≤ 0x7e && !character.isAlphanum

/-- A rule that needs no comment token: decorations, and behind them signs and blanks. -/
def isDecorativeRule (trimmed : Text) : Bool :=
  minimalRule ≤ (trimmed.takeWhile isDecoration).length
    && (trimmed.dropWhile isDecoration).all isTrailingDecoration

/-- Whether a text repeats one punctuation character often enough for a rule. -/
def isRepeatedSign : Text → Bool
  | [] => false
  | sign :: rest =>
    isPunctuation sign && rest.all (· == sign) && minimalRule ≤ rest.length + 1

/-- A rule that stands directly behind the comment token. -/
def isTokenRule (comment trimmed : Text) : Bool :=
  !comment.isEmpty && (Text.after? comment trimmed).any isRepeatedSign

/-- Whether a line separates a header from what is around it, or its parts from each other. -/
def isSeparator (comment line : Text) : Bool :=
  let trimmed := Text.trim line
  isDecorativeRule trimmed || isTokenRule comment trimmed

/-- Whether a line begins with the comment token, behind its indentation. -/
def isCommentLine (comment line : Text) : Bool :=
  !comment.isEmpty && Text.startsWith comment (Text.trimStart line)

/-- The text of a line without indentation, comment token and blanks around it. -/
def commentText (comment line : Text) : Text :=
  let trimmed := Text.trim line
  if comment.isEmpty then trimmed
  else Text.trim ((Text.after? comment trimmed).getD trimmed)

/-- Whether a line says nothing, comment token apart. -/
def isBlankComment (comment line : Text) : Bool :=
  (commentText comment line).isEmpty

/-- Whether a line may stand inside a header. -/
def isHeaderLine (comment line : Text) : Bool :=
  isSeparator comment line || isCommentLine comment line

/-- Whether a line is a rule of a header in its own comment. -/
def isCommentRule (comment line : Text) : Bool :=
  isCommentLine comment line && isSeparator comment line

end Masthead.Header

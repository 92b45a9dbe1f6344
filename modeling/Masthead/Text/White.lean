import Masthead.Text.Basic

/-!
# White space

The characters that count as blank, and texts without the blanks at their ends.
-/

namespace Masthead.Text

/-- Characters with the white-space property. -/
def isWhite (character : Char) : Bool :=
  let code := character.toNat
  (0x9 ≤ code && code ≤ 0xd) || code == 0x20 || code == 0x85 || code == 0xa0 || code == 0x1680
    || (0x2000 ≤ code && code ≤ 0x200a) || code == 0x2028 || code == 0x2029 || code == 0x202f
    || code == 0x205f || code == 0x3000

/-- The text without leading white space. -/
def trimStart (text : Text) : Text :=
  text.dropWhile isWhite

/-- The text without trailing white space. -/
def trimEnd (text : Text) : Text :=
  (text.reverse.dropWhile isWhite).reverse

/-- The text without white space at either end. -/
def trim (text : Text) : Text :=
  trimEnd (trimStart text)

/-- Whether nothing but white space stands in the text. -/
def isBlank (text : Text) : Bool :=
  text.all isWhite

/-- The text itself, unless it is blank. -/
def nonBlank? (text : Text) : Option Text :=
  if isBlank text then none else some text

end Masthead.Text

/-!
# Code point ranges

A character property beyond the first 128 code points is given as a sorted list of closed ranges.
-/

namespace Masthead.Text

/-- Closed ranges of code points. -/
abbrev CodeRanges := List (Nat × Nat)

/-- Whether some range holds the code point of `character`. -/
def CodeRanges.holds (ranges : CodeRanges) (character : Char) : Bool :=
  ranges.any fun range => range.1 ≤ character.toNat && character.toNat ≤ range.2

end Masthead.Text

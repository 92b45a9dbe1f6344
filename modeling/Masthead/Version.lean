import Masthead.Text.Numeral
import Masthead.Text.Pieces

/-!
# Version numbers

A version is a triple of numbers. A format shows some of its fields; counting upwards happens in
the lowest field that is shown, so that the next version always reads differently.
-/

namespace Masthead

/-- The largest number that an entry carries; counting stops there. -/
def numberLimit : Nat := 4294967295

/-- The number after `number`, or `number` itself at the limit. -/
def nextNumber (number : Nat) : Nat :=
  min (number + 1) numberLimit

/-- A version number, compared field by field from the major number on. -/
structure Version where
  major : Nat
  minor : Nat
  patch : Nat
  deriving DecidableEq, Repr

/-- The fields of a version that a format shows. -/
structure VersionFields where
  major : Bool
  minor : Bool
  patch : Bool
  deriving DecidableEq, Repr

namespace Version

/-- The version of a history's first entry. -/
def initial : Version := ⟨1, 0, 0⟩

/-- The lexicographic order, major number first. -/
def lessThan (version other : Version) : Bool :=
  version.major < other.major
    || (version.major == other.major
      && (version.minor < other.minor
        || (version.minor == other.minor && version.patch < other.patch)))

def greater (version other : Version) : Version :=
  if version.lessThan other then other else version

/-- The version with the fields set to zero that are not shown. -/
def masked (version : Version) (fields : VersionFields) : Version where
  major := if fields.major then version.major else 0
  minor := if fields.minor then version.minor else 0
  patch := if fields.patch then version.patch else 0

/-- Counts up the lowest shown field and sets the fields below it to zero. -/
def bump (version : Version) (fields : VersionFields) : Version :=
  if fields.patch then { version with patch := nextNumber version.patch }
  else if fields.minor then ⟨version.major, nextNumber version.minor, 0⟩
  else ⟨nextNumber version.major, 0, 0⟩

end Version

/-- One of the three numbers of a version. -/
inductive VersionField
  | major
  | minor
  | patch
  deriving DecidableEq, Repr

namespace VersionField

def all : List VersionField := [major, minor, patch]

def name : VersionField → Text
  | major => "major"
  | minor => "minor"
  | patch => "patch"

def of (version : Version) : VersionField → Nat
  | major => version.major
  | minor => version.minor
  | patch => version.patch

end VersionField

/-- A place in a format where a number is written, with two digits at least if `padded`. -/
structure VersionToken where
  field : VersionField
  padded : Bool
  deriving DecidableEq, Repr

namespace VersionToken

/-- A token as it is written in a format: a field name in braces, with a width or without. -/
def written (token : VersionToken) : Text :=
  '\x7b' :: (token.field.name ++ ((if token.padded then (":02d" : Text) else []) ++ ['\x7d']))

def all : List VersionToken :=
  VersionField.all.flatMap fun field => [⟨field, false⟩, ⟨field, true⟩]

/-- The token at the beginning of a text, with the characters it takes. -/
def read? (text : Text) : Option (VersionToken × Nat) :=
  (all.find? fun token => Text.startsWith token.written text).map fun token =>
    (token, token.written.length)

def value (version : Version) (token : VersionToken) : Text :=
  let number := token.field.of version
  if token.padded then Text.paddedDecimal 2 number else Text.decimal number

end VersionToken

namespace Version

/-- A format cut into its tokens and the characters between them. -/
def formatPieces (format : Text) : List (Text.Piece VersionToken) :=
  Text.cut VersionToken.read? format

/-- Writes a version in a format; whatever is no token is copied. -/
def format (pattern : Text) (version : Version) : Text :=
  Text.render (VersionToken.value version) (formatPieces pattern)

end Version

namespace VersionFields

def all : VersionFields := ⟨true, true, true⟩

/-- The fields that a format shows. One without any token counts as showing all of them. -/
def shownBy (format : Text) : VersionFields :=
  let shown := (Text.tokens (Version.formatPieces format)).map (·.field)
  if shown.isEmpty then all
  else ⟨shown.contains .major, shown.contains .minor, shown.contains .patch⟩

end VersionFields

end Masthead

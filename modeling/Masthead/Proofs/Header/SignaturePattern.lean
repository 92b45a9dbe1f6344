import Masthead.Config.Basic
import Masthead.Proofs.Header.Signature
import Masthead.Proofs.Version.Format

/-!
# Formats whose versions are read back

A format can be laid out like a signature: a mark or none, a major number, perhaps a minor number behind a point, and
perhaps a patch behind a sign. Cutting it gives back the tokens that it was laid out with, so a version written in it
is spelled soundly, and reading the spelling gives the version with zeros for the numbers that are not shown.
-/

namespace Masthead

open Text

namespace Header

/-! ## The layout of a signature -/

/-- A format that is laid out like a signature. Of each number that it shows it says whether it is padded; a point
before the patch would make it the minor number if there were no other. -/
structure SignaturePattern where
  isMarked : Bool
  major : Bool
  minor : Option Bool
  sign : Char
  patch : Option Bool
  signed : sign = 'p' ∨ sign = '.' ∧ minor.isSome = true

namespace SignaturePattern

/-- What a pattern spells if its tokens are written in some way. -/
def spelled (pattern : SignaturePattern) (write : VersionToken → Text) : VersionSpelling where
  mark := if pattern.isMarked then ['v'] else []
  digits := {
    major := write ⟨.major, pattern.major⟩
    minor := pattern.minor.map fun padded => write ⟨.minor, padded⟩
    patch := pattern.patch.map fun padded => write ⟨.patch, padded⟩ }
  sign := pattern.sign

/-- The format itself. -/
def text (pattern : SignaturePattern) : Text :=
  (pattern.spelled VersionToken.written).text

/-- The pieces that a sign and a token behind it come to, if there is one. -/
def piecesBehind (sign : Char) (field : VersionField) : Option Bool → List (Piece VersionToken)
  | none => []
  | some padded => [.plain sign, .token ⟨field, padded⟩]

theorem formatPieces_behindSign {sign : Char} (plain : sign ≠ '\x7b') (field : VersionField) (number : Option Bool)
    (rest : Text) :
    Version.formatPieces (behindSign sign (number.map fun padded => VersionToken.written ⟨field, padded⟩) ++ rest)
      = piecesBehind sign field number ++ Version.formatPieces rest := by
  cases number with
  | none => rfl
  | some padded =>
    rw [Option.map_some, behindSign, List.cons_append, Version.formatPieces_cons _ plain,
      Version.formatPieces_written_append]
    rfl

theorem formatPieces_text (pattern : SignaturePattern) :
    Version.formatPieces pattern.text
      = (if pattern.isMarked then [.plain 'v'] else []) ++ (.token ⟨.major, pattern.major⟩
        :: (piecesBehind '.' .minor pattern.minor ++ piecesBehind pattern.sign .patch pattern.patch)) := by
  have plain : pattern.sign ≠ '\x7b' := by
    rcases pattern.signed with equal | ⟨equal, -⟩ <;> rw [equal] <;> decide
  have patchPieces := formatPieces_behindSign plain .patch pattern.patch []
  rw [List.append_nil, show Version.formatPieces [] = [] from rfl, List.append_nil] at patchPieces
  have unmarked (rest : Text) : Version.formatPieces ((if pattern.isMarked then ['v'] else []) ++ rest)
      = (if pattern.isMarked then [.plain 'v'] else []) ++ Version.formatPieces rest := by
    split
    · exact Version.formatPieces_cons rest (by decide)
    · rfl
  rw [text, VersionSpelling.text]
  simp only [spelled]
  rw [unmarked, Version.formatPieces_written_append, formatPieces_behindSign (by decide), patchPieces]

/-- A version in such a format is spelled with its numbers in place of the tokens. -/
theorem format_text (pattern : SignaturePattern) (version : Version) :
    version.format pattern.text = (pattern.spelled (VersionToken.value version)).text := by
  have behind (sign : Char) (field : VersionField) (number : Option Bool) :
      render (VersionToken.value version) (piecesBehind sign field number)
        = behindSign sign (number.map fun padded => VersionToken.value version ⟨field, padded⟩) := by
    cases number with
    | none => rfl
    | some padded => simp [render, piecesBehind, behindSign]
  have marked : render (VersionToken.value version) (if pattern.isMarked then [.plain 'v'] else [])
      = if pattern.isMarked then ['v'] else [] := by
    split <;> rfl
  rw [Version.format, formatPieces_text, render_append, render_cons_token, render_append, marked, behind, behind]
  rfl

theorem shownBy_text (pattern : SignaturePattern) :
    VersionFields.shownBy pattern.text = ⟨true, pattern.minor.isSome, pattern.patch.isSome⟩ := by
  obtain ⟨isMarked, major, minor, sign, patch, signed⟩ := pattern
  rw [VersionFields.shownBy, formatPieces_text]
  cases isMarked <;> cases minor <;> cases patch <;> rfl

/-! ## Reading -/

variable {version : Version}

theorem areDigits_value (version : Version) (token : VersionToken) : AreDigits (token.value version) := by
  rw [VersionToken.value_eq]
  exact areDigits_paddedDecimal _ _

theorem isSound_spelled (pattern : SignaturePattern) (version : Version) :
    (pattern.spelled (VersionToken.value version)).IsSound := by
  have numbers (field : VersionField) (number : Option Bool) :
      ∀ given ∈ number.map fun padded => VersionToken.value version ⟨field, padded⟩, AreDigits given := by
    intro given member
    obtain ⟨padded, -, rfl⟩ := Option.map_eq_some_iff.mp member
    exact areDigits_value version _
  constructor
  · simp only [spelled]
    split
    · exact .inr rfl
    · exact .inl rfl
  · exact areDigits_value version _
  · exact numbers .minor pattern.minor
  · exact numbers .patch pattern.patch
  · exact pattern.signed.elim .inr fun point => .inl point.1
  · intro missing _
    refine pattern.signed.resolve_right fun point => ?_
    have absent : pattern.minor = none := Option.map_eq_none_iff.mp missing
    simp [absent] at point

theorem entryNumber?_value (within : ∀ field : VersionField, field.of version ≤ numberLimit) (token : VersionToken) :
    entryNumber? (token.value version) = some (token.field.of version) := by
  rw [VersionToken.value_eq]
  exact naturalUpTo?_paddedDecimal _ (within token.field)

theorem optionalNumber?_value (within : ∀ field : VersionField, field.of version ≤ numberLimit) (field : VersionField)
    (number : Option Bool) :
    optionalNumber? (number.map fun padded => VersionToken.value version ⟨field, padded⟩)
      = some (if number.isSome then field.of version else 0) := by
  cases number with
  | none => rfl
  | some padded => exact entryNumber?_value within ⟨field, padded⟩

theorem parseVersion?_signature (pattern : SignaturePattern)
    (within : ∀ field : VersionField, field.of version ≤ numberLimit) :
    parseVersion? ('(' :: version.format pattern.text ++ [',']) = some (version.masked (.shownBy pattern.text)) := by
  rw [format_text, shownBy_text]
  refine parseVersion?_of_isSound (isSound_spelled pattern version) ?_ ?_ ?_ []
  · exact entryNumber?_value within ⟨.major, pattern.major⟩
  · exact optionalNumber?_value within .minor pattern.minor
  · exact optionalNumber?_value within .patch pattern.patch

/-- A version that is written in such a format between a parenthesis and a comma is read back, with zeros for the
numbers that the format does not show. -/
theorem parseVersion?_format (pattern : SignaturePattern)
    (within : ∀ field : VersionField, field.of version ≤ numberLimit) {front : Text} (absent : '(' ∉ front) (rest : Text) :
    parseVersion? (front ++ ('(' :: (version.format pattern.text ++ ',' :: rest)))
      = some (version.masked (.shownBy pattern.text)) :=
  parseVersion?_append absent rest (parseVersion?_signature pattern within)

/-- The greatest number, a number of one digit and a padded one of three, with points before both. -/
theorem parseVersion?_format_dotted :
    let pattern : SignaturePattern := ⟨true, true, some false, '.', some true, .inr ⟨rfl, rfl⟩⟩
    let version : Version := ⟨numberLimit, 7, 100⟩
    let line : Text := "//   * 2026/01/01 : (v4294967295.7.100,  kim) Rewritten (again), at last"
    pattern.text = "v\x7bmajor:02d\x7d.\x7bminor\x7d.\x7bpatch:02d\x7d".toList ∧
      (∀ field : VersionField, field.of version ≤ numberLimit) ∧ '(' ∉ "//   * 2026/01/01 : ".toList ∧
      parseVersion? line = some version := by
  intro pattern version line
  have within : ∀ field : VersionField, field.of version ≤ numberLimit := by
    intro field
    cases field <;> decide
  have absent : '(' ∉ "//   * 2026/01/01 : ".toList := by decide
  have written : version.format pattern.text = "v4294967295.7.100".toList := by decide +kernel
  have read := parseVersion?_format pattern within absent "  kim) Rewritten (again), at last".toList
  rw [written] at read
  exact ⟨by decide, within, absent, read⟩

end SignaturePattern

/-- In the default format a version is read back, but for its minor number. -/
theorem parseVersion?_defaultFormat {version : Version} (major : version.major ≤ numberLimit) (minor : version.minor = 0)
    (patch : version.patch ≤ numberLimit) :
    parseVersion? ('(' :: version.format Config.defaultVersionFormat ++ [',']) = some version := by
  let pattern : SignaturePattern := ⟨true, true, none, 'p', some true, .inl rfl⟩
  have same : pattern.text = Config.defaultVersionFormat := by decide
  have within : ∀ field : VersionField, field.of version ≤ numberLimit := by
    intro field
    cases field with
    | major => exact major
    | minor => exact Nat.le_trans (Nat.le_of_eq minor) (Nat.zero_le _)
    | patch => exact patch
  have shown : version.masked (.shownBy pattern.text) = version := by
    rw [pattern.shownBy_text, Version.masked_eq_self_iff]
    exact ⟨.inl rfl, .inr minor, .inl rfl⟩
  rw [← same, pattern.parseVersion?_signature within, shown]

end Header

end Masthead

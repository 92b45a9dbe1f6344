import Masthead.Proofs.Text.Affix
import Masthead.Proofs.Text.Numeral
import Masthead.Proofs.Text.Pieces
import Masthead.Proofs.Version

/-!
# What a format shows of a version

A format shows the fields whose tokens stand in it, so a version is written like the one that has zeros in all other
fields. When a version is counted up, no number that is shown gets a shorter numeral. Two texts of one format could
then only be equal if each token were written alike in both, and the token of the field that is counted up is not.
-/

namespace Masthead

open Text

/-! ## Tokens -/

namespace VersionToken

theorem read?_written_append (token : VersionToken) (rest : Text) :
    read? (token.written ++ rest) = some (token, token.written.length) := by
  obtain ⟨field, padded⟩ := token
  cases field <;> cases padded <;> rfl

theorem read?_cons_of_ne {character : Char} (rest : Text) (plain : character ≠ '\x7b') :
    read? (character :: rest) = none := by
  have begins (token : VersionToken) : startsWith token.written (character :: rest) = false := by
    rw [startsWith, written, after?, if_neg (Ne.symm plain)]
    rfl
  simp [read?, begins]

/-- A token is read exactly where one is written. -/
theorem isSome_read?_iff {text : Text} :
    (read? text).isSome = true ↔ ∃ token : VersionToken, token.written <+: text := by
  constructor
  · intro read
    rw [read?, Option.isSome_map, List.find?_isSome] at read
    obtain ⟨token, -, begins⟩ := read
    exact ⟨token, startsWith_iff.mp begins⟩
  · rintro ⟨token, rest, rfl⟩
    rw [read?_written_append]
    rfl

/-- A number is written with two digits at least or with none to fill up. -/
theorem value_eq (version : Version) (token : VersionToken) :
    token.value version = paddedDecimal (if token.padded then 2 else 0) (token.field.of version) := by
  rw [value]
  split
  · rfl
  · simp [paddedDecimal, zeroPadded]

end VersionToken

namespace Version

theorem formatPieces_cons {character : Char} (rest : Text) (plain : character ≠ '\x7b') :
    formatPieces (character :: rest) = .plain character :: formatPieces rest :=
  cut_cons_of_none (VersionToken.read?_cons_of_ne rest plain)

theorem formatPieces_written_append (token : VersionToken) (rest : Text) :
    formatPieces (token.written ++ rest) = .token token :: formatPieces rest :=
  cut_append_of_read? (List.cons_ne_nil _ _) (VersionToken.read?_written_append token rest)

/-- Cutting finds a token in every format in which one is written. -/
theorem tokens_formatPieces_ne_nil_iff {format : Text} :
    tokens (formatPieces format) ≠ [] ↔ ∃ token : VersionToken, token.written <:+: format := by
  rw [formatPieces, ne_eq, tokens_cut_eq_nil_iff]
  constructor
  · intro somewhere
    push Not at somewhere
    obtain ⟨rest, suffix, -, read⟩ := somewhere
    obtain ⟨token, begins⟩ := VersionToken.isSome_read?_iff.mp (Option.isSome_iff_ne_none.mpr read)
    exact ⟨token, begins.isInfix.trans suffix.isInfix⟩
  · rintro ⟨token, inside⟩ nowhere
    obtain ⟨rest, begins, suffix⟩ := List.infix_iff_prefix_suffix.mp inside
    -- A token that is written in the format could be read at its place, wherever the cutting goes on.
    have read := VersionToken.isSome_read?_iff.mpr ⟨token, begins⟩
    have nonempty : rest ≠ [] := by
      rintro rfl
      cases List.prefix_nil.mp begins
    rw [nowhere rest suffix nonempty] at read
    cases read

end Version

/-! ## Fields -/

/-- The fields that are shown are those of the tokens, if there are any. -/
theorem VersionFields.shows_shownBy_iff {format : Text} (nonempty : tokens (Version.formatPieces format) ≠ [])
    {field : VersionField} :
    (shownBy format).shows field = true ↔ ∃ token ∈ tokens (Version.formatPieces format), token.field = field := by
  have listed : (shownBy format).shows field
      = ((tokens (Version.formatPieces format)).map (·.field)).contains field := by
    rw [shownBy, if_neg (by simpa using nonempty)]
    cases field <;> rfl
  rw [listed, List.contains_iff_mem, List.mem_map]

namespace Version

variable {format : Text} {version other : Version}

theorem shows_of_token_mem {token : VersionToken} (member : .token token ∈ formatPieces format) :
    (VersionFields.shownBy format).shows token.field = true := by
  have listed := mem_tokens_iff.mpr member
  exact (VersionFields.shows_shownBy_iff (List.ne_nil_of_mem listed)).mpr ⟨token, listed, rfl⟩

/-- A format tells nothing of the fields that it does not show. -/
theorem format_masked (format : Text) (version : Version) :
    (version.masked (.shownBy format)).format format = version.format format := by
  refine render_congr ?_
  intro token member
  rw [VersionToken.value_eq, VersionToken.value_eq, of_masked (shows_of_token_mem member)]

/-- Where no number gets less, texts of one format are equal only if all numbers in them are. -/
theorem of_eq_of_format_eq
    (upward : ∀ token, .token token ∈ formatPieces format → token.field.of version ≤ token.field.of other)
    (same : version.format format = other.format format) {token : VersionToken}
    (member : .token token ∈ formatPieces format) : token.field.of version = token.field.of other := by
  have longer : ∀ token, .token token ∈ formatPieces format →
      (token.value version).length ≤ (token.value other).length := by
    intro token member
    rw [VersionToken.value_eq, VersionToken.value_eq]
    exact length_paddedDecimal_le _ (upward token member)
  have written := eq_of_render_eq longer same member
  rw [VersionToken.value_eq, VersionToken.value_eq] at written
  exact eq_of_paddedDecimal_eq written

theorem format_bump_ne_iff (below : (VersionFields.shownBy format).lowest.of version < numberLimit) :
    (version.bump (.shownBy format)).format format ≠ version.format format ↔
      tokens (formatPieces format) ≠ [] := by
  constructor
  · intro differs none
    refine differs (render_congr fun token member => ?_)
    rw [← mem_tokens_iff, none] at member
    cases member
  · intro nonempty same
    have shown := VersionFields.shows_lowest (VersionFields.showsAny_shownBy format)
    -- Some token shows the field that is counted up, and it is not written as before.
    obtain ⟨token, listed, field⟩ := (VersionFields.shows_shownBy_iff nonempty).mp shown
    have upward : ∀ token, .token token ∈ formatPieces format →
        token.field.of version ≤ token.field.of (version.bump (.shownBy format)) := by
      intro token member
      rw [of_bump below (shows_of_token_mem member)]
      exact Nat.le_add_right _ _
    have unchanged := of_eq_of_format_eq upward same.symm (mem_tokens_iff.mp listed)
    rw [field, of_bump below shown, if_pos rfl] at unchanged
    exact Nat.ne_of_lt (Nat.lt_succ_self _) unchanged

/-- Fields that are not shown may be set to zero unseen. As long as the lowest shown field can be counted up, counting
gives a later version, and it is seen exactly in those formats that have a token. -/
theorem format_masked_bump (format : Text) (version : Version) :
    let fields := VersionFields.shownBy format
    (version.masked fields).format format = version.format format ∧
      (fields.lowest.of version < numberLimit →
        (version.masked fields).lessThan ((version.masked fields).bump fields) = true ∧
          ((version.bump fields).format format ≠ version.format format ↔
            ∃ token : VersionToken, token.written <:+: format)) := by
  intro fields
  refine ⟨format_masked format version, fun below => ⟨lessThan_bump ?_, ?_⟩⟩
  · have shown := VersionFields.shows_lowest (VersionFields.showsAny_shownBy format)
    rw [of_masked shown]
    exact below
  · rw [format_bump_ne_iff below, tokens_formatPieces_ne_nil_iff]

/-- The patch stands in two tokens and gets one more digit in both. -/
theorem format_masked_bump_wider :
    let format : Text := "\x7b\x7bpatch\x7d.\x7bmajor\x7dp\x7bpatch:02d\x7d"
    let version : Version := ⟨numberLimit, 3, 99⟩
    let fields := VersionFields.shownBy format
    fields.lowest.of version < numberLimit ∧
      (version.masked fields).format format = "\x7b99.4294967295p99".toList ∧
      (version.bump fields).format format = "\x7b100.4294967295p100".toList ∧
      (version.masked fields).lessThan ((version.masked fields).bump fields) = true ∧
      ∃ token : VersionToken, token.written <:+: format := by
  intro format version fields
  have below : fields.lowest.of version < numberLimit := by decide +kernel
  have before : version.format format = "\x7b99.4294967295p99".toList := by decide +kernel
  have after : (version.bump fields).format format = "\x7b100.4294967295p100".toList := by decide +kernel
  obtain ⟨masked, counted⟩ := format_masked_bump format version
  obtain ⟨later, seen⟩ := counted below
  refine ⟨below, masked.trans before, after, later, seen.mp ?_⟩
  rw [after, before]
  decide

end Version

end Masthead

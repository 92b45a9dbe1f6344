import Mathlib.Data.List.Basic
import Masthead.Text.Pieces

/-!
# What a filled text is made of

A token that is read at the beginning of a text is cut off it. The plain characters of a text that has
been cut come from the text, and its tokens have been read in it. What is rendered holds these
characters, and what is written for the tokens, and nothing else. A text can be cut part by part
wherever no token reaches from one part into the next, and of two texts that are rendered from the
same pieces the longer one is another one.
-/

namespace Masthead.Text

variable {Token : Type} {read? : Text → Option (Token × Nat)}

/-! ## The beginning of a text -/

theorem cut_cons_of_none {character : Char} {rest : Text} (read : read? (character :: rest) = none) :
    cut read? (character :: rest) = .plain character :: cut read? rest := by
  rw [cut, cutAfter, read]
  rfl

theorem cut_cons_of_some {character : Char} {rest : Text} {token : Token} {size : Nat}
    (read : read? (character :: rest) = some (token, size)) :
    cut read? (character :: rest) = .token token :: cut read? (rest.drop (size - 1)) := by
  rw [cut, cutAfter, read]
  exact congrArg (Piece.token token :: ·) (cutAfter_eq_cut_drop _ _ _)

theorem cut_append_of_read? {word rest : Text} {token : Token} (nonempty : word ≠ [])
    (read : read? (word ++ rest) = some (token, word.length)) :
    cut read? (word ++ rest) = .token token :: cut read? rest := by
  cases word with
  | nil => exact absurd rfl nonempty
  | cons first word =>
    -- The scan has taken the first character already, and skips the rest of the token.
    rw [List.cons_append] at read ⊢
    rw [cut_cons_of_some read, List.length_cons, Nat.add_sub_cancel, List.drop_left]

/-- Whether reading in a text is the same with another text behind it, and takes no more than is there. -/
def ReadsWithin (read? : Text → Option (Token × Nat)) (front back : Text) : Prop :=
  ∀ rest, rest <:+ front → rest ≠ [] →
    read? (rest ++ back) = read? rest ∧ ∀ token size, read? rest = some (token, size) → size ≤ rest.length

theorem cutAfter_append {front back : Text} (within : ReadsWithin read? front back) {skip : Nat}
    (present : skip ≤ front.length) :
    cutAfter read? skip (front ++ back) = cutAfter read? skip front ++ cut read? back := by
  induction front generalizing skip with
  | nil =>
    obtain rfl := Nat.le_zero.mp present
    rfl
  | cons character front inductionHypothesis =>
    have later {skip : Nat} (present : skip ≤ front.length) :=
      inductionHypothesis (fun rest suffix => within rest (suffix.trans (List.suffix_cons _ _))) present
    rw [List.length_cons] at present
    cases skip with
    | succ skip => exact later (Nat.le_of_succ_le_succ present)
    | zero =>
      obtain ⟨same, inside⟩ := within _ (List.suffix_refl _) (List.cons_ne_nil _ _)
      rw [List.cons_append] at same
      rw [List.cons_append, cutAfter, cutAfter, same]
      cases read : read? (character :: front) with
      | none => exact congrArg (Piece.plain character :: ·) (later (Nat.zero_le _))
      | some found =>
        -- The token ends within the front, so what is skipped behind it does as well.
        have fits := inside found.1 found.2 read
        rw [List.length_cons] at fits
        exact congrArg (Piece.token found.1 :: ·) (later (by omega))

/-- A text can be cut where no token reaches over the place. -/
theorem cut_append {front back : Text} (within : ReadsWithin read? front back) :
    cut read? (front ++ back) = cut read? front ++ cut read? back :=
  cutAfter_append within (Nat.zero_le _)

theorem render_append (write : Token → Text) (pieces others : List (Piece Token)) :
    render write (pieces ++ others) = render write pieces ++ render write others :=
  List.flatMap_append

theorem render_cons_token (write : Token → Text) (token : Token) (pieces : List (Piece Token)) :
    render write (.token token :: pieces) = write token ++ render write pieces :=
  List.flatMap_cons

theorem render_cons_plain (write : Token → Text) (character : Char) (pieces : List (Piece Token)) :
    render write (.plain character :: pieces) = character :: render write pieces :=
  List.flatMap_cons

theorem render_congr {write other : Token → Text} {pieces : List (Piece Token)}
    (same : ∀ token, .token token ∈ pieces → write token = other token) : render write pieces = render other pieces := by
  rw [render, render]
  refine List.flatMap_congr ?_
  intro piece member
  cases piece with
  | plain character => rfl
  | token token => exact same token member

/-! ## Parts of a text -/

theorem of_mem_cutAfter {piece : Piece Token} {skip : Nat} {text : Text} (member : piece ∈ cutAfter read? skip text) :
    (∃ character ∈ text, piece = .plain character) ∨
      ∃ token rest size, read? rest = some (token, size) ∧ piece = .token token := by
  induction text generalizing skip with
  | nil => cases skip <;> cases member
  | cons first rest inductionHypothesis =>
    -- A piece of the rest is one of the whole, whether the first character is skipped or not.
    have later {skip : Nat} (member : piece ∈ cutAfter read? skip rest) :
        (∃ character ∈ first :: rest, piece = .plain character) ∨
          ∃ token rest size, read? rest = some (token, size) ∧ piece = .token token := by
      rcases inductionHypothesis member with ⟨character, inside, equal⟩ | read
      · exact .inl ⟨character, List.mem_cons_of_mem _ inside, equal⟩
      · exact .inr read
    cases skip with
    | succ skip => exact later member
    | zero =>
      rw [cutAfter] at member
      split at member
      · next token size read =>
        rcases List.mem_cons.mp member with rfl | member
        · exact .inr ⟨token, _, size, read, rfl⟩
        · exact later member
      · rcases List.mem_cons.mp member with rfl | member
        · exact .inl ⟨first, List.mem_cons_self, rfl⟩
        · exact later member

theorem mem_of_plain_mem_cut {character : Char} {text : Text} (member : .plain character ∈ cut read? text) :
    character ∈ text := by
  rcases of_mem_cutAfter member with ⟨other, inside, equal⟩ | ⟨token, rest, size, -, equal⟩
  · cases equal
    exact inside
  · cases equal

theorem exists_of_token_mem_cut {token : Token} {text : Text} (member : .token token ∈ cut read? text) :
    ∃ rest size, read? rest = some (token, size) := by
  rcases of_mem_cutAfter member with ⟨other, -, equal⟩ | ⟨other, rest, size, read, equal⟩
  · cases equal
  · cases equal
    exact ⟨rest, size, read⟩

theorem mem_tokens_iff {pieces : List (Piece Token)} {token : Token} :
    token ∈ tokens pieces ↔ .token token ∈ pieces := by
  rw [tokens, List.mem_filterMap]
  constructor
  · rintro ⟨piece, member, equal⟩
    cases piece with
    | plain character => cases equal
    | token other =>
      cases equal
      exact member
  · exact fun member => ⟨_, member, rfl⟩

/-- A text has no token exactly if none can be read anywhere in it. -/
theorem tokens_cut_eq_nil_iff {text : Text} :
    tokens (cut read? text) = [] ↔ ∀ rest, rest <:+ text → rest ≠ [] → read? rest = none := by
  induction text with
  | nil => exact ⟨fun _ rest suffix nonempty => absurd (List.suffix_nil.mp suffix) nonempty, fun _ => rfl⟩
  | cons character text inductionHypothesis =>
    cases read : read? (character :: text) with
    | some found =>
      rw [cut_cons_of_some read]
      refine ⟨fun none => (nomatch none), fun nowhere => ?_⟩
      rw [nowhere _ (List.suffix_refl _) (List.cons_ne_nil _ _)] at read
      cases read
    | none =>
      -- Where nothing is read the first character is plain and gives no token.
      have same : tokens (cut read? (character :: text)) = tokens (cut read? text) := by
        rw [cut_cons_of_none read]
        rfl
      rw [same, inductionHypothesis]
      constructor
      · intro nowhere rest suffix nonempty
        rcases List.suffix_cons_iff.mp suffix with rfl | suffix
        · exact read
        · exact nowhere rest suffix nonempty
      · exact fun nowhere rest suffix => nowhere rest (suffix.trans (List.suffix_cons _ _))

/-- A text without tokens is rendered as it is. -/
theorem render_cut_of_tokens_eq_nil (write : Token → Text) {text : Text} (none : tokens (cut read? text) = []) :
    render write (cut read? text) = text := by
  have nowhere := tokens_cut_eq_nil_iff.mp none
  induction text with
  | nil => rfl
  | cons character text inductionHypothesis =>
    have later : ∀ rest, rest <:+ text → rest ≠ [] → read? rest = .none :=
      fun rest suffix => nowhere rest (suffix.trans (List.suffix_cons _ _))
    rw [cut_cons_of_none (nowhere _ (List.suffix_refl _) (List.cons_ne_nil _ _)), render_cons_plain,
      inductionHypothesis (tokens_cut_eq_nil_iff.mpr later) later]

theorem mem_render_iff {write : Token → Text} {pieces : List (Piece Token)} {character : Char} :
    character ∈ render write pieces ↔
      .plain character ∈ pieces ∨ ∃ token, .token token ∈ pieces ∧ character ∈ write token := by
  rw [render, List.mem_flatMap]
  constructor
  · rintro ⟨piece, member, inside⟩
    cases piece with
    | plain other =>
      rw [List.mem_singleton.mp inside]
      exact .inl member
    | token token => exact .inr ⟨token, member, inside⟩
  · rintro (member | ⟨token, member, inside⟩)
    · exact ⟨_, member, List.mem_singleton_self _⟩
    · exact ⟨_, member, inside⟩

/-! ## The length of what is rendered -/

section Lengths

variable {write other : Token → Text} {pieces : List (Piece Token)}
  (longer : ∀ token, .token token ∈ pieces → (write token).length ≤ (other token).length)

include longer

theorem length_render_le : (render write pieces).length ≤ (render other pieces).length := by
  induction pieces with
  | nil => exact Nat.le_refl _
  | cons piece pieces inductionHypothesis =>
    have later := inductionHypothesis fun token member => longer token (List.mem_cons_of_mem _ member)
    cases piece with
    | plain character =>
      rw [render_cons_plain, render_cons_plain]
      exact Nat.succ_le_succ later
    | token token =>
      rw [render_cons_token, render_cons_token, List.length_append, List.length_append]
      exact Nat.add_le_add (longer token List.mem_cons_self) later

/-- Where nothing gets shorter, texts that are equal as a whole are equal token by token. -/
theorem eq_of_render_eq (same : render write pieces = render other pieces) {token : Token}
    (member : .token token ∈ pieces) : write token = other token := by
  induction pieces with
  | nil => cases member
  | cons piece pieces inductionHypothesis =>
    have longerLater : ∀ token, .token token ∈ pieces → (write token).length ≤ (other token).length :=
      fun token member => longer token (List.mem_cons_of_mem _ member)
    cases piece with
    | plain character =>
      rw [render_cons_plain, render_cons_plain, List.cons.injEq] at same
      rcases List.mem_cons.mp member with equal | member
      · cases equal
      · exact inductionHypothesis longerLater same.2 member
    | token first =>
      rw [render_cons_token, render_cons_token] at same
      -- Neither part is longer than its counterpart, so the two are cut at the same place.
      have firstLonger := longer first List.mem_cons_self
      have restLonger := length_render_le longerLater
      have size := congrArg List.length same
      rw [List.length_append, List.length_append] at size
      obtain ⟨sameFirst, sameRest⟩ := List.append_inj same (by omega)
      rcases List.mem_cons.mp member with equal | member
      · cases equal
        exact sameFirst
      · exact inductionHypothesis longerLater sameRest member

end Lengths

end Masthead.Text

import Masthead.Proofs.Header.CreationDate
import Masthead.Proofs.Header.Merge

/-!
# What is left out when a header is read

From the body of a section everything is carried over that tells something, and the blank lines between. What is left
out has a placeholder in it or a sentinel, or is a blank line with nothing told on one side of it. A sentinel counts
wherever it stands in a line, so a line that merely mentions one is left out like the line that is one.
-/

namespace Masthead.Header

open Text

variable {comment : Text} {sentinels : List Text}

/-! ## Lines with sentinels -/

/-- Whether a line holds one of the sentinels, wherever it stands. -/
def Mentions (sentinels : List Text) (line : Text) : Prop :=
  ∃ sentinel ∈ sentinels, trim sentinel ≠ [] ∧ trim sentinel <:+: line

instance (sentinels : List Text) (line : Text) : Decidable (Mentions sentinels line) :=
  inferInstanceAs (Decidable (∃ sentinel ∈ sentinels, trim sentinel ≠ [] ∧ trim sentinel <:+: line))

/-- The text of a line behind the comment token and behind a bullet that stands apart, if there is one. -/
def itemText (comment line : Text) : Text :=
  match commentText comment line with
  | [] => []
  | bullet :: text => if bullet ∈ ['o', '*', '-'] ∧ text.head?.any isWhite then trim text else bullet :: text

/-- Whether a line says nothing but a sentinel, with a bullet or without one. -/
def IsSentinel (comment : Text) (sentinels : List Text) (line : Text) : Prop :=
  ∃ sentinel ∈ sentinels, trim sentinel ≠ [] ∧
    (commentText comment line = trim sentinel ∨ itemText comment line = trim sentinel)

instance (comment : Text) (sentinels : List Text) (line : Text) : Decidable (IsSentinel comment sentinels line) :=
  inferInstanceAs (Decidable (∃ sentinel ∈ sentinels, trim sentinel ≠ [] ∧
    (commentText comment line = trim sentinel ∨ itemText comment line = trim sentinel)))

theorem isScaffolding_iff {line : Text} :
    isScaffolding sentinels line = true ↔ Placeholder.occurs line = true ∨ Mentions sentinels line := by
  simp [isScaffolding, Mentions, holds_iff]

theorem trim_inside (text : Text) : trim text <:+: text := by
  obtain ⟨before, after, equal, -, -⟩ := exists_trim_split text
  exact ⟨before, after, by rw [List.append_assoc, ← equal]⟩

theorem commentText_inside (comment line : Text) : commentText comment line <:+: line := by
  obtain ⟨text, equal, rfl | rfl | behind⟩ := exists_commentText comment line
  · exact equal ▸ trim_inside text
  · exact equal ▸ (trim_inside _).trans (trim_inside line)
  · have inside : text <:+: trim line := behind ▸ (List.suffix_append comment text).isInfix
    exact equal ▸ (trim_inside text).trans (inside.trans (trim_inside line))

theorem itemText_inside (comment line : Text) : itemText comment line <:+: commentText comment line := by
  unfold itemText
  split
  · exact List.nil_infix
  · next bullet text equal =>
    rw [equal]
    split
    · exact (trim_inside text).trans (List.suffix_cons bullet text).isInfix
    · exact List.infix_rfl

/-- A sentinel mentions itself. -/
theorem IsSentinel.mentions {line : Text} (isSentinel : IsSentinel comment sentinels line) : Mentions sentinels line := by
  obtain ⟨sentinel, listed, nonempty, equal | equal⟩ := isSentinel
  · exact ⟨sentinel, listed, nonempty, equal ▸ commentText_inside comment line⟩
  · exact ⟨sentinel, listed, nonempty, equal ▸ (itemText_inside comment line).trans (commentText_inside comment line)⟩

/-! ## Lines between others -/

/-- Whether a line tells something that is carried over. -/
def tells (comment : Text) (sentinels : List Text) (line : Text) : Bool :=
  !isBlankComment comment line && !isScaffolding sentinels line

/-- Whether nothing is told before a position, or nothing behind it. -/
def IsOuter (comment : Text) (sentinels body : List Text) (position : Nat) : Prop :=
  (∀ line ∈ body.take position, tells comment sentinels line = false) ∨
    ∀ line ∈ body.drop (position + 1), tells comment sentinels line = false

instance (comment : Text) (sentinels body : List Text) (position : Nat) :
    Decidable (IsOuter comment sentinels body position) :=
  inferInstanceAs (Decidable (_ ∨ _))

/-- Whether a line of a body, given with its position, is an outer blank line, has a placeholder or is marked. -/
def IsOmitted (comment : Text) (sentinels body : List Text) (marked : Text → Prop) (item : Text × Nat) : Prop :=
  (isBlankComment comment item.1 = true ∧ IsOuter comment sentinels body item.2) ∨
    Placeholder.occurs item.1 = true ∨ marked item.1

instance (comment : Text) (sentinels body : List Text) (marked : Text → Prop) [DecidablePred marked]
    (item : Text × Nat) : Decidable (IsOmitted comment sentinels body marked item) :=
  inferInstanceAs (Decidable (_ ∨ _))

theorem trimBlankLines_eq_self {lines : List Text} (first : ∀ line ∈ lines.head?, isBlankComment comment line = false)
    (last : ∀ line ∈ lines.getLast?, isBlankComment comment line = false) : trimBlankLines comment lines = lines := by
  obtain ⟨lead, trail, split, leadBlank, trailBlank⟩ := exists_trimBlankLines_split comment lines
  -- A blank line taken off an end would be the first or the last line.
  have noLead : lead = [] := by
    cases lead with
    | nil => rfl
    | cons line lead =>
      have seen := first line (by rw [split]; rfl)
      rw [leadBlank line List.mem_cons_self] at seen
      cases seen
  have noTrail : trail = [] := by
    rcases List.eq_nil_or_concat trail with none | ⟨front, line, rfl⟩
    · exact none
    · have seen := last line (by rw [split]; simp [List.getLast?_append])
      rw [trailBlank line (by simp)] at seen
      cases seen
  rw [noLead, noTrail, List.nil_append, List.append_nil] at split
  exact split.symm

theorem exists_split_of_mem_zipIdx {Item : Type} {items : List Item} {start : Nat} {entry : Item × Nat}
    (member : entry ∈ items.zipIdx start) :
    ∃ above below, items = above ++ entry.1 :: below ∧ entry.2 = start + above.length := by
  induction items generalizing start with
  | nil => cases member
  | cons first items inductionHypothesis =>
    rw [List.zipIdx_cons, List.mem_cons] at member
    rcases member with rfl | member
    · exact ⟨[], items, rfl, rfl⟩
    · obtain ⟨above, below, rfl, position⟩ := inductionHypothesis member
      exact ⟨first :: above, below, rfl, by rw [position, List.length_cons]; omega⟩

theorem isOuter_append_iff {above below : List Text} {line : Text} :
    IsOuter comment sentinels (above ++ line :: below) above.length ↔
      (∀ other ∈ above, tells comment sentinels other = false) ∨
        ∀ other ∈ below, tells comment sentinels other = false := by
  rw [IsOuter, List.take_left, ← List.drop_drop, List.drop_left, List.drop_succ_cons, List.drop_zero]

theorem isOmitted_of_isOuter {body : List Text} {item : Text × Nat} (silent : tells comment sentinels item.1 = false)
    (outer : IsOuter comment sentinels body item.2) : IsOmitted comment sentinels body (Mentions sentinels) item := by
  simp only [tells, Bool.and_eq_false_iff, Bool.not_eq_false'] at silent
  rcases silent with blank | scaffolding
  · exact .inl ⟨blank, outer⟩
  · exact .inr (isScaffolding_iff.mp scaffolding)

/-- Between the first line that tells something and the last one, only scaffolding is left out. -/
theorem isOmitted_append_iff {above below : List Text} {line : Text}
    (first : ∃ other ∈ above ++ [line], tells comment sentinels other = true)
    (last : ∃ other ∈ line :: below, tells comment sentinels other = true) :
    IsOmitted comment sentinels (above ++ line :: below) (Mentions sentinels) (line, above.length) ↔
      isScaffolding sentinels line = true := by
  rw [isScaffolding_iff, IsOmitted, or_iff_right]
  -- A blank line tells nothing itself, so something is told above it and something below.
  rintro ⟨blank, outer⟩
  have silent : tells comment sentinels line = false := by rw [tells, blank]; rfl
  rcases isOuter_append_iff.mp outer with outer | outer
  · obtain ⟨other, member, told⟩ := first
    rcases List.mem_append.mp member with member | member
    · simp [outer other member] at told
    · simp [List.mem_singleton.mp member, silent] at told
  · obtain ⟨other, member, told⟩ := last
    rcases List.mem_cons.mp member with rfl | member
    · simp [silent] at told
    · simp [outer other member] at told

/-! ## Parting a body -/

/-- Lines that tell something stand only in the core of a body, and first and last in it. -/
structure IsParted (comment : Text) (sentinels lead core trail : List Text) : Prop where
  lead : ∀ line ∈ lead, tells comment sentinels line = false
  trail : ∀ line ∈ trail, tells comment sentinels line = false
  first : ∀ line ∈ core.head?, tells comment sentinels line = true
  last : ∀ line ∈ core.getLast?, tells comment sentinels line = true

theorem exists_isParted (comment : Text) (sentinels body : List Text) :
    ∃ lead core trail, body = lead ++ (core ++ trail) ∧ IsParted comment sentinels lead core trail := by
  let silent : Text → Bool := fun line => !tells comment sentinels line
  let rest := body.dropWhile silent
  have taken (lines : List Text) : ∀ line ∈ lines.takeWhile silent, tells comment sentinels line = false := by
    intro line member
    simpa [silent] using List.all_eq_true.mp List.all_takeWhile line member
  have stopped (lines : List Text) : ∀ line ∈ (lines.dropWhile silent).head?, tells comment sentinels line = true := by
    intro line member
    have stop := any_head?_dropWhile silent lines
    rw [Option.mem_def.mp member] at stop
    simpa [silent] using stop
  -- The core is what is left when silent lines are dropped at the front, and then at the end.
  have split : rest = (rest.reverse.dropWhile silent).reverse ++ (rest.reverse.takeWhile silent).reverse := by
    rw [← List.reverse_append, List.takeWhile_append_dropWhile, List.reverse_reverse]
  refine ⟨body.takeWhile silent, (rest.reverse.dropWhile silent).reverse, (rest.reverse.takeWhile silent).reverse,
    ?_, taken body, ?_, ?_, ?_⟩
  · rw [← split, List.takeWhile_append_dropWhile]
  · intro line member
    exact taken rest.reverse line (List.mem_reverse.mp member)
  · intro line member
    refine stopped body line ?_
    rw [show body.dropWhile silent = rest from rfl, split, List.head?_append, Option.mem_def.mp member]
    rfl
  · intro line member
    rw [List.getLast?_reverse] at member
    exact stopped rest.reverse line member

namespace IsParted

variable {lead core trail : List Text} (parted : IsParted comment sentinels lead core trail)

include parted

theorem keptLines_eq :
    keptLines comment sentinels (lead ++ (core ++ trail)) = core.filter fun line => !isScaffolding sentinels line := by
  have blank {lines : List Text} (silent : ∀ line ∈ lines, tells comment sentinels line = false) :
      ∀ line ∈ lines.filter fun line => !isScaffolding sentinels line, isBlankComment comment line = true := by
    intro line member
    obtain ⟨inside, kept⟩ := List.mem_filter.mp member
    have untold := silent line inside
    rw [tells, kept, Bool.and_true] at untold
    simpa using untold
  have kept {line : Text} (told : tells comment sentinels line = true) :
      isBlankComment comment line = false ∧ (!isScaffolding sentinels line) = true := by
    simpa [tells] using told
  rw [keptLines, List.filter_append, List.filter_append, trimBlankLines_append_of_blank _ (blank parted.lead),
    trimBlankLines_append_blank _ (blank parted.trail)]
  -- The ends of what is left are lines that tell something.
  apply trimBlankLines_eq_self
  · cases core with
    | nil =>
      intro other member
      cases member
    | cons line core =>
      have told := kept (parted.first line rfl)
      rw [List.filter_cons, if_pos told.2]
      rintro other ⟨⟩
      exact told.1
  · rcases List.eq_nil_or_concat core with rfl | ⟨front, line, rfl⟩
    · intro other member
      cases member
    · rw [List.concat_eq_append] at parted ⊢
      have told := kept (parted.last line List.getLast?_concat)
      rw [List.filter_append, List.filter_cons, if_pos told.2, List.filter_nil, List.getLast?_concat]
      rintro other ⟨⟩
      exact told.1

theorem isOmitted_lead {item : Text × Nat} (member : item ∈ lead.zipIdx) :
    IsOmitted comment sentinels (lead ++ (core ++ trail)) (Mentions sentinels) item := by
  obtain ⟨above, below, rfl, position⟩ := exists_split_of_mem_zipIdx member
  refine isOmitted_of_isOuter (parted.lead _ (by simp)) ?_
  rw [position, Nat.zero_add, List.append_assoc, List.cons_append, isOuter_append_iff]
  exact .inl fun line inside => parted.lead line (List.mem_append_left _ inside)

theorem isOmitted_trail {item : Text × Nat} (member : item ∈ trail.zipIdx (lead.length + core.length)) :
    IsOmitted comment sentinels (lead ++ (core ++ trail)) (Mentions sentinels) item := by
  obtain ⟨above, below, rfl, position⟩ := exists_split_of_mem_zipIdx member
  refine isOmitted_of_isOuter (parted.trail _ (by simp)) ?_
  rw [position, ← List.append_assoc, ← List.append_assoc, ← List.length_append, ← List.length_append,
    isOuter_append_iff]
  exact .inr fun line inside => parted.trail line (List.mem_append_right _ (List.mem_cons_of_mem _ inside))

theorem isOmitted_core_iff {item : Text × Nat} (member : item ∈ core.zipIdx lead.length) :
    IsOmitted comment sentinels (lead ++ (core ++ trail)) (Mentions sentinels) item ↔
      isScaffolding sentinels item.1 = true := by
  obtain ⟨above, below, split, position⟩ := exists_split_of_mem_zipIdx member
  obtain ⟨line, offset⟩ := item
  obtain rfl : offset = (lead ++ above).length := by
    rw [List.length_append]
    exact position
  obtain rfl : core = above ++ line :: below := split
  obtain ⟨begun, begins⟩ := Option.isSome_iff_exists.mp (show (above ++ [line]).head?.isSome = true by simp)
  obtain ⟨ended, ends⟩ := Option.isSome_iff_exists.mp (show (line :: below).getLast?.isSome = true by simp)
  rw [List.append_assoc, List.cons_append, ← List.append_assoc]
  -- The first line of the core stands at the line or above it, and the last one at it or below.
  apply isOmitted_append_iff
  · refine ⟨begun, ?_, parted.first begun ?_⟩
    · rw [List.append_assoc]
      exact List.mem_append_right _ (List.mem_of_head? begins)
    · rw [List.append_cons, List.head?_append, begins]
      rfl
  · refine ⟨ended, ?_, parted.last ended ?_⟩
    · rw [← List.cons_append]
      exact List.mem_append_left _ (List.mem_of_getLast? ends)
    · rw [List.getLast?_append, ends]
      rfl

end IsParted

/-! ## Reading -/

/-- What is kept of a body, position by position. -/
theorem keptLines_eq_map_filter (comment : Text) (sentinels body : List Text) :
    keptLines comment sentinels body
      = (body.zipIdx.filter fun item => ¬ IsOmitted comment sentinels body (Mentions sentinels) item).map (·.1) := by
  obtain ⟨lead, core, trail, rfl, parted⟩ := exists_isParted comment sentinels body
  let omitted := IsOmitted comment sentinels (lead ++ (core ++ trail)) (Mentions sentinels)
  have nothing {items : List (Text × Nat)} (all : ∀ item ∈ items, omitted item) :
      items.filter (fun item => ¬ omitted item) = [] := by
    rw [List.filter_eq_nil_iff]
    intro item member
    simpa using all item member
  have unmarked : (core.zipIdx lead.length).filter (fun item => ¬ omitted item)
      = (core.zipIdx lead.length).filter ((fun line => !isScaffolding sentinels line) ∘ (·.1)) := by
    refine List.filter_congr fun item member => ?_
    simp [omitted, parted.isOmitted_core_iff member]
  -- Of the lead and the trail nothing is left, and of the core what is no scaffolding.
  rw [parted.keptLines_eq, List.zipIdx_append, List.zipIdx_append, List.filter_append, List.filter_append,
    nothing fun item member => parted.isOmitted_lead member, Nat.zero_add, unmarked,
    nothing fun item member => parted.isOmitted_trail member, List.nil_append, List.append_nil, ← List.filter_map,
    List.zipIdx_map_fst]

namespace Narrative

/-- The lines that are read from a section are those of its body that are not omitted, and a line is omitted for what
it mentions. Those that are nothing but a sentinel are among them; nothing else is lost exactly if every line that
mentions a sentinel is one, or would be omitted without it. -/
theorem lines_extract_eq (comment : Text) (sentinels header : List Text) (part : Section) :
    let body := ((sectionBody? comment header part).map (·.slice header)).getD []
    let omitted := IsOmitted comment sentinels body (Mentions sentinels)
    let permitted := IsOmitted comment sentinels body (IsSentinel comment sentinels)
    (extract comment sentinels header).lines part = (body.zipIdx.filter fun item => ¬ omitted item).map (·.1) ∧
      (∀ item, permitted item → omitted item) ∧
      ((∀ item ∈ body.zipIdx, omitted item → permitted item) ↔
        ∀ item ∈ body.zipIdx, Mentions sentinels item.1 → permitted item) := by
  intro body omitted permitted
  refine ⟨?_, ?_, ?_⟩
  · rw [extract_lines, ← keptLines_eq_map_filter, sectionLines]
    cases found : sectionBody? comment header part with
    | none => simp [body, found, keptLines, trimBlankLines]
    | some span => simp [body, found, keptLines]
  · -- Whatever is a sentinel mentions one.
    intro item
    exact Or.imp_right (Or.imp_right IsSentinel.mentions)
  · constructor
    · intro all item member mentions
      exact all item member (.inr (.inr mentions))
    · rintro all item member (outer | occurs | mentions)
      · exact .inl outer
      · exact .inr (.inl occurs)
      · exact all item member mentions

/-- A line of the to-do list that only mentions a sentinel is lost. -/
theorem lines_extract_mentioning :
    let header : List Text := ["//----", "// To-Do List :", "//   * Tell <Error> from a warning", "//   * <Error>", "//----"]
    let body := ((sectionBody? "//" header .todoList).map (·.slice header)).getD []
    (extract "//" ["<Error>"] header).todoList = [] ∧
      body.zipIdx = [("//   * Tell <Error> from a warning".toList, 0), ("//   * <Error>".toList, 1)] ∧
      ¬ IsOmitted "//" ["<Error>"] body (IsSentinel "//" ["<Error>"]) ("//   * Tell <Error> from a warning".toList, 0) ∧
      IsOmitted "//" ["<Error>"] body (IsSentinel "//" ["<Error>"]) ("//   * <Error>".toList, 1) := by
  decide +kernel

end Narrative

end Masthead.Header

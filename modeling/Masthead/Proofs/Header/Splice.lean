import Masthead.Proofs.Header.DayLine
import Masthead.Proofs.Header.Extent

/-!
# What a merge changes

A fresh header falls into stretches: lines that stay, and the middles of the sections that a narrative has something
to say in. A header is spliced if each such middle gives way to the lines of the narrative and the day of creation
goes into the first line of the others that has its field. Merging puts the day into the first such line of the whole
header instead, so it is splicing only where no line that the narrative brings along comes first with that field.
-/

namespace Masthead.Header

open Text

/-- Whether a day of creation can be read from one of the lines. -/
def HasDay (lines : List Text) : Prop :=
  ∃ line ∈ lines, (creationField.cut? line).isSome = true

instance (lines : List Text) : Decidable (HasDay lines) :=
  inferInstanceAs (Decidable (∃ line ∈ lines, (creationField.cut? line).isSome = true))

theorem cut?_eq_none_of_not_hasDay {lines : List Text} (dayless : ¬ HasDay lines) :
    ∀ line ∈ lines, creationField.cut? line = none := by
  intro line member
  by_contra isCut
  exact dayless ⟨line, member, Option.isSome_iff_ne_none.mpr isCut⟩

namespace Narrative

variable (date : Text) {lines : List Text} (below : List Text)

theorem putDate_append_of_not_hasDay (dayless : ¬ HasDay lines) :
    putDate date (lines ++ below) = lines ++ putDate date below :=
  putDate_append_uncut date below (cut?_eq_none_of_not_hasDay dayless)

theorem putDate_append_of_hasDay (hasDay : HasDay lines) :
    putDate date (lines ++ below) = putDate date lines ++ below := by
  rcases putDate_cases date lines with ⟨-, uncut⟩ | ⟨above, line, found, rest, rfl, uncut, cut, placed⟩
  · obtain ⟨line, member, isCut⟩ := hasDay
    simp [uncut line member] at isCut
  · rw [placed, List.append_assoc, List.cons_append, putDate_append date _ uncut cut, List.append_assoc,
      List.cons_append]

end Narrative

/-! ## Stretches -/

/-- A part of a fresh header: lines that stay, or the middle of a section that is told anew. -/
inductive Stretch
  | kept (lines : List Text)
  | told (part : Section) (middle : List Text)
  deriving DecidableEq

namespace Stretch

/-- The lines that stand in the fresh header. -/
def own : Stretch → List Text
  | kept lines => lines
  | told _ middle => middle

/-- The lines that a narrative puts in their place. -/
def filled (narrative : Narrative) : Stretch → List Text
  | kept lines => lines
  | told part _ => narrative.lines part

/-- The section that is told anew. -/
def part? : Stretch → Option Section
  | kept _ => none
  | told part _ => some part

/-- Puts a day into the first line with its field that no narrative replaces. -/
def withDay (date : Text) : List Stretch → List Stretch
  | [] => []
  | kept lines :: rest =>
    if HasDay lines then kept (Narrative.putDate date lines) :: rest else kept lines :: withDay date rest
  | told part middle :: rest => told part middle :: withDay date rest

/-- Whether the first field of a day is one that stays, or else none of what is told or follows needs the day. -/
def PassesOver (narrative : Narrative) (date : Text) : List Stretch → Prop
  | [] => True
  | kept lines :: rest => HasDay lines ∨ PassesOver narrative date rest
  | told part _ :: rest =>
    if HasDay (narrative.lines part) then
      Narrative.putDate date (narrative.lines part) = narrative.lines part ∧ withDay date rest = rest
    else PassesOver narrative date rest

variable (narrative : Narrative) (date : Text)

theorem flatMap_filled_withDay_eq_iff (stretches : List Stretch) :
    (withDay date stretches).flatMap (filled narrative) = stretches.flatMap (filled narrative) ↔
      withDay date stretches = stretches := by
  induction stretches with
  | nil => simp [withDay]
  | cons stretch rest inductionHypothesis =>
    cases stretch with
    | told part middle => simp [withDay, inductionHypothesis]
    | kept lines =>
      by_cases hasDay : HasDay lines
      · simp [withDay, hasDay, filled]
      · simp [withDay, hasDay, inductionHypothesis]

/-- The first day of the filled header is the first one that stays, unless a told one comes before it. -/
theorem putDate_flatMap_filled_iff (stretches : List Stretch) :
    Narrative.putDate date (stretches.flatMap (filled narrative)) = (withDay date stretches).flatMap (filled narrative) ↔
      PassesOver narrative date stretches := by
  induction stretches with
  | nil => simp [withDay, PassesOver, Narrative.putDate]
  | cons stretch rest inductionHypothesis =>
    rw [List.flatMap_cons]
    cases stretch with
    | kept lines =>
      by_cases hasDay : HasDay lines
      · simp [withDay, PassesOver, filled, hasDay, Narrative.putDate_append_of_hasDay]
      · simp [withDay, PassesOver, filled, hasDay, Narrative.putDate_append_of_not_hasDay, inductionHypothesis]
    | told part middle =>
      by_cases hasDay : HasDay (narrative.lines part)
      · -- A told line takes the day: nothing may change by it, and nothing else may be left to change.
        have sameLength := Narrative.length_putDate date (narrative.lines part)
        rw [PassesOver, if_pos hasDay, filled, Narrative.putDate_append_of_hasDay _ _ hasDay, withDay,
          List.flatMap_cons, filled, ← flatMap_filled_withDay_eq_iff narrative]
        constructor
        · intro equal
          obtain ⟨same, rest⟩ := List.append_inj equal sameLength
          exact ⟨same, rest.symm⟩
        · rintro ⟨same, rest⟩
          rw [same, rest]
      · simp [withDay, PassesOver, filled, hasDay, Narrative.putDate_append_of_not_hasDay, inductionHypothesis]

end Stretch

/-! ## Cutting a header into stretches -/

namespace Stretch

/-- Cuts a header around the middles of the sections at some places, the lowest first. -/
def divide (comment : Text) : List (Span × Section) → List Text → List Stretch
  | [], header => [kept header]
  | (span, part) :: places, header =>
    let body := span.slice header
    divide comment places (header.take span.start ++ leadingBlanks comment body) ++
      [told part (trimBlankLines comment body), kept (trailingBlanks comment body ++ header.drop span.stop)]

variable {comment : Text} {narrative : Narrative} {header : List Text} {places : List (Span × Section)}

theorem divide_cutout (cutout : Cutout) (part : Section) (places : List (Span × Section)) :
    divide comment ((cutout.span, part) :: places) cutout.lines
      = divide comment places (cutout.before ++ cutout.label :: leadingBlanks comment cutout.body) ++
        [told part (trimBlankLines comment cutout.body), kept (trailingBlanks comment cutout.body ++ cutout.after)] := by
  simp [divide, cutout.slice_span, cutout.take_start_span, cutout.drop_stop_span]

theorem flatMap_own_divide (hold : Narrative.Places comment header places) :
    (divide comment places header).flatMap own = header := by
  induction hold using Narrative.Places.induction with
  | nil header hold => simp [divide, own]
  | cons cutout part places holds hold inductionHypothesis =>
    rw [divide_cutout, List.flatMap_append, inductionHypothesis]
    conv => rhs; rw [Cutout.lines, ← leadingBlanks_append comment cutout.body]
    simp [own]

theorem filterMap_part?_divide (places : List (Span × Section)) (header : List Text) :
    (divide comment places header).filterMap part? = (places.map (·.2)).reverse := by
  induction places generalizing header with
  | nil => rfl
  | cons place places inductionHypothesis =>
    simp [divide, inductionHypothesis, part?]

/-- Filling a section leaves what is below the header alone. -/
theorem putSection_append (cutout : Cutout) (part : Section) (below : List Text) :
    narrative.putSection comment (cutout.lines ++ below) (cutout.span, part)
      = narrative.putSection comment cutout.lines (cutout.span, part) ++ below := by
  have extended : narrative.putSection comment (cutout.extend below).lines (cutout.span, part) = _ :=
    Narrative.putSection_eq narrative (cutout.extend below) part
  rw [Cutout.lines_extend] at extended
  rw [extended, Narrative.putSection_eq]
  exact Cutout.lines_extend (cutout.withBody _) below

theorem foldl_putSection_append (hold : Narrative.Places comment header places) (below : List Text) :
    places.foldl (narrative.putSection comment) (header ++ below)
      = places.foldl (narrative.putSection comment) header ++ below := by
  induction hold using Narrative.Places.induction with
  | nil header hold => rfl
  | cons cutout part places holds hold inductionHypothesis =>
    rw [List.foldl_cons, List.foldl_cons, putSection_append, Narrative.putSection_eq, Cutout.lines_withBody,
      inductionHypothesis]

theorem foldl_putSection_eq_flatMap_filled (hold : Narrative.Places comment header places) :
    places.foldl (narrative.putSection comment) header = (divide comment places header).flatMap (filled narrative) := by
  induction hold using Narrative.Places.induction with
  | nil header hold => simp [divide, filled]
  | cons cutout part places holds hold inductionHypothesis =>
    have upper := hold.above holds (leadingBlanks comment cutout.body)
    -- The filled header is what is left to fill with the section's new end below it.
    have split : narrative.putSection comment cutout.lines (cutout.span, part)
        = (cutout.before ++ cutout.label :: leadingBlanks comment cutout.body) ++
          (narrative.lines part ++ (trailingBlanks comment cutout.body ++ cutout.after)) := by
      rw [Narrative.putSection_eq, framed_eq]
      simp [Cutout.lines, Cutout.withBody]
    rw [List.foldl_cons, split, foldl_putSection_append upper, inductionHypothesis, divide_cutout,
      List.flatMap_append]
    simp [filled]

theorem append_pair_cases {divided above below : List Stretch} {lowest part : Section} {last middle lines : List Text}
    (split : divided ++ [told lowest last, kept lines] = above ++ told part middle :: below) :
    (divided = above ∧ lowest = part ∧ last = middle ∧ below = [kept lines]) ∨
      ∃ between, divided = above ++ told part middle :: between ∧ below = between ++ [told lowest last, kept lines] := by
  rcases List.append_eq_append_iff.mp split with ⟨rest, aboveEqual, tail⟩ | ⟨rest, dividedEqual, tail⟩
  · match rest with
    | [] =>
      simp only [List.nil_append, List.cons.injEq, told.injEq] at tail
      exact .inl ⟨by simp [aboveEqual], tail.1.1, tail.1.2, tail.2.symm⟩
    | [_] => simp at tail
    | _ :: _ :: _ => simp at tail
  · cases rest with
    | nil =>
      simp only [List.nil_append, List.cons.injEq, told.injEq] at tail
      exact .inl ⟨by simp [dividedEqual], tail.1.1.symm, tail.1.2.symm, tail.2⟩
    | cons first rest =>
      obtain ⟨rfl, belowEqual⟩ := List.cons.inj tail
      exact .inr ⟨rest, dividedEqual, belowEqual⟩

/-- A stretch that is told anew is the middle of its section, with the rest of the header around it. -/
theorem exists_span_of_divide (hold : Narrative.Places comment header places) {lower : List Text}
    (found : ∀ place ∈ places, sectionBody? comment (header ++ lower) place.2 = some place.1)
    {above below : List Stretch} {part : Section} {middle : List Text}
    (split : divide comment places header = above ++ told part middle :: below) :
    ∃ span, sectionBody? comment (header ++ lower) part = some span ∧
      middle = trimBlankLines comment (span.slice (header ++ lower)) ∧
      above.flatMap own = (header ++ lower).take span.start ++ leadingBlanks comment (span.slice (header ++ lower)) ∧
      below.flatMap own ++ lower
        = trailingBlanks comment (span.slice (header ++ lower)) ++ (header ++ lower).drop span.stop := by
  induction hold using Narrative.Places.induction generalizing lower below with
  | nil header hold => simp [divide, List.cons_eq_append_iff] at split
  | cons cutout lowest places holds hold inductionHypothesis =>
    have upper := hold.above holds (leadingBlanks comment cutout.body)
    rw [divide_cutout] at split
    rcases append_pair_cases split with ⟨rfl, rfl, rfl, rfl⟩ | ⟨between, divided, rfl⟩
    · refine ⟨cutout.span, found _ List.mem_cons_self, ?_⟩
      rw [← Cutout.lines_extend, show cutout.span = (cutout.extend lower).span from rfl, Cutout.slice_span,
        Cutout.take_start_span, Cutout.drop_stop_span, flatMap_own_divide upper]
      simp [Cutout.extend, own]
    · -- What is left above has the end of this section below it.
      have whole : cutout.lines ++ lower = (cutout.before ++ cutout.label :: leadingBlanks comment cutout.body) ++
          (trimBlankLines comment cutout.body ++ (trailingBlanks comment cutout.body ++ (cutout.after ++ lower))) := by
        conv => lhs; rw [Cutout.lines, ← leadingBlanks_append comment cutout.body]
        simp
      rw [whole] at found ⊢
      obtain ⟨span, body, middleEqual, aboveEqual, belowEqual⟩ :=
        inductionHypothesis _ (fun place member => found place (List.mem_cons_of_mem _ member)) divided
      refine ⟨span, body, middleEqual, aboveEqual, ?_⟩
      rw [← belowEqual]
      simp [own]

/-- The lines above all sections stay in the first stretch. -/
theorem exists_kept_of_datedAbove (hold : Narrative.Places comment header places) (dated : DatedAbove comment header) :
    ∃ lines rest, divide comment places header = kept lines :: rest ∧ HasDay lines := by
  induction hold using Narrative.Places.induction with
  | nil header hold =>
    obtain ⟨line, member, cut⟩ := dated
    exact ⟨header, [], rfl, line, (List.takeWhile_sublist _).subset member, cut⟩
  | cons cutout part places holds hold inductionHypothesis =>
    rw [DatedAbove, Cutout.lines, preamble_append_label holds.named] at dated
    have upper : DatedAbove comment (cutout.before ++ cutout.label :: leadingBlanks comment cutout.body) := by
      rwa [DatedAbove, preamble_append_label holds.named]
    obtain ⟨lines, rest, divided, hasDay⟩ := inductionHypothesis _ upper
    exact ⟨lines, _, by rw [divide_cutout, divided, List.cons_append], hasDay⟩

end Stretch

/-! ## Merging -/

namespace Narrative

/-- The stretches of a fresh header around what a narrative has to say. -/
def stretches (comment : Text) (narrative : Narrative) (fresh : List Text) : List Stretch :=
  Stretch.divide comment (narrative.places comment fresh) fresh

/-- A fresh header with what a narrative has to say in its place, and the day where the header itself has one. -/
def spliced (comment : Text) (narrative : Narrative) (fresh : List Text) : List Text :=
  match narrative.creationDate with
  | some date => (Stretch.withDay date (narrative.stretches comment fresh)).flatMap (Stretch.filled narrative)
  | none => (narrative.stretches comment fresh).flatMap (Stretch.filled narrative)

/-- How the stretches of a fresh header lie in it: the middles of its sections that a narrative has something to say
in, each of them once, and everything else as it stands. -/
structure Divides (comment : Text) (narrative : Narrative) (fresh : List Text) (stretches : List Stretch) : Prop where
  own : stretches.flatMap Stretch.own = fresh
  once : (stretches.filterMap Stretch.part?).Nodup
  told : ∀ part, part ∈ stretches.filterMap Stretch.part? ↔
    narrative.hasContent comment part = true ∧ ∃ line ∈ fresh, sectionLabel? comment line = some part
  middle : ∀ above part middle below, stretches = above ++ .told part middle :: below →
    ∃ span, sectionBody? comment fresh part = some span ∧
      middle = trimBlankLines comment (span.slice fresh) ∧
      above.flatMap Stretch.own = fresh.take span.start ++ leadingBlanks comment (span.slice fresh) ∧
      below.flatMap Stretch.own = trailingBlanks comment (span.slice fresh) ++ fresh.drop span.stop

variable {comment : Text} {narrative : Narrative} {fresh : List Text}

theorem isSome_sectionBody?_iff {part : Section} :
    (sectionBody? comment fresh part).isSome = true ↔ ∃ line ∈ fresh, sectionLabel? comment line = some part := by
  simp [sectionBody?, findLabel?, List.findIdx?_isSome]

theorem divides_stretches (comment : Text) (narrative : Narrative) (fresh : List Text) :
    Divides comment narrative fresh (narrative.stretches comment fresh) := by
  -- The stretches are divided at the places, which lie in the header one behind the other.
  have hold := places_hold comment narrative fresh
  refine ⟨Stretch.flatMap_own_divide hold, ?_, ?_, ?_⟩
  · rw [stretches, Stretch.filterMap_part?_divide, (List.reverse_perm _).nodup_iff]
    exact nodup_map_places comment narrative fresh
  · intro part
    rw [stretches, Stretch.filterMap_part?_divide, List.mem_reverse, List.mem_map, ← isSome_sectionBody?_iff]
    constructor
    · rintro ⟨place, member, rfl⟩
      obtain ⟨content, found⟩ := mem_places.mp member
      exact ⟨content, by simp [found]⟩
    · rintro ⟨content, found⟩
      obtain ⟨span, found⟩ := Option.isSome_iff_exists.mp found
      exact ⟨(span, part), mem_places.mpr ⟨content, found⟩, rfl⟩
  · intro above part middle below split
    have found : ∀ place ∈ narrative.places comment fresh,
        sectionBody? comment (fresh ++ []) place.2 = some place.1 := by
      rw [List.append_nil]
      exact hold.found
    have exists_span := Stretch.exists_span_of_divide hold found split
    simpa only [List.append_nil] using exists_span

theorem fillSections_eq (comment : Text) (narrative : Narrative) (fresh : List Text) :
    narrative.fillSections comment fresh = (narrative.stretches comment fresh).flatMap (Stretch.filled narrative) :=
  Stretch.foldl_putSection_eq_flatMap_filled (places_hold comment narrative fresh)

theorem passesOver_of_datedAbove (dated : DatedAbove comment fresh) (date : Text) :
    Stretch.PassesOver narrative date (narrative.stretches comment fresh) := by
  obtain ⟨lines, rest, divided, hasDay⟩ :=
    Stretch.exists_kept_of_datedAbove (places_hold comment narrative fresh) dated
  rw [stretches, divided]
  exact .inl hasDay

/-- Merging tells the sections anew and puts the day into the first line with its field. That is splicing exactly where
the day goes by all that is told, as it does below a day above all sections. -/
theorem mergeInto_eq_spliced_iff (comment : Text) (narrative : Narrative) (fresh : List Text) :
    let stretches := narrative.stretches comment fresh
    let filled := stretches.flatMap (Stretch.filled narrative)
    Divides comment narrative fresh stretches ∧
      (narrative.creationDate = none → narrative.mergeInto comment fresh = filled) ∧
      (∀ date, narrative.creationDate = some date → narrative.mergeInto comment fresh = putDate date filled) ∧
      (narrative.mergeInto comment fresh = narrative.spliced comment fresh ↔
        ∀ date ∈ narrative.creationDate, Stretch.PassesOver narrative date stretches) ∧
      (DatedAbove comment fresh → narrative.mergeInto comment fresh = narrative.spliced comment fresh) := by
  intro stretches filled
  have filledEqual : narrative.fillSections comment fresh = filled := fillSections_eq comment narrative fresh
  -- Both put the day into the filled header, and differ at most in the line that it goes to.
  have splices : narrative.mergeInto comment fresh = narrative.spliced comment fresh ↔
      ∀ date ∈ narrative.creationDate, Stretch.PassesOver narrative date stretches := by
    rw [mergeInto_eq, spliced, filledEqual]
    cases narrative.creationDate with
    | none => simp [filled, stretches]
    | some date => simp [filled, stretches, Stretch.putDate_flatMap_filled_iff]
  refine ⟨divides_stretches comment narrative fresh, ?_, ?_, splices, ?_⟩
  · intro missing
    rw [mergeInto_of_eq_none missing, filledEqual]
  · intro date given
    rw [mergeInto_of_eq_some given, filledEqual]
  · intro dated
    exact splices.mpr fun date _ => passesOver_of_datedAbove dated date

/-- A line that is carried over takes the day in place of the fresh header's own. -/
theorem mergeInto_overwrites_carried :
    let old : List Text := ["//----", "// Created : 2020/01/01", "// Description :", "//   Created : by Ada in a hurry",
      "//----"]
    let fresh : List Text := ["//----", "// Description :", "//   new", "//----", "// Created : 2026/01/01", "//----"]
    let narrative := extract "//" [] old
    narrative.mergeInto "//" fresh = ["//----", "// Description :", "//   Created : 2020/01/01", "//----",
        "// Created : 2026/01/01", "//----"] ∧
      narrative.spliced "//" fresh = ["//----", "// Description :", "//   Created : by Ada in a hurry", "//----",
        "// Created : 2020/01/01", "//----"] := by
  decide +kernel

end Narrative

end Masthead.Header

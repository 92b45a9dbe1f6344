import Masthead.Proofs.Header.CreationDate
import Masthead.Proofs.Header.Outcome
import Masthead.Proofs.Header.Rendering

/-!
# What a header says survives its rendering

A header that is rendered anew keeps the narrative of the old one in exactly those sections that
have a place in the new header, and into which the day of creation is not written. A style without
history and to-do list has no such place: what was written there is lost.
-/

namespace Masthead.Header

namespace Narrative

/-- Whether a header says in its sections what a narrative has to say there. -/
def KeptBy (comment : Text) (sentinels : List Text) (narrative : Narrative) (header : List Text) : Prop :=
  ∀ part, narrative.hasContent comment part = true →
    (extract comment sentinels header).lines part = narrative.lines part

/-- Whether a fresh header has a place for everything that a narrative says, which the day of
creation then leaves alone. -/
def HasPlaceIn (comment : Text) (narrative : Narrative) (fresh : List Text) : Prop :=
  ∀ part, narrative.hasContent comment part = true →
    (sectionText? comment part fresh).isSome = true ∧
      sectionText? comment part (narrative.mergeInto comment fresh)
        = sectionText? comment part (narrative.fillSections comment fresh)

end Narrative

theorem eq_of_filter_set {seen : Text → Bool} {before after : List Text} {line other : Text}
    (equal : (before ++ other :: after).filter seen = (before ++ line :: after).filter seen)
    (lineSeen : seen line = true) : other = line := by
  rw [List.filter_append, List.filter_append, List.append_cancel_left_eq, List.filter_cons, List.filter_cons,
    if_pos lineSeen] at equal
  split at equal
  · exact (List.cons.inj equal).1
  · -- A line that is not seen would leave too few of them.
    have lengths := congrArg List.length equal
    rw [List.length_cons] at lengths
    omega

namespace Narrative

variable {comment : Text} {sentinels : List Text}

theorem lines_eq_nil_of_hasContent {narrative : Narrative} {part : Section}
    (content : narrative.hasContent comment part = true) : narrative.lines part ≠ [] := by
  intro empty
  rw [hasContent, empty] at content
  cases content

theorem sectionText?_mergeInto_cases {narrative : Narrative} (undated : Undated comment) (fresh : List Text)
    (part : Section) :
    sectionText? comment part (narrative.mergeInto comment fresh)
        = sectionText? comment part (narrative.fillSections comment fresh) ∨
      ∃ before line other after, IsDated line ∧
        sectionText? comment part (narrative.fillSections comment fresh) = some (before ++ line :: after) ∧
        sectionText? comment part (narrative.mergeInto comment fresh) = some (before ++ other :: after) := by
  rw [mergeInto_eq]
  cases narrative.creationDate with
  | none => exact .inl rfl
  | some date =>
    dsimp only
    rcases putDate_cases date (narrative.fillSections comment fresh) with
      ⟨same, -⟩ | ⟨above, line, found, below, split, -, cut, placed⟩
    · exact .inl (by rw [same])
    · have dated := isDated_of_cut? cut
      rw [placed, split]
      rcases sectionText?_set (undated.endsSection_eq_false dated)
        (undated.endsSection_eq_false (isDated_head_append cut date)) part with same | ⟨before, after, old, new⟩
      · exact .inl same
      · exact .inr ⟨before, line, _, after, dated, old, new⟩

/-- A line of a filled section that is dated comes from the narrative. -/
theorem mem_lines_of_isDated {narrative : Narrative} (stays : narrative.StaysInside comment)
    (undated : Undated comment) {fresh text : List Text} {part : Section}
    (content : narrative.hasContent comment part = true)
    (filled : sectionText? comment part (narrative.fillSections comment fresh) = some text) {line : Text}
    (member : line ∈ text) (dated : IsDated line) : line ∈ narrative.lines part := by
  rw [sectionText?_fillSections stays] at filled
  obtain ⟨body, -, framedEqual⟩ := Option.map_eq_some_iff.mp filled
  rw [if_pos content] at framedEqual
  obtain ⟨lead, trail, split, leadBlank, trailBlank⟩ := exists_framed_split comment body (narrative.lines part)
  have visible := undated.isBlankComment_eq_false dated
  rw [← framedEqual, split, List.mem_append, List.mem_append] at member
  rcases member with member | member | member
  · rw [(leadBlank line member).1] at visible
    cases visible
  · exact member
  · rw [(trailBlank line member).1] at visible
    cases visible

theorem keptBy_mergeInto {old fresh : List Text}
    (places : (extract comment sentinels old).HasPlaceIn comment fresh) :
    (extract comment sentinels old).KeptBy comment sentinels
      ((extract comment sentinels old).mergeInto comment fresh) := by
  intro part content
  obtain ⟨labelled, untouched⟩ := places part content
  rw [extract_lines, sectionLines_eq, untouched, ← sectionLines_eq]
  exact sectionLines_fillSections content labelled

theorem hasPlaceIn_of_keptBy (undated : Undated comment) {old fresh : List Text}
    (kept : (extract comment sentinels old).KeptBy comment sentinels
      ((extract comment sentinels old).mergeInto comment fresh)) :
    (extract comment sentinels old).HasPlaceIn comment fresh := by
  intro part content
  have stays := extract_staysInside comment sentinels old
  have same := kept part content
  rw [extract_lines, sectionLines_eq] at same
  have labelled : (sectionText? comment part fresh).isSome = true := by
    cases text : sectionText? comment part fresh with
    | some body => rfl
    | none =>
      -- Without a label there is no text, neither before nor after the day is put in.
      have missing := sectionText?_fillSections stays fresh part
      rw [text, Option.map_none] at missing
      rcases sectionText?_mergeInto_cases undated fresh part with unchanged | ⟨before, line, other, after, -, filled, -⟩
      · rw [unchanged, missing] at same
        exact absurd same.symm (lines_eq_nil_of_hasContent content)
      · rw [missing] at filled
        cases filled
  refine ⟨labelled, ?_⟩
  rcases sectionText?_mergeInto_cases undated fresh part with unchanged | ⟨before, line, other, after, dated, filled, merged⟩
  · exact unchanged
  · -- The dated line is one of those that are kept, so it can be replaced by itself only.
    have undatedSame := sectionLines_fillSections content labelled
    rw [sectionLines_eq, filled, ← same, merged] at undatedSame
    have member := mem_lines_of_isDated stays undated content filled (by simp) dated
    have seen := congrArg (List.filter fun line => !isBlankComment comment line) undatedSame.symm
    simp only [Option.map_some, Option.getD_some, keptLines, filter_trimBlankLines, List.filter_filter] at seen
    have unchanged : other = line := by
      apply eq_of_filter_set seen
      rw [extract_lines, sectionLines_eq] at member
      cases oldText : sectionText? comment part old with
      | none => rw [oldText] at member; cases member
      | some oldBody =>
        rw [oldText] at member
        simp [(of_mem_keptLines member).2, undated.isBlankComment_eq_false dated]
    rw [merged, filled, unchanged]

end Narrative

namespace Engine

theorem beginsVisibly_of_hasHeader {config : Config} {context : FileContext} {document : Document}
    (present : hasHeader config context document = true) : BeginsVisibly (commentOf config context) := by
  simp only [hasHeader, Header.hasHeader, List.any_eq_true] at present
  obtain ⟨line, -, rule⟩ := present
  exact beginsVisibly_of_isCommentRule rule

/-- Rendering a header anew keeps its narrative if there is a place for it, and, unless the comment
token reads like a day of creation, only then. A day above all sections leaves their names as the
only condition, and the styles with a history name every section. -/
theorem keptBy_update {engine : Engine} {config : Config} {context : FileContext} {document : Document}
    {bounds : Bounds} {lines : List Text}
    (updated : engine.update config context document = .updated bounds lines) :
    let comment := commentOf config context
    let sentinels := config.extractionSentinels
    let old := Narrative.extract comment sentinels (bounds.slice document.lines)
    let fresh := engine.render config context
    (old.HasPlaceIn comment fresh → old.KeptBy comment sentinels lines) ∧
      (Undated comment → old.KeptBy comment sentinels lines → old.HasPlaceIn comment fresh) ∧
      (Undated comment → DatedAbove comment fresh → (old.KeptBy comment sentinels lines ↔
        ∀ part, old.hasContent comment part = true → (sectionText? comment part fresh).isSome = true)) ∧
      (engine.templates = .builtin → Template.keepsHistory config.headerStyle = true →
        ∀ part, (sectionText? comment part fresh).isSome = true) := by
  intro comment sentinels old fresh
  -- What has been rendered is the merge of the old narrative into a fresh header, so all is said about that.
  obtain ⟨present, -, -, linesEqual⟩ := of_update_eq_updated updated
  rw [linesEqual, rewritten]
  refine ⟨Narrative.keptBy_mergeInto, ?_, ?_, ?_⟩
  · intro undated kept
    exact Narrative.hasPlaceIn_of_keptBy undated kept
  · intro undated dated
    constructor
    · intro kept part content
      exact (Narrative.hasPlaceIn_of_keptBy undated kept part content).1
    · intro labelled
      apply Narrative.keptBy_mergeInto
      intro part content
      exact ⟨labelled part content, sectionText?_mergeInto undated dated old part⟩
  · intro builtIn style part
    exact sectionText?_render_isSome config context builtIn (beginsVisibly_of_hasHeader present) style part

/-- A history that was written by hand stays in the standard style. -/
theorem keptBy_update_standard :
    let config := Config.default
    let context := FileContext.ofPath "rust" "/work/src/main.rs"
    let document := Document.ofLines
      ["//----", "// File History :", "//   * Written by hand", "//----", "fn main();"]
    let old := Narrative.extract "//" config.extractionSentinels (document.lines.take 4)
    ∃ lines, (builtin (0 : Int)).update config context document = .updated ⟨0, 3⟩ lines ∧
      old.hasContent "//" .fileHistory = true ∧ old.KeptBy "//" config.extractionSentinels lines := by
  intro config context document old
  have found : locate config context document = some ⟨0, 3⟩ := by decide +kernel
  have terminated : isTerminated (commentOf config context) document.lines ⟨0, 3⟩ = true := by decide +kernel
  have updated : (builtin (0 : Int)).update config context document = .updated ⟨0, 3⟩ _ :=
    update_eq_updated found terminated
  obtain ⟨kept, -, -, labelled⟩ := keptBy_update updated
  refine ⟨_, updated, by decide +kernel, kept ?_⟩
  intro part _
  refine ⟨labelled rfl rfl part, ?_⟩
  -- The old header says nothing of its creation, so the new one keeps its own day.
  have undatedHeader : (Narrative.extract (commentOf config context) config.extractionSentinels
      (Bounds.slice ⟨0, 3⟩ document.lines)).creationDate = none := by decide +kernel
  rw [Narrative.mergeInto_eq, undatedHeader]

/-- In the minimal style the same history is lost. -/
theorem not_keptBy_update_minimal :
    let config := { Config.default with headerStyle := .minimal }
    let context := FileContext.ofPath "rust" "/work/src/main.rs"
    let document := Document.ofLines
      ["//----", "// File History :", "//   * Written by hand", "//----", "fn main();"]
    let old := Narrative.extract "//" config.extractionSentinels (document.lines.take 4)
    ∃ lines, (builtin (0 : Int)).update config context document = .updated ⟨0, 3⟩ lines ∧
      old.hasContent "//" .fileHistory = true ∧ ¬ old.KeptBy "//" config.extractionSentinels lines := by
  intro config context document old
  have found : locate config context document = some ⟨0, 3⟩ := by decide +kernel
  have terminated : isTerminated (commentOf config context) document.lines ⟨0, 3⟩ = true := by decide +kernel
  have updated : (builtin (0 : Int)).update config context document = .updated ⟨0, 3⟩ _ :=
    update_eq_updated found terminated
  have content : old.hasContent "//" .fileHistory = true := by decide +kernel
  refine ⟨_, updated, content, ?_⟩
  intro kept
  have undated : Undated (commentOf config context) := by decide +kernel
  have place := Narrative.hasPlaceIn_of_keptBy undated kept .fileHistory content
  exact absurd place.1 (by decide +kernel)

end Engine

end Masthead.Header

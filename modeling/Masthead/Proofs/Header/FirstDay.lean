import Masthead.Proofs.Header.Plainness
import Masthead.Proofs.Header.Stability

/-!
# The first day stays

A header is inserted on some day and then rendered anew and refreshed any number of times, each time in a setting of
its own. As long as every setting renders plainly, the header is found again, and the one day of creation in it is that
of its insertion.
-/

namespace Masthead.Header

open Text

/-- What is done to a header that is there. -/
inductive Renewal
  | update
  | refresh
  deriving DecidableEq, Repr

def Renewal.apply (setting : Setting) (document : Document) : Renewal → Document
  | update => Edit.update.apply setting document
  | refresh => setting.refresh document

/-- The document after some renewals, each in its own setting. -/
def renew (document : Document) (steps : List (Setting × Renewal)) : Document :=
  steps.foldl (fun document step => step.2.apply step.1 document) document

@[simp]
theorem renew_nil (document : Document) : renew document [] = document := rfl

@[simp]
theorem renew_cons (document : Document) (setting : Setting) (renewal : Renewal) (steps : List (Setting × Renewal)) :
    renew document ((setting, renewal) :: steps) = renew (renewal.apply setting document) steps := rfl

/-- A header that stands near the top, is short enough to be found and repaired, and is dated by one day. -/
structure Framing.Dated (comment day : Text) (framing : Framing) : Prop where
  stands : framing.Stands comment
  nearTop : framing.above.length ≤ 2
  short : framing.header.length ≤ 46
  dated : DatedBy comment day framing.header
  keeps : KeepsCapacity comment framing.header

section

variable {comment day : Text} {framing : Framing} {setting : Setting} {document : Document}

theorem Framing.Dated.locate_eq (dated : framing.Dated comment day) :
    locate comment framing.lines = some framing.bounds := by
  have size := framing.header_length
  have short := dated.short
  exact dated.stands.locate_eq_iff.mpr (by rw [closingWindow]; omega)

theorem exists_dated_insert (plain : setting.RendersPlainly comment) (repairs : setting.RepairsPlainly)
    (wordless : Wordless comment) (oneLine : '\n' ∉ comment)
    (absent : Engine.hasHeader setting.config setting.context document = false)
    (shebangClear : document.lines.head?.any isPinned = false →
      ∀ line, shebang? setting.config setting.context.language = some line → isSeparator comment line = false) :
    ∃ framing : Framing, (Edit.insert.apply setting document).lines = framing.lines ∧
      framing.Dated comment setting.day := by
  have builtIn := Engine.eq_builtin plain.builtIn
  obtain rfl := plain.token
  obtain ⟨framing, stands, framed, above, header, -⟩ :=
    Engine.exists_framing_insert setting.engine.now plain.ruled absent
    (Engine.noSeparator_aboveHeader absent shebangClear)
  rw [← builtIn] at framed header
  have headerEqual : framing.header = setting.header := header
  -- At most the line of an interpreter and a blank line stand above an inserted header.
  have nearTop : framing.above.length ≤ 2 := by
    rw [above, aboveHeader_length, headerStart]
    split
    · exact Nat.le_refl _
    · split <;> decide
  refine ⟨framing, framed, stands, nearTop, ?_, ?_, ?_⟩ <;> rw [headerEqual]
  · exact Nat.le_trans plain.length_header_le (by decide)
  · exact plain.datedBy_header repairs wordless oneLine
  · exact plain.keepsCapacity_header

/-- A header that is rendered anew in another setting stands between the rules of that setting. -/
theorem Setting.RendersPlainly.exists_framing_update (plain : setting.RendersPlainly comment)
    (undated : Undated comment) (stands : framing.Stands comment) (framed : document.lines = framing.lines)
    (located : locate comment framing.lines = some framing.bounds) :
    ∃ other : Framing, (Edit.update.apply setting document).lines = other.lines ∧ other.Stands comment ∧
      other.above = framing.above ∧
      other.header = (Narrative.extract comment setting.config.extractionSentinels framing.header).mergeInto comment
        setting.header := by
  obtain rfl := plain.token
  have documentLocated : Engine.locate setting.config setting.context document = some framing.bounds :=
    (congrArg (locate setting.comment) framed).trans located
  have terminated : Engine.isTerminated setting.comment document.lines framing.bounds = true :=
    framed ▸ stands.isTerminated
  have updated : setting.engine.update setting.config setting.context document
      = .updated framing.bounds (setting.engine.rewritten setting.config setting.context document framing.bounds) :=
    Engine.update_eq_updated documentLocated terminated
  obtain ⟨inner, headerEqual, headerLines⟩ :=
    Engine.exists_inner_rewritten plain.builtIn plain.ruled terminated fun _ => undated
  -- What stands around the header is kept, so that only its own lines have to be looked at again.
  refine ⟨⟨framing.above, ruleLine setting.config setting.context, inner, ruleLine setting.config setting.context,
    framing.below⟩, ?_, ⟨stands.clearAbove, stands.nearTop, plain.ruled, fun line member => ?_,
    isSeparator_of_isCommentRule plain.ruled, stands.apart⟩, rfl, ?_⟩
  · rw [Edit.apply, updated, Outcome.apply, Framing.replaceLines_bounds document _ framed]
    exact congrArg (fun header => framing.above ++ (header ++ framing.below)) headerEqual
  · exact headerLines line (headerEqual ▸ List.mem_cons_of_mem _ (List.mem_append_left _ member))
  · rw [Engine.rewritten, framed, framing.slice_bounds] at headerEqual
    exact headerEqual.symm

variable (dated : framing.Dated comment day) (framed : document.lines = framing.lines)
  (plain : setting.RendersPlainly comment) (repairs : setting.RepairsPlainly) (wordless : Wordless comment)
  (oneLine : '\n' ∉ comment)

include dated framed plain repairs wordless oneLine

theorem Framing.Dated.update (unmarked : isScaffolding Config.default.extractionSentinels day = false) :
    ∃ other : Framing, (Edit.update.apply setting document).lines = other.lines ∧ other.Dated comment day := by
  have undated := wordless.undated
  have freshDated := plain.datedBy_header repairs wordless oneLine
  have freshShort := plain.length_header_le
  obtain ⟨other, lines, stands, sameAbove, header⟩ :=
    plain.exists_framing_update undated dated.stands framed dated.locate_eq
  refine ⟨other, lines, stands, sameAbove ▸ dated.nearTop, ?_, ?_, ?_⟩ <;> rw [header]
  · exact Nat.le_trans (length_mergeInto_le_of_keepsCapacity dated.keeps setting.header) (by omega)
  · exact dated.dated.mergeInto undated (plain.sentinels ▸ unmarked) freshDated
  · exact Narrative.keepsCapacity_mergeInto (fun _ => ⟨undated, freshDated.datedAbove undated⟩) dated.keeps
      plain.keepsCapacity_header

theorem Framing.Dated.refresh :
    ∃ other : Framing, (setting.refresh document).lines = other.lines ∧ other.Dated comment day := by
  obtain rfl := plain.token
  have located : Engine.locate setting.config setting.context document = some framing.bounds :=
    (congrArg (locate setting.comment) framed).trans dated.locate_eq
  obtain ⟨other, lines, stands, sameAbove, sameRoles, headerEqual⟩ :=
    Setting.exists_framing_refresh wordless dated.stands framed located
  have nearTop := dated.nearTop
  have short := dated.short
  -- No line of the header changes its role, and the day stands in a line that is not refreshed.
  refine ⟨other, lines, stands, by omega, ?_, ?_, dated.keeps.congr sameRoles⟩
  · rw [headerEqual, List.length_mapIdx]
    exact short
  · rw [headerEqual]
    refine dated.dated.mapIdx ?_ (fun position line dayLine => dayLine.refreshing_eq _)
      (fun position line => role_refreshing wordless _ line)
    intro position within line silent
    exact silent_refreshing (fun field => plain.silent_fieldValue repairs wordless oneLine field)
      (by rw [repairWindow]; omega) silent

end

/-! ## Runs -/

theorem Framing.Dated.renew {comment day : Text} (wordless : Wordless comment) (oneLine : '\n' ∉ comment)
    (unmarked : isScaffolding Config.default.extractionSentinels day = false) {framing : Framing} {document : Document}
    (dated : framing.Dated comment day) (framed : document.lines = framing.lines) (steps : List (Setting × Renewal))
    (plain : ∀ step ∈ steps, step.1.RendersPlainly comment ∧ step.1.RepairsPlainly) :
    ∃ other : Framing, (renew document steps).lines = other.lines ∧ other.Dated comment day := by
  -- Each step is in a setting of its own; what carries the induction is that the header stays dated.
  induction steps generalizing document framing with
  | nil => exact ⟨framing, framed, dated⟩
  | cons step steps inductionHypothesis =>
    obtain ⟨setting, renewal⟩ := step
    obtain ⟨renders, repairs⟩ := plain _ List.mem_cons_self
    obtain ⟨next, nextFramed, nextDated⟩ : ∃ next : Framing,
        (renewal.apply setting document).lines = next.lines ∧ next.Dated comment day := by
      cases renewal with
      | update => exact dated.update framed renders repairs wordless oneLine unmarked
      | refresh => exact dated.refresh framed renders repairs wordless oneLine
    exact inductionHypothesis nextDated nextFramed fun other member => plain other (List.mem_cons_of_mem _ member)

/-- After a header has been inserted, no renewal moves the day of creation. -/
theorem daysOf_renew {comment : Text} (wordless : Wordless comment) (oneLine : '\n' ∉ comment) (first : Setting)
    (steps : List (Setting × Renewal)) (document : Document)
    (plain : ∀ setting ∈ first :: steps.map (·.1), setting.RendersPlainly comment ∧ setting.RepairsPlainly)
    (absent : Engine.hasHeader first.config first.context document = false)
    (shebangClear : document.lines.head?.any isPinned = false →
      ∀ line, shebang? first.config first.context.language = some line → isSeparator comment line = false) :
    let renewed := renew (Edit.insert.apply first document) steps
    ∃ bounds, locate comment renewed.lines = some bounds ∧ daysOf (bounds.slice renewed.lines) = [first.day] := by
  intro renewed
  obtain ⟨renders, repairs⟩ := plain first List.mem_cons_self
  obtain ⟨framing, framed, dated⟩ := exists_dated_insert renders repairs wordless oneLine absent shebangClear
  obtain ⟨other, otherFramed, otherDated⟩ := dated.renew wordless oneLine
    (isScaffolding_today first.engine.now first.config.timeZone) framed steps
    fun step member => plain _ (List.mem_cons_of_mem _ (List.mem_map_of_mem member))
  refine ⟨other.bounds, ?_, ?_⟩
  · rw [otherFramed]
    exact otherDated.locate_eq
  · rw [otherFramed, other.slice_bounds]
    exact otherDated.dated.daysOf_eq

/-- A short header is refreshed by another user, and then rendered anew in another style and time zone. -/
theorem daysOf_renew_restyled :
    let setting (style : HeaderStyle) (zone : Option Text) (user : Text) (now : Int) : Setting :=
      ⟨⟨.builtin, now⟩, { Config.default with headerStyle := style, timeZone := zone, separatorLength := 10 },
        { FileContext.ofPath "rust" "/work/src/main.rs" with userName := user }⟩
    let first := setting .minimal none "kim" 0
    let steps := [(setting .minimal none "lee" 86400, Renewal.refresh),
      (setting .standard (some "Asia/Tokyo") "kim" 172800, .update)]
    let document := Document.ofLines ["fn main();"]
    let renewed := renew (Edit.insert.apply first document) steps
    Wordless "//" ∧ '\n' ∉ "//".toList ∧
      (∀ setting ∈ first :: steps.map (·.1), setting.RendersPlainly "//" ∧ setting.RepairsPlainly) ∧
      Engine.hasHeader first.config first.context document = false ∧
      shebang? first.config first.context.language = none ∧
      ∃ bounds, locate "//" renewed.lines = some bounds ∧
        daysOf (bounds.slice renewed.lines) = ["1970/01/01".toList] := by
  intro setting first steps document renewed
  -- The lines of each header are computed once for all that is to be seen in them.
  have seen : ∀ setting ∈ first :: steps.map (·.1),
      isCommentRule "//" (ruleLine setting.config setting.context) = true ∧
        (∀ template ∈ setting.template, ∀ part ∈ sectionLabel? "//" (setting.fill template),
          part.label <+: commentText (Template.value "comment") template) ∧
        (∀ template ∈ setting.template, creationField.cut? template = none →
          creationField.cut? (setting.fill template) = none) ∧ setting.RepairsPlainly := by
    decide +kernel
  have plain : ∀ setting ∈ first :: steps.map (·.1), setting.RendersPlainly "//" ∧ setting.RepairsPlainly := by
    intro other member
    obtain ⟨ruled, labelled, dated, repairs⟩ := seen other member
    have given : other.engine.templates = .builtin ∧
        other.config.extractionSentinels = Config.default.extractionSentinels ∧ other.comment = "//" := by
      simp only [steps, List.map_cons, List.map_nil, List.mem_cons, List.not_mem_nil, or_false] at member
      rcases member with rfl | rfl | rfl <;> exact ⟨rfl, rfl, rfl⟩
    exact ⟨⟨given.1, given.2.1, given.2.2, ruled, labelled, dated⟩, repairs⟩
  have wordless : Wordless "//" := by decide
  have oneLine : '\n' ∉ "//".toList := by decide
  have absent : Engine.hasHeader first.config first.context document = false := by decide +kernel
  have bare : shebang? first.config first.context.language = none := rfl
  have day : first.day = "1970/01/01".toList := by decide +kernel
  refine ⟨wordless, oneLine, plain, absent, bare,
    day ▸ daysOf_renew wordless oneLine first steps document plain absent ?_⟩
  intro _ line given
  rw [bare] at given
  cases given

/-- A day that moves: a comment token breaks the line of the day, and the repair of a label brings another day to
light. -/
theorem not_daysOf_renew :
    let setting (config : Config) (now : Int) : Setting :=
      ⟨⟨.builtin, now⟩, config, FileContext.ofPath "rust" "/work/src/main.rs"⟩
    let document := Document.ofLines ["fn main();"]
    let short := { Config.default with headerStyle := .minimal, separatorLength := 10 }
    let broken := { short with commentTokenMap := [("rust", "/\n/")] }
    let hidden := { short with companyName := "Last\nLast Updated, Created: long ago" }
    let rewritten := renew (Edit.insert.apply (setting broken 0) document) [(setting broken 86400, .update)]
    let repaired := renew (Edit.insert.apply (setting hidden 0) document)
      [(setting hidden 0, .refresh), (setting hidden 0, .update)]
    (∀ config ∈ [broken, hidden], config.fault? (0 : Int) = none ∧
        Engine.hasHeader config (setting config 0).context document = false ∧
        shebang? config (setting config 0).context.language = none ∧ (setting config 0).day = "1970/01/01".toList) ∧
      (Wordless "/\n/" ∧ ∀ now ∈ [(0 : Int), 86400], (setting broken now).RendersPlainly "/\n/") ∧
      (Wordless "//" ∧ (setting hidden 0).RendersPlainly "//") ∧
      ("/\n/ Created     : 1970/01/02".toList ∈ rewritten.lines ∧
        "/\n/ Created     : 1970/01/01".toList ∉ rewritten.lines) ∧
      ("// Created     : long ago".toList ∈ repaired.lines ∧
        "// Created     : 1970/01/01".toList ∉ repaired.lines) := by
  intro setting document short broken hidden rewritten repaired
  have seen : ∀ other ∈ [setting broken 0, setting broken 86400, setting hidden 0],
      isCommentRule other.comment (ruleLine other.config other.context) = true ∧
        (∀ template ∈ other.template, ∀ part ∈ sectionLabel? other.comment (other.fill template),
          part.label <+: commentText (Template.value "comment") template) ∧
        ∀ template ∈ other.template, creationField.cut? template = none →
          creationField.cut? (other.fill template) = none := by
    decide +kernel
  have plain : ∀ other ∈ [setting broken 0, setting broken 86400, setting hidden 0],
      other.RendersPlainly other.comment := by
    intro other member
    obtain ⟨ruled, labelled, dated⟩ := seen other member
    have given : other.engine.templates = .builtin ∧
        other.config.extractionSentinels = Config.default.extractionSentinels := by
      simp only [List.mem_cons, List.not_mem_nil, or_false] at member
      rcases member with rfl | rfl | rfl <;> exact ⟨rfl, rfl⟩
    exact ⟨given.1, given.2, rfl, ruled, labelled, dated⟩
  -- The refreshed lines are taken from the rewriting: the list of its changes is merged from two passes.
  have repairedLines : ("// Created     : long ago".toList ∈ repaired.lines ∧
      "// Created     : 1970/01/01".toList ∉ repaired.lines) := by
    have located : Engine.locate (setting hidden 0).config (setting hidden 0).context
        (Edit.insert.apply (setting hidden 0) document) = some ⟨0, 10⟩ := by decide +kernel
    unfold repaired
    rw [renew_cons, renew_cons, renew_nil, Renewal.apply, Renewal.apply, Setting.refresh_with_lines,
      Setting.lines_refresh located]
    decide +kernel
  have brokenPlain : ∀ now ∈ [(0 : Int), 86400], (setting broken now).RendersPlainly "/\n/" := by
    intro now member
    refine plain (setting broken now) ?_
    simp only [List.mem_cons, List.not_mem_nil, or_false] at member ⊢
    rcases member with rfl | rfl
    · exact .inl rfl
    · exact .inr (.inl rfl)
  have hiddenPlain : (setting hidden 0).RendersPlainly "//" := plain (setting hidden 0) (by simp)
  exact ⟨by decide +kernel, ⟨by decide, brokenPlain⟩, ⟨by decide, hiddenPlain⟩, by decide +kernel, repairedLines⟩

end Masthead.Header

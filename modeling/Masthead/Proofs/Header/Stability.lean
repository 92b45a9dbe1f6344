import Masthead.Config.Check
import Masthead.Proofs.Header.Insertion
import Masthead.Proofs.Header.Outcome
import Masthead.Proofs.Header.Settled

/-!
# Updating twice

An update leaves a document alone if the header that it finds gives itself again. After one update
with the built-in templates that is so unless the header says something that is not carried over:
scaffolding within a section, or a day of creation that is read from another place than it is
written to. What else the header stands on is that its rule is one, that the token does not read
like a day of creation, and that the header is located whole.
-/

namespace Masthead.Header.Engine

open Text

variable {engine : Engine} {config : Config} {context : FileContext} {document : Document}

/-- The lines of the header that a document has, if it has one. -/
def headerLines (config : Config) (context : FileContext) (document : Document) : List Text :=
  match locate config context document with
  | some bounds => bounds.slice document.lines
  | none => []

/-- What people wrote into the header that a document has. -/
def oldNarrative (config : Config) (context : FileContext) (document : Document) : Narrative :=
  Narrative.extract (commentOf config context) config.extractionSentinels (headerLines config context document)

/-- An update leaves a document alone exactly if its header is what its narrative gives. -/
theorem apply_update_eq_self_iff {framing : Framing} (framed : document.lines = framing.lines)
    (located : locate config context document = some framing.bounds)
    (terminated : isTerminated (commentOf config context) document.lines framing.bounds = true) :
    (engine.update config context document).apply document = document ↔
      (Narrative.extract (commentOf config context) config.extractionSentinels framing.header).mergeInto
        (commentOf config context) (engine.render config context) = framing.header := by
  rw [update_eq_updated located terminated, rewritten, framed, Framing.slice_bounds, Outcome.apply]
  generalize (Narrative.extract (commentOf config context) config.extractionSentinels framing.header).mergeInto
    (commentOf config context) (engine.render config context) = header
  -- A document is left alone if and only if the lines that replace its header are those of the header.
  have replaced := Framing.replaceLines_bounds document header framed
  constructor
  · intro same
    rw [same, framed, Framing.lines, List.append_cancel_left_eq, List.append_cancel_right_eq] at replaced
    exact replaced.symm
  · intro same
    rw [same] at replaced
    have lines : (document.replaceLines framing.bounds.first framing.bounds.last header).lines = document.lines := by
      rw [same, replaced, framed]
      rfl
    rw [Document.replaceLines] at lines ⊢
    dsimp only at lines
    rw [lines]

/-! ## After one update -/

theorem headerLines_eq_nil (absent : hasHeader config context document = false) :
    headerLines config context document = [] := by
  have nowhere : locate config context document = none := by
    rw [locate, Header.locate, ← hasHeader, absent]
    rfl
  rw [headerLines, nowhere]

/-- Whether a header that takes the place of another one ends within the closing window, and no rule
of the comment below it does. -/
def Fits (comment : Text) (document : Document) (bounds : Bounds) (header : List Text) : Prop :=
  header.length ≤ closingWindow + 1 ∧
    lastSeparator? comment ((document.lines.drop (bounds.last + 1)).take (closingWindow + 1 - header.length)) = none

instance (comment : Text) (document : Document) (bounds : Bounds) (header : List Text) :
    Decidable (Fits comment document bounds header) :=
  inferInstanceAs (Decidable (_ ∧ _))

/-- A header that is rendered anew stands between rules, and no line in it ends it. -/
theorem exists_inner_rewritten (builtIn : engine.templates = .builtin)
    (ruled : isCommentRule (commentOf config context) (ruleLine config context) = true) {bounds : Bounds}
    (terminated : isTerminated (commentOf config context) document.lines bounds = true)
    (undated : (Narrative.extract (commentOf config context) config.extractionSentinels
      (bounds.slice document.lines)).creationDate ≠ none → Undated (commentOf config context)) :
    ∃ inner, engine.rewritten config context document bounds
        = ruleLine config context :: (inner ++ [ruleLine config context]) ∧
      ∀ line ∈ engine.rewritten config context document bounds, isHeaderLine (commentOf config context) line = true := by
  obtain ⟨inner, rendered, -⟩ := exists_render_inner engine.now config context
  obtain ⟨others, headerEqual⟩ : ∃ others, engine.rewritten config context document bounds
      = ruleLine config context :: (others ++ [ruleLine config context]) := by
    rw [rewritten, eq_builtin builtIn, rendered]
    exact Narrative.exists_inner_mergeInto (isSeparator_of_isCommentRule ruled) undated
  refine ⟨others, headerEqual, ?_⟩
  apply Narrative.isHeaderLine_of_mem_mergeInto undated (of_isTerminated terminated).2.2
  intro line member
  rw [eq_builtin builtIn] at member
  have visible := beginsVisibly_of_isCommentRule ruled
  simp [isHeaderLine, isCommentLine_of_mem_render engine.now config context visible member]

/-- A header that has taken the place of another is located whole, and can be replaced in turn. -/
theorem exists_framing_replaceLines (builtIn : engine.templates = .builtin)
    (ruled : isCommentRule (commentOf config context) (ruleLine config context) = true) {bounds : Bounds}
    (found : locate config context document = some bounds)
    (terminated : isTerminated (commentOf config context) document.lines bounds = true)
    (undated : (oldNarrative config context document).creationDate ≠ none → Undated (commentOf config context))
    (fits : Fits (commentOf config context) document bounds (engine.rewritten config context document bounds)) :
    let header := engine.rewritten config context document bounds
    let once := document.replaceLines bounds.first bounds.last header
    ∃ framing : Framing, once.lines = framing.lines ∧ framing.header = header ∧
      locate config context once = some framing.bounds ∧
      isTerminated (commentOf config context) once.lines framing.bounds = true := by
  intro header once
  have rule := isSeparator_of_isCommentRule ruled
  obtain ⟨ordered, within, -⟩ := of_isTerminated terminated
  obtain ⟨-, nearTop, clear⟩ := of_locate found
  rw [oldNarrative, headerLines, found] at undated
  obtain ⟨others, headerEqual, headerLines⟩ :
      ∃ others, header = ruleLine config context :: (others ++ [ruleLine config context]) ∧
        ∀ line ∈ header, isHeaderLine (commentOf config context) line = true :=
    exists_inner_rewritten builtIn ruled terminated undated
  -- The new header stands where the old one did, between the lines above it and those below it.
  let framing : Framing := ⟨document.lines.take bounds.first, ruleLine config context, others, ruleLine config context,
    document.lines.drop (bounds.last + 1)⟩
  have framed : once.lines = framing.lines := by
    show document.lines.take bounds.first ++ header ++ document.lines.drop (max bounds.first (bounds.last + 1)) = _
    rw [Nat.max_eq_right ordered, headerEqual, List.append_assoc]
    rfl
  have begins : framing.Begins (commentOf config context) := by
    refine ⟨clear, ?_, ruled⟩
    show (document.lines.take bounds.first).length < openingWindow
    rw [List.length_take]
    omega
  have size : header.length = others.length + 2 := by simp [headerEqual]
  refine ⟨framing, framed, headerEqual.symm, ?_, ?_⟩
  · rw [locate, framed]
    obtain ⟨short, nothing⟩ : Fits (commentOf config context) document bounds header := fits
    refine begins.locate_eq (fun line member => headerLines line ?_) rule (show others.length < closingWindow by omega) ?_
    · rw [headerEqual]
      exact List.mem_cons_of_mem _ (List.mem_append_left _ member)
    · -- The window that the closing rule is searched in begins behind the opening rule.
      have room : closingWindow + 1 - header.length = closingWindow - others.length - 1 := by omega
      rw [room] at nothing
      exact nothing
  · rw [framed]
    refine Framing.isTerminated_bounds ?_ rule
    intro line member
    exact headerLines line (headerEqual ▸ member)

/-- After an update that does something, a document has the header that its old narrative gives, and
the same bounds are found again. -/
theorem exists_framing_update (builtIn : engine.templates = .builtin)
    (ruled : isCommentRule (commentOf config context) (ruleLine config context) = true)
    (changed : (engine.update config context document).isChange = true)
    (shebangClear : hasHeader config context document = false → document.lines.head?.any isPinned = false →
      ∀ line, shebang? config context.language = some line → isSeparator (commentOf config context) line = false)
    (undated : (oldNarrative config context document).creationDate ≠ none → Undated (commentOf config context))
    (fits : ∀ bounds header, engine.update config context document = .updated bounds header →
      Fits (commentOf config context) document bounds header) :
    let once := (engine.update config context document).apply document
    ∃ framing : Framing, once.lines = framing.lines ∧
      framing.header = (oldNarrative config context document).mergeInto (commentOf config context)
        (engine.render config context) ∧
      locate config context once = some framing.bounds ∧
      isTerminated (commentOf config context) once.lines framing.bounds = true := by
  intro once
  -- An update puts in a header where there is none, and replaces the one that is there.
  rcases isChange_cases (.inr rfl) changed with ⟨absent, -, notice, inserted⟩ | ⟨bounds, found, terminated, updated⟩
  · obtain ⟨framing, stands, framed, -, header, short⟩ :=
      exists_framing_insert engine.now ruled absent (noSeparator_aboveHeader absent (shebangClear absent))
    have onceFramed : once.lines = framing.lines := by
      rw [← framed, insert_builtin engine.now ruled absent, ← eq_builtin builtIn]
      show ((engine.update config context document).apply document).lines = _
      rw [inserted]
      rfl
    refine ⟨framing, onceFramed, ?_, ?_, ?_⟩
    · rw [oldNarrative, headerLines_eq_nil absent, Narrative.mergeInto_extract_nil, header, ← eq_builtin builtIn]
    · rw [locate, onceFramed]
      exact stands.locate_eq_iff.mpr short
    · rw [onceFramed]
      exact stands.isTerminated
  · have onceEqual : once = document.replaceLines _ _ _ := congrArg (Outcome.apply document) updated
    obtain ⟨framing, framed, header, located, closed⟩ :=
      exists_framing_replaceLines builtIn ruled found terminated undated (fits _ _ updated)
    refine ⟨framing, ?_, ?_, ?_, ?_⟩
    · rw [onceEqual, framed]
    · rw [header, rewritten, oldNarrative, headerLines, found]
    · rw [onceEqual]
      exact located
    · rw [onceEqual]
      exact closed

/-- An update that is made again changes nothing, exactly if what it has left to the templates is
read back as it is: no scaffolding stands within a section that counts, and the first day of
creation is the one that is read. -/
theorem update_update_eq_iff (builtIn : engine.templates = .builtin)
    (ruled : isCommentRule (commentOf config context) (ruleLine config context) = true)
    (changed : (engine.update config context document).isChange = true)
    (shebangClear : hasHeader config context document = false → document.lines.head?.any isPinned = false →
      ∀ line, shebang? config context.language = some line → isSeparator (commentOf config context) line = false)
    (dated : (oldNarrative config context document).creationDate ≠ none →
      Undated (commentOf config context) ∧ DatedAbove (commentOf config context) (engine.render config context))
    (fits : ∀ bounds header, engine.update config context document = .updated bounds header →
      Fits (commentOf config context) document bounds header) :
    let comment := commentOf config context
    let sentinels := config.extractionSentinels
    let fresh := engine.render config context
    let old := oldNarrative config context document
    let once := (engine.update config context document).apply document
    let twice := (engine.update config context once).apply once
    twice = once ↔
      (∀ part, old.hasContent comment part = false →
        ∀ body ∈ sectionText? comment part fresh, Narrative.Settled comment sentinels body) ∧
      (old.creationDate = none → Narrative.DaySettled sentinels (old.mergeInto comment fresh)) := by
  intro comment sentinels fresh old once twice
  obtain ⟨framing, framed, header, located, terminated⟩ :=
    exists_framing_update builtIn ruled changed shebangClear (fun given => (dated given).1) fits
  have stable : twice = once ↔ (Narrative.extract comment sentinels framing.header).mergeInto comment fresh = framing.header :=
    apply_update_eq_self_iff framed located terminated
  rw [header] at stable
  exact stable.trans (Narrative.mergeInto_extract_eq_iff dated)

/-- A history and a day of creation that were written by hand are read back as they are. -/
theorem update_update_by_hand :
    let config := Config.default
    let context := FileContext.ofPath "rust" "/work/src/main.rs"
    let document := Document.ofLines
      ["//----", "// Created : 2020", "// File History :", "//   * Written by hand", "//----", "fn main();"]
    let comment := commentOf config context
    let once := ((builtin (0 : Int)).update config context document).apply document
    isCommentRule comment (ruleLine config context) = true ∧
      ((builtin (0 : Int)).update config context document).isChange = true ∧
      Undated comment ∧ DatedAbove comment ((builtin (0 : Int)).render config context) ∧
      ((builtin (0 : Int)).update config context once).apply once = once := by
  intro config context document comment once
  have ruled : isCommentRule comment (ruleLine config context) = true := by decide +kernel
  have changed : ((builtin (0 : Int)).update config context document).isChange = true := by decide +kernel
  have undated : Undated comment := by decide +kernel
  -- The fresh header is computed once for all that is to be seen in it.
  obtain ⟨dated, settled⟩ : DatedAbove comment ((builtin (0 : Int)).render config context) ∧
      ∀ part ∈ Section.all, ∀ body ∈ sectionText? comment part ((builtin (0 : Int)).render config context),
        Narrative.Settled comment config.extractionSentinels body := by
    decide +kernel
  have present : hasHeader config context document = true := by decide +kernel
  have found : locate config context document = some ⟨0, 4⟩ := by decide +kernel
  have terminated : isTerminated comment document.lines ⟨0, 4⟩ = true := by decide +kernel
  have fits : ∀ bounds header, (builtin (0 : Int)).update config context document = .updated bounds header →
      Fits comment document bounds header := by
    intro bounds header updated
    have bounded : Fits comment document ⟨0, 4⟩ ((builtin (0 : Int)).rewritten config context document ⟨0, 4⟩) := by
      decide +kernel
    rw [update_eq_updated found terminated] at updated
    cases updated
    exact bounded
  have given : (oldNarrative config context document).creationDate ≠ none := by decide +kernel
  have headed : hasHeader config context document = false → document.lines.head?.any isPinned = false →
      ∀ line, shebang? config context.language = some line → isSeparator comment line = false := by
    intro absent
    rw [present] at absent
    cases absent
  have stable := update_update_eq_iff rfl ruled changed headed (fun _ => ⟨undated, dated⟩) fits
  refine ⟨ruled, changed, undated, dated, stable.mpr ⟨?_, fun missing => absurd missing given⟩⟩
  intro part _
  exact settled part (by cases part <;> decide)

/-- What keeps a second update from changing nothing, with configurations that pass their checks: a
sentinel among the template's own lines, a day in another field, a rule that is none, a rule above
the header, a token or a section that the day gets into, and a closing rule that is not found or
not the last. -/
theorem limits_of_stability :
    let program := FileContext.ofPath "rust" "/work/src/main.rs"
    let script := FileContext.ofPath "shell" "/work/run.sh"
    let minimal := { Config.default with headerStyle := .minimal }
    let detailed := { Config.default with headerStyle := .detailed }
    let history := List.replicate 40 ("// * x" : Text)
    let notes := List.replicate 48 ("// x" : Text)
    let files : List (Config × FileContext × List Text) := [
      ({ detailed with extractionSentinels := ["Purpose:", "Release", "None"] }, program, ["fn main();"]),
      ({ minimal with authorFullName := some "Created: x " }, program, ["fn main();"]),
      ({ Config.default with
          separatorChar := 'x', commentTokenMap := [("rust", "####")],
          extractionSentinels := ["module", "Release", "None"] }, program, ["fn main();"]),
      ({ minimal with shebangPerLanguage := [("shell", "!!!!")] }, script, []),
      ({ detailed with commentTokenMap := [("rust", "Created:")], extractionSentinels := ["---"] }, program,
        ["Created:----", "Created: 2020", "Created:----", "fn main();"]),
      ({ minimal with copyrightNotice := "Description :", extractionSentinels := ["Created     : 2020"] }, program,
        ["//----", "// Creation Date : 2020", "//----", "fn main();"]),
      ({ Config.default with extractionSentinels := ["module", "None"] }, program,
        "//----" :: "// File History :" :: (history ++ (["//----", "fn main();"] : List Text))),
      (minimal, program, "//----" :: (notes ++ (["//----", "// x", "//----", "fn main();"] : List Text)))]
    ∀ file ∈ files,
      let document := Document.ofLines file.2.2
      let once := ((builtin (0 : Int)).update file.1 file.2.1 document).apply document
      let twice := ((builtin (0 : Int)).update file.1 file.2.1 once).apply once
      file.1.fault? (0 : Int) = none ∧
        ((builtin (0 : Int)).update file.1 file.2.1 document).isChange = true ∧
        twice.toText ≠ once.toText := by
  decide +kernel

end Masthead.Header.Engine

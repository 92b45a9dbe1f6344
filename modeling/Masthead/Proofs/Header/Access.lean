import Masthead.Proofs.Document.Access
import Masthead.Proofs.Header.Bounds
import Masthead.Proofs.Header.Changes
import Masthead.Proofs.Header.Merge
import Masthead.Proofs.Header.Outcome

/-!
# Edits that fit

The operations on a header once more, with the accesses that they make into the lines: every index,
every slice and every difference is checked. No check ever fails, whatever the document, the
templates and the configuration are, and the checked operations do what the operations do. So an
edit names lines that exist, and nothing is clamped when it is applied.
-/

namespace Masthead.Header

open Access (difference element put range splice)

/-! ## Checked operations -/

namespace Checked

/-- The bounds of a header, whose closing rule is looked for up to the last line. -/
def findBounds (comment : Text) (lines : List Text) : Access (Option Bounds) :=
  match (lines.take openingWindow).findIdx? (isSeparator comment) with
  | none => return none
  | some first => do
    let last ← difference lines.length 1
    let limit := min (first + closingWindow) last
    let window := (lines.take (limit + 1)).drop (first + 1)
    return some ⟨first, match lastSeparator? comment window with
      | some offset => first + 1 + offset
      | none => min (first + fallbackSpan) last⟩

def locate (comment : Text) (lines : List Text) : Access (Option Bounds) :=
  if hasHeader comment lines then findBounds comment lines else return none

def sectionBody (comment : Text) (lines : List Text) (part : Section) : Access (Option Span) :=
  match findLabel? comment lines part with
  | none => return none
  | some label => do
    let behind ← range lines (label + 1) lines.length
    return some ⟨label + 1, (behind.findIdx? (endsSection comment)).elim lines.length (label + 1 + ·)⟩

/-- The lines from the first to the last one that is not blank. -/
def trimBlankLines (comment : Text) (kept : List Text) : Access (List Text) :=
  let visible (line : Text) : Bool := !isBlankComment comment line
  match kept.findIdx? visible, kept.reverse.findIdx? visible with
  | some first, some fromEnd => range kept first (kept.length - fromEnd)
  | _, _ => return []

def sectionLines (comment : Text) (sentinels header : List Text) (part : Section) : Access (List Text) := do
  match ← sectionBody comment header part with
  | none => return []
  | some span =>
    let body ← range header span.start span.stop
    trimBlankLines comment (body.filter fun line => !isScaffolding sentinels line)

def extract (comment : Text) (sentinels header : List Text) : Access Narrative := do
  return {
    description := ← sectionLines comment sentinels header .description
    fileHistory := ← sectionLines comment sentinels header .fileHistory
    todoList := ← sectionLines comment sentinels header .todoList
    creationDate := Narrative.creationDateOf? sentinels header }

def framed (comment : Text) (body replacement : List Text) : Access (List Text) := do
  let leading := (body.takeWhile (isBlankComment comment)).length
  let behind ← range body leading body.length
  let trailing := (behind.reverse.takeWhile (isBlankComment comment)).length
  let lead ← range body 0 leading
  let stop ← difference body.length trailing
  let trail ← range body stop body.length
  return lead ++ replacement ++ trail

def places (comment : Text) (narrative : Narrative) (fresh : List Text) : Access (List (Span × Section)) := do
  let found ← (Section.all.filter (narrative.hasContent comment)).mapM fun part =>
    return (← sectionBody comment fresh part).map fun span => (span, part)
  return (found.filterMap id).mergeSort fun place other => other.1.start ≤ place.1.start

def putSection (comment : Text) (narrative : Narrative) (header : List Text) (place : Span × Section) :
    Access (List Text) := do
  let body ← range header place.1.start place.1.stop
  let replacement ← framed comment body (narrative.lines place.2)
  splice header place.1.start place.1.stop replacement

def mergeInto (comment : Text) (narrative : Narrative) (fresh : List Text) : Access (List Text) := do
  let merged ← (← places comment narrative fresh).foldlM (putSection comment narrative) fresh
  return match narrative.creationDate with
    | some date => Narrative.putDate date merged
    | none => merged

/-- Whether bounds enclose a comment that a rule closes, where the last line is only read behind another first one. -/
def isTerminated (comment : Text) (lines : List Text) (bounds : Bounds) : Access Bool :=
  if bounds.first = bounds.last then return false
  else do
    let closing ← element lines bounds.last
    return isSeparator comment closing && isCommentBlock comment lines bounds

def applyChanges (changes : List LineChange) (lines : List Text) : Access (List Text) :=
  changes.foldlM (fun lines change => put lines change.line change.text) lines

def update (engine : Engine) (config : Config) (context : FileContext) (document : Document) : Access Outcome :=
  let comment := commentOf config context
  if !Engine.hasHeader config context document then return Engine.asUpdate (engine.insert config context document)
  else do
    match ← locate comment document.lines with
    | none => return .skipped .notFound
    | some bounds =>
      if ← isTerminated comment document.lines bounds then
        let existing ← range document.lines bounds.first (bounds.last + 1)
        let narrative ← extract comment config.extractionSentinels existing
        return .updated bounds (← mergeInto comment narrative (engine.render config context))
      else return .skipped .unterminated

def refresh (engine : Engine) (config : Config) (context : FileContext) (document : Document) :
    Access (Option (List LineChange)) := do
  let comment := commentOf config context
  match ← locate comment document.lines with
  | none => return none
  | some bounds =>
    let repairs := collapseLabels document.lines
    let repaired ← applyChanges repairs document.lines
    let changes := mergeChanges repairs
      (refreshFields comment (engine.fieldValues config context) bounds repaired)
    return if changes.isEmpty then none else some changes

end Checked

/-! ## Applying an edit without clamping -/

def Outcome.applyWithin (document : Document) : Outcome → Access Document
  | inserted position lines _ => document.insertWithin position lines
  | updated bounds lines => document.replaceWithin bounds.first bounds.last lines
  | skipped _ => return document

def EntryInsertion.applyWithin (document : Document) (entry : EntryInsertion) : Access Document :=
  document.insertWithin entry.position [entry.text]

def applyLineChangesWithin (document : Document) (changes : List LineChange) : Access Document :=
  changes.foldlM (fun document change => document.setWithin change.line change.text) document

/-- Whether the lines that an outcome names exist. -/
def Outcome.Fits (document : Document) : Outcome → Prop
  | inserted position _ _ => position ≤ document.length
  | updated bounds _ => bounds.first < bounds.last ∧ bounds.last < document.length
  | skipped _ => True

/-- Whether changes name different lines that exist, in their order. -/
structure ChangesFit (document : Document) (changes : List LineChange) : Prop where
  inOrder : InOrder changes
  within : ∀ change ∈ changes, change.line < document.length

theorem Outcome.Fits.applyWithin_eq {document : Document} {outcome : Outcome} (fits : outcome.Fits document) :
    outcome.applyWithin document = .ok (outcome.apply document) := by
  cases outcome with
  | inserted position lines notice => exact Document.insertWithin_eq_ok fits lines
  | updated bounds lines => exact Document.replaceWithin_eq_ok (Nat.le_of_lt fits.1) fits.2 lines
  | skipped notice => rfl

theorem ChangesFit.applyLineChangesWithin_eq {document : Document} {changes : List LineChange}
    (fit : ChangesFit document changes) :
    applyLineChangesWithin document changes = .ok (applyLineChanges document changes) := by
  obtain ⟨-, within⟩ := fit
  unfold applyLineChangesWithin applyLineChanges
  induction changes generalizing document with
  | nil => rfl
  | cons change changes inductionHypothesis =>
    rw [List.foldlM_cons, Document.setWithin_eq_ok (within change List.mem_cons_self)]
    refine inductionHypothesis fun other member => ?_
    -- A line that is replaced is still a line.
    have existed := within other (List.mem_cons_of_mem _ member)
    rwa [Document.length, Document.setLine, List.length_set]

/-! ## Bounds -/

theorem findBounds_within {comment : Text} {lines : List Text} {bounds : Bounds}
    (found : findBounds comment lines = some bounds) : bounds.first ≤ bounds.last ∧ bounds.last < lines.length := by
  obtain ⟨first, opened, rfl⟩ := Option.map_eq_some_iff.mp found
  have inWindow := (List.findIdx?_eq_some_iff_getElem.mp opened).1
  rw [List.length_take] at inWindow
  dsimp only
  split
  · next offset closed =>
    have bound := lastSeparator?_lt closed
    rw [List.length_take, List.length_drop] at bound
    dsimp only
    omega
  · dsimp only
    omega

theorem locate_within {comment : Text} {lines : List Text} {bounds : Bounds}
    (found : locate comment lines = some bounds) : bounds.first ≤ bounds.last ∧ bounds.last < lines.length := by
  rw [locate] at found
  split at found
  · exact findBounds_within found
  · cases found

namespace Checked

/-! ## No check fails -/

theorem findBounds_eq_ok (comment : Text) (lines : List Text) :
    findBounds comment lines = .ok (Header.findBounds comment lines) := by
  rw [findBounds, Header.findBounds]
  cases opened : (lines.take openingWindow).findIdx? (isSeparator comment) with
  | none => rfl
  | some first =>
    -- The line that opens the header exists, so there is a last line to look up to.
    have inWindow := (List.findIdx?_eq_some_iff_getElem.mp opened).1
    rw [List.length_take] at inWindow
    have window : (lines.take (min (first + closingWindow) (lines.length - 1) + 1)).drop (first + 1)
        = (lines.drop (first + 1)).take closingWindow := by
      have limit : min (first + closingWindow) (lines.length - 1) + 1
          = min (first + 1 + closingWindow) lines.length := by
        omega
      rw [limit, ← List.take_take, List.take_length, List.drop_take]
      congr 1
      omega
    dsimp only
    rw [Access.difference_eq_ok (by omega), Option.map_some]
    show Except.ok _ = _
    rw [window]
    cases lastSeparator? comment ((lines.drop (first + 1)).take closingWindow) <;> rfl

theorem locate_eq_ok (comment : Text) (lines : List Text) :
    locate comment lines = .ok (Header.locate comment lines) := by
  rw [locate, Header.locate, findBounds_eq_ok]
  split <;> rfl

theorem sectionBody_eq_ok (comment : Text) (lines : List Text) (part : Section) :
    sectionBody comment lines part = .ok (sectionBody? comment lines part) := by
  rw [sectionBody, sectionBody?]
  cases labelled : findLabel? comment lines part with
  | none => rfl
  | some label =>
    have within : label + 1 ≤ lines.length := (List.findIdx?_eq_some_iff_getElem.mp labelled).1
    -- The index of the line that ends the section is the number of lines that do not, with or without such a line.
    have stop : ((lines.drop (label + 1)).findIdx? (endsSection comment)).elim lines.length (label + 1 + ·)
        = label + 1 + ((lines.drop (label + 1)).takeWhile fun line => !endsSection comment line).length := by
      simp only [List.takeWhile_eq_take_findIdx_not, Bool.not_not, List.length_take,
        Nat.min_eq_left List.findIdx_le_length]
      cases ended : (lines.drop (label + 1)).findIdx? (endsSection comment) with
      | none =>
        rw [List.findIdx?_eq_none_iff_findIdx_eq.mp ended, List.length_drop, Option.elim_none]
        omega
      | some offset => rw [(List.findIdx?_eq_some_iff_findIdx_eq.mp ended).2, Option.elim_some]
    dsimp only
    rw [Access.range_length_eq_ok within, Option.map_some]
    show Except.ok _ = _
    rw [stop]

theorem trimBlankLines_eq_ok (comment : Text) (kept : List Text) :
    trimBlankLines comment kept = .ok (Header.trimBlankLines comment kept) := by
  rw [trimBlankLines, Header.trimBlankLines]
  simp only [List.dropWhile_eq_drop_findIdx_not]
  generalize visibleEqual : (fun line => !isBlankComment comment line) = visible
  cases beginning : kept.findIdx? visible with
  | none =>
    rw [List.findIdx?_eq_none_iff_findIdx_eq.mp beginning, List.drop_length]
    rfl
  | some first =>
    obtain ⟨within, shown, -⟩ := List.findIdx?_eq_some_iff_getElem.mp beginning
    rw [(List.findIdx?_eq_some_iff_findIdx_eq.mp beginning).2]
    -- Read from the end, the last visible line is not above the first one.
    have reached : (kept.drop first).reverse.findIdx visible < kept.length - first := by
      rw [← List.length_drop, ← List.length_reverse, List.findIdx_lt_length]
      refine ⟨kept[first], ?_, shown⟩
      rw [List.mem_reverse, List.drop_eq_getElem_cons within]
      exact List.mem_cons_self
    have fromEnd : kept.reverse.findIdx visible = (kept.drop first).reverse.findIdx visible := by
      conv => lhs; rw [← List.take_append_drop first kept, List.reverse_append, List.findIdx_append]
      rw [if_pos (by rwa [List.length_reverse, List.length_drop])]
    have found : kept.reverse.findIdx? visible = some ((kept.drop first).reverse.findIdx visible) := by
      rw [List.findIdx?_eq_some_iff_findIdx_eq, fromEnd, List.length_reverse]
      exact ⟨by omega, rfl⟩
    rw [found]
    generalize (kept.drop first).reverse.findIdx visible = offset at reached
    dsimp only
    rw [Access.range_eq_ok (by omega) (by omega), List.drop_take,
      List.reverse_drop (l := (kept.drop first).reverse), List.reverse_reverse, List.length_reverse, List.length_drop]
    congr 2
    omega

theorem sectionBody?_within {comment : Text} {lines : List Text} {part : Section} {span : Span}
    (found : sectionBody? comment lines part = some span) : span.start ≤ span.stop ∧ span.stop ≤ lines.length := by
  obtain ⟨cutout, -, rfl, rfl⟩ := Cutout.exists_of_sectionBody? found
  simp only [Cutout.span, Cutout.lines, List.length_append, List.length_cons]
  omega

theorem range_eq_ok_slice {comment : Text} {lines : List Text} {part : Section} {span : Span}
    (found : sectionBody? comment lines part = some span) :
    range lines span.start span.stop = .ok (span.slice lines) := by
  obtain ⟨ordered, within⟩ := sectionBody?_within found
  exact Access.range_eq_ok ordered within

theorem sectionLines_eq_ok (comment : Text) (sentinels header : List Text) (part : Section) :
    sectionLines comment sentinels header part = .ok (Narrative.sectionLines comment sentinels header part) := by
  rw [sectionLines, Narrative.sectionLines, sectionBody_eq_ok]
  show (match sectionBody? comment header part with | none => _ | some span => _) = _
  cases found : sectionBody? comment header part with
  | none => rfl
  | some span =>
    dsimp only
    rw [range_eq_ok_slice found]
    exact trimBlankLines_eq_ok comment _

theorem extract_eq_ok (comment : Text) (sentinels header : List Text) :
    extract comment sentinels header = .ok (Narrative.extract comment sentinels header) := by
  rw [extract, sectionLines_eq_ok, sectionLines_eq_ok, sectionLines_eq_ok]
  rfl

theorem framed_eq_ok (comment : Text) (body replacement : List Text) :
    framed comment body replacement = .ok (Narrative.framed comment body replacement) := by
  rw [framed, Narrative.framed]
  generalize isBlankComment comment = blank
  dsimp only
  -- The lengths of the blanks at both ends are the limits of the ranges, so the body is named by its parts.
  obtain ⟨lead, leadEqual⟩ : ∃ lead, body.takeWhile blank = lead := ⟨_, rfl⟩
  obtain ⟨rest, restEqual⟩ : ∃ rest, body.dropWhile blank = rest := ⟨_, rfl⟩
  have split : body = lead ++ rest := by
    rw [← leadEqual, ← restEqual, List.takeWhile_append_dropWhile]
  rw [leadEqual, restEqual, split, Access.range_append_right, Access.ok_bind, Access.range_append_left, Access.ok_bind]
  obtain ⟨trail, trailEqual⟩ : ∃ trail, (rest.reverse.takeWhile blank).reverse = trail := ⟨_, rfl⟩
  obtain ⟨middle, middleEqual⟩ : ∃ middle, (rest.reverse.dropWhile blank).reverse = middle := ⟨_, rfl⟩
  have restSplit : rest = middle ++ trail := by
    rw [← trailEqual, ← middleEqual, ← List.reverse_append, List.takeWhile_append_dropWhile, List.reverse_reverse]
  have trailing : (rest.reverse.takeWhile blank).length = trail.length := by
    rw [← trailEqual, List.length_reverse]
  rw [trailing, trailEqual, restSplit, ← List.append_assoc,
    Access.difference_eq_ok (by rw [List.length_append]; exact Nat.le_add_left _ _), Access.ok_bind]
  have stop : (lead ++ middle ++ trail).length - trail.length = (lead ++ middle).length := by
    rw [List.length_append, Nat.add_sub_cancel]
  rw [stop, Access.range_append_right]
  rfl

theorem places_eq_ok (comment : Text) (narrative : Narrative) (fresh : List Text) :
    places comment narrative fresh = .ok (narrative.places comment fresh) := by
  have found (parts : List Section) :
      (parts.mapM fun part => return (← sectionBody comment fresh part).map fun span => (span, part) :
          Access (List (Option (Span × Section))))
        = .ok (parts.map fun part => (sectionBody? comment fresh part).map fun span => (span, part)) := by
    simp only [sectionBody_eq_ok]
    exact List.mapM_pure
  rw [places, found]
  show Except.ok _ = _
  rw [List.filterMap_map]
  rfl

theorem putSection_eq_ok {comment : Text} {header : List Text} {place : Span × Section}
    (found : sectionBody? comment header place.2 = some place.1) (narrative : Narrative) :
    putSection comment narrative header place = .ok (narrative.putSection comment header place) := by
  obtain ⟨ordered, within⟩ := sectionBody?_within found
  rw [putSection, range_eq_ok_slice found]
  show (framed comment (place.1.slice header) (narrative.lines place.2)
    >>= splice header place.1.start place.1.stop) = _
  rw [framed_eq_ok]
  exact Access.splice_eq_ok ordered within _

/-- Filling from below, every place is still where it was looked up when its turn comes. -/
theorem foldlM_putSection_eq_ok {comment : Text} {header : List Text} {placed : List (Span × Section)}
    (hold : Narrative.Places comment header placed) (narrative : Narrative) :
    placed.foldlM (putSection comment narrative) header
      = .ok (placed.foldl (narrative.putSection comment) header) := by
  induction hold using Narrative.Places.induction with
  | nil header hold => rfl
  | cons cutout part placed holds hold inductionHypothesis =>
    rw [List.foldlM_cons, putSection_eq_ok (hold.found _ List.mem_cons_self), List.foldl_cons,
      Narrative.putSection_eq, Cutout.lines_withBody]
    exact inductionHypothesis _

theorem mergeInto_eq_ok (comment : Text) (narrative : Narrative) (fresh : List Text) :
    mergeInto comment narrative fresh = .ok (narrative.mergeInto comment fresh) := by
  rw [mergeInto, places_eq_ok]
  show (do
    let merged ← (narrative.places comment fresh).foldlM (putSection comment narrative) fresh
    return match narrative.creationDate with
      | some date => Narrative.putDate date merged
      | none => merged) = _
  rw [foldlM_putSection_eq_ok (Narrative.places_hold comment narrative fresh)]
  rfl

theorem isTerminated_eq_ok {comment : Text} {lines : List Text} {bounds : Bounds}
    (within : bounds.last < lines.length) :
    isTerminated comment lines bounds = .ok (Engine.isTerminated comment lines bounds) := by
  rw [isTerminated, Engine.isTerminated, Access.element_eq_ok within, List.getElem?_eq_getElem within]
  split
  · next same => simp [same]; rfl
  · next different =>
    show Except.ok _ = _
    simp [different]

theorem applyChanges_eq_ok {lines : List Text} {changes : List LineChange}
    (within : ∀ change ∈ changes, change.line < lines.length) :
    applyChanges changes lines = .ok (Header.applyChanges changes lines) := by
  unfold applyChanges Header.applyChanges
  induction changes generalizing lines with
  | nil => rfl
  | cons change changes inductionHypothesis =>
    rw [List.foldlM_cons, Access.put_eq_ok (within change List.mem_cons_self)]
    exact inductionHypothesis fun other member => by
      rw [List.length_set]
      exact within other (List.mem_cons_of_mem _ member)

variable (engine : Engine) (config : Config) (context : FileContext) (document : Document)

theorem update_eq_ok : update engine config context document = .ok (engine.update config context document) := by
  rw [update, Engine.update]
  dsimp only
  split
  · rfl
  · rw [locate_eq_ok, Access.ok_bind, Engine.locate]
    cases located : Header.locate (commentOf config context) document.lines with
    | none => rfl
    | some bounds =>
      -- The bounds that are found lie within the lines, and that is all that the ranges ask for.
      obtain ⟨ordered, within⟩ := locate_within located
      dsimp only
      rw [isTerminated_eq_ok within, Access.ok_bind]
      split
      · rw [Access.range_eq_ok (Nat.le_succ_of_le ordered) within, Access.ok_bind, extract_eq_ok, Access.ok_bind,
          mergeInto_eq_ok]
        rfl
      · rfl

theorem refresh_eq_ok : refresh engine config context document = .ok (engine.refresh config context document) := by
  rw [refresh, Engine.refresh, Engine.locate, locate_eq_ok, Access.ok_bind]
  cases located : Header.locate (commentOf config context) document.lines with
  | none => rfl
  | some bounds =>
    have within : ∀ change ∈ collapseLabels document.lines, change.line < document.lines.length := by
      intro change member
      obtain ⟨line, found, -⟩ := ((lists_collapseLabels document.lines).mem_iff change).mp member
      exact (List.getElem?_eq_some_iff.mp found).1
    dsimp only
    rw [applyChanges_eq_ok within, Access.ok_bind]
    rfl

end Checked

/-! ## What the operations return -/

namespace Engine

section

variable (engine : Engine) (config : Config) (context : FileContext) (document : Document)

theorem fits_insert : (engine.insert config context document).Fits document := by
  rcases insert_cases engine config context document with ⟨-, skipped⟩ | ⟨-, ⟨-, skipped⟩ | ⟨-, inserted⟩⟩
  · rw [skipped]
    trivial
  · rw [skipped]
    trivial
  · rw [inserted]
    show (opening config context document.lines).1 ≤ document.lines.length
    rw [opening]
    split
    · next pinned =>
      -- Only a line that exists is pinned.
      cases lines : document.lines with
      | nil => rw [lines] at pinned; cases pinned
      | cons line rest => exact Nat.succ_le_succ (Nat.zero_le _)
    · exact Nat.zero_le _

theorem fits_asUpdate {document : Document} {outcome : Outcome} (fits : outcome.Fits document) :
    (asUpdate outcome).Fits document := by
  cases outcome <;> exact fits

theorem fits_update : (engine.update config context document).Fits document := by
  rcases update_cases engine config context document with
    ⟨-, asInsert⟩ | ⟨-, -, skipped⟩ | ⟨bounds, located, ⟨terminated, updated⟩ | ⟨-, skipped⟩⟩
  · rw [asInsert]
    exact fits_asUpdate (fits_insert engine config context document)
  · rw [skipped]
    trivial
  · rw [updated]
    obtain ⟨ordered, within⟩ := locate_within located
    have apart : bounds.first ≠ bounds.last := by
      simp only [isTerminated, Bool.and_eq_true, decide_eq_true_eq] at terminated
      exact terminated.1.1
    exact ⟨Nat.lt_of_le_of_ne ordered apart, within⟩
  · rw [skipped]
    trivial

theorem position_insertEntry_le (kind : EntryKind) :
    (engine.insertEntry config context document kind).position ≤ document.length := by
  show (EntryList.scan (commentOf config context) document.lines kind).insertionPoint ≤ document.lines.length
  rw [EntryList.scan]
  split
  · exact Nat.zero_le _
  · next label labelled =>
    have within := (List.findIdx?_eq_some_iff_getElem.mp labelled).1
    have taken := (List.takeWhile_sublist (l := document.lines.drop (label + 1))
      (isEntryLine (commentOf config context))).length_le
    rw [List.length_drop] at taken
    simp only [EntryList.insertionPoint]
    omega

theorem changesFit_refresh {changes : List LineChange}
    (refreshed : engine.refresh config context document = some changes) : ChangesFit document changes := by
  obtain ⟨bounds, -, returned⟩ := Option.bind_eq_some_iff.mp refreshed
  dsimp only at returned
  split at returned
  · cases returned
  · cases returned
    have lists := lists_refreshChanges (commentOf config context)
      (engine.fieldValues config context) bounds document.lines
    refine ⟨lists.inOrder, fun change member => ?_⟩
    obtain ⟨line, found, -⟩ := (lists.mem_iff change).mp member
    exact (List.getElem?_eq_some_iff.mp found).1

/-- No operation ever reaches beyond the lines of a document, and no edit that it returns does. -/
theorem edits_fit :
    (Checked.locate (commentOf config context) document.lines = .ok (locate config context document) ∧
        ∀ bounds, locate config context document = some bounds →
          bounds.first ≤ bounds.last ∧ bounds.last < document.length) ∧
      ((engine.insert config context document).Fits document ∧
        (engine.insert config context document).applyWithin document
          = .ok ((engine.insert config context document).apply document)) ∧
      (Checked.update engine config context document = .ok (engine.update config context document) ∧
        (engine.update config context document).Fits document ∧
        (engine.update config context document).applyWithin document
          = .ok ((engine.update config context document).apply document)) ∧
      (∀ kind, (engine.insertEntry config context document kind).position ≤ document.length ∧
        (engine.insertEntry config context document kind).applyWithin document
          = .ok ((engine.insertEntry config context document kind).apply document)) ∧
      Checked.refresh engine config context document = .ok (engine.refresh config context document) ∧
      ∀ changes, engine.refresh config context document = some changes →
        ChangesFit document changes ∧
          applyLineChangesWithin document changes = .ok (applyLineChanges document changes) := by
  refine ⟨⟨Checked.locate_eq_ok _ _, fun bounds located => locate_within located⟩, ⟨?_, ?_⟩, ⟨?_, ?_, ?_⟩, ?_, ?_, ?_⟩
  · exact fits_insert engine config context document
  · exact (fits_insert engine config context document).applyWithin_eq
  · exact Checked.update_eq_ok engine config context document
  · exact fits_update engine config context document
  · exact (fits_update engine config context document).applyWithin_eq
  · intro kind
    have within := position_insertEntry_le engine config context document kind
    exact ⟨within, Document.insertWithin_eq_ok within _⟩
  · exact Checked.refresh_eq_ok engine config context document
  · intro changes refreshed
    have fit := changesFit_refresh engine config context document refreshed
    exact ⟨fit, fit.applyLineChangesWithin_eq⟩

end

end Engine

end Masthead.Header

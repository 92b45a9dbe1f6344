import Masthead.Proofs.Header.Numbering

/-!
# Versions that increase

A version is written in the format that a user chooses, and read in one that is fixed. Versions
increase from entry to entry as long as each is read back as no less than it has been written. A
format with two numbers and a point between them is read as major and minor number, even if it shows
a patch; then the same version comes again and again.
-/

namespace Masthead.Header

open Text

/-- The version that is read where a format has written one. -/
def readBack? (format : Text) (version : Version) : Option Version :=
  parseVersion? ('(' :: version.format format ++ [','])

/-- Whether a version is read back, and as no less than it was, as far as a format shows it. -/
def ReadsUp (format : Text) (version : Version) : Prop :=
  ∃ read ∈ readBack? format version, (read.masked (.shownBy format)).lessThan (version.masked (.shownBy format)) = false

instance (format : Text) (version : Version) : Decidable (ReadsUp format version) :=
  inferInstanceAs (Decidable (∃ read ∈ readBack? format version, _))

/-- What is read back of a version that is accepted, as far as the format shows it. -/
def readShown (format : Text) (version : Version) : Version :=
  ((readBack? format version).getD .initial).masked (.shownBy format)

theorem readsUp_iff {format : Text} {version : Version} (accepted : (readBack? format version).isSome = true) :
    ReadsUp format version ↔ (readShown format version).lessThan (version.masked (.shownBy format)) = false := by
  obtain ⟨read, readEqual⟩ := Option.isSome_iff_exists.mp accepted
  simp [ReadsUp, readShown, readEqual]

theorem readShown_congr {format : Text} (version other : Version) (same : version.format format = other.format format) :
    readShown format version = readShown format other := by
  rw [readShown, readShown, readBack?, readBack?, same]

namespace Setting

/-- The versions that are issued when entries are added to a history, each in its own setting. -/
def issuedVersions (document : Document) : List Setting → List Version
  | [] => []
  | setting :: settings =>
    setting.nextVersion (setting.listOf document .version)
      :: issuedVersions ((Edit.addEntry .version).apply setting document) settings

/-- A setting in which entries are built in and versions are written in a format. -/
structure WritesVersions (comment format : Text) (setting : Setting) : Prop where
  comment : setting.comment = comment
  versionLine : setting.engine.templates.versionLine setting.config.headerStyle = Template.builtinVersionEntry
  format : setting.config.effectiveVersionFormat = format

section

variable {comment format : Text} {document : Document} {setting : Setting}

/-- An entry goes to the end of the history with the version that has been issued for it. -/
theorem WritesVersions.addEntry (writes : setting.WritesVersions comment format) (visible : BeginsVisibly comment)
    (labelled : (EntryList.scan comment document.lines .version).label.isSome = true) :
    let version := setting.nextVersion (setting.listOf document .version)
    let added := (Edit.addEntry .version).apply setting document
    (EntryList.scan comment added.lines .version).label.isSome = true ∧
      (EntryList.scan comment added.lines .version).entries
        = (EntryList.scan comment document.lines .version).entries ++ [setting.versionEntry version] := by
  obtain ⟨rfl, versionLine, -⟩ := writes
  intro version added
  have text : (setting.engine.insertEntry setting.config setting.context document .version).text
      = setting.versionEntry version := entryText_version versionLine _
  have inserted := scan_insertLines labelled (isWritten_versionEntry visible version).listed
  rw [← text] at inserted ⊢
  exact inserted

/-- Each version is counted up from the ones that are read in the history. -/
theorem issuedVersions_eq_counted (visible : BeginsVisibly comment) (absent : '(' ∉ comment) (settings : List Setting)
    (writes : ∀ setting ∈ settings, setting.WritesVersions comment format)
    (labelled : (EntryList.scan comment document.lines .version).label.isSome = true)
    (accepted : ∀ version ∈ issuedVersions document settings, (readBack? format version).isSome = true) :
    issuedVersions document settings
      = Version.counted (.shownBy format) (readShown format)
          (EntryList.greatest? (EntryList.shownVersions (.shownBy format)
            (EntryList.scan comment document.lines .version).entries)) settings.length := by
  induction settings generalizing document with
  | nil => rfl
  | cons setting settings inductionHypothesis =>
    have written := writes setting List.mem_cons_self
    obtain ⟨addedLabelled, addedEntries⟩ := written.addEntry visible labelled
    obtain ⟨read, readEqual⟩ := Option.isSome_iff_exists.mp (accepted _ List.mem_cons_self)
    have next : setting.nextVersion (setting.listOf document .version) = Version.next (.shownBy format)
        (EntryList.greatest? (EntryList.shownVersions (.shownBy format)
          (EntryList.scan comment document.lines .version).entries)) := by
      obtain ⟨-, isHistory, -⟩ := @scan_eq_listed? comment document.lines .version
      rw [nextVersion, listOf, written.comment, written.format, EntryList.nextVersionFor_eq _ isHistory]
    -- What is read in the new entry is what is read between its parenthesis and its comma.
    have entryRead : parseVersion? (setting.versionEntry (setting.nextVersion (setting.listOf document .version)))
        = some read := by
      refine parseVersion?_versionEntry (written.comment ▸ absent) ?_
      rw [written.format]
      exact readEqual
    have later := inductionHypothesis (fun other member => writes other (List.mem_cons_of_mem _ member)) addedLabelled
      fun version member => accepted version (List.mem_cons_of_mem _ member)
    rw [addedEntries, EntryList.shownVersions_concat _ entryRead, EntryList.greatest?_concat] at later
    rw [issuedVersions, List.length_cons, Version.counted, later]
    rw [← next, readShown, readEqual, Option.getD_some]

/-- Versions increase exactly as long as each of them is read back as no less than it has been written,
and then none is written twice. -/
theorem isChain_issuedVersions_iff (visible : BeginsVisibly comment) (absent : '(' ∉ comment) (settings : List Setting)
    (writes : ∀ setting ∈ settings, setting.WritesVersions comment format)
    (labelled : (EntryList.scan comment document.lines .version).label.isSome = true)
    (accepted : ∀ version ∈ issuedVersions document settings, (readBack? format version).isSome = true)
    (below : ∀ version ∈ issuedVersions document settings, version.IsBelow) :
    (((issuedVersions document settings).map (·.masked (.shownBy format))).IsChain
        (fun version later => version.lessThan later = true) ↔
      ∀ version ∈ (issuedVersions document settings).dropLast, ReadsUp format version) ∧
    ((∀ version ∈ issuedVersions document settings, ReadsUp format version) →
      ((issuedVersions document settings).map (·.format format)).Nodup) := by
  have shown := VersionFields.showsAny_shownBy format
  have readMasked (version : Version) : (readShown format version).masked (.shownBy format) = readShown format version :=
    Version.masked_masked _ _
  have known (greatest : Version) (found : EntryList.greatest? (EntryList.shownVersions (.shownBy format)
      (EntryList.scan comment document.lines .version).entries) = some greatest) :=
    (EntryList.greatest?_shownVersions found).1
  -- The versions are those counted from the greatest one shown, so all is said about counting.
  have counted := issuedVersions_eq_counted visible absent settings writes labelled accepted
  constructor
  · have upward : (∀ version ∈ (issuedVersions document settings).dropLast, ReadsUp format version) ↔ _ :=
      forall₂_congr fun version member => readsUp_iff (accepted version (List.dropLast_subset _ member))
    rw [upward]
    rw [counted] at below ⊢
    exact Version.counted_isChain_iff shown readMasked _ known below
  · intro readsUp
    have upward := fun version member => (readsUp_iff (accepted version member)).mp (readsUp version member)
    rw [counted] at below upward ⊢
    exact Version.nodup_map_counted shown readMasked readShown_congr _ known below upward

end

/-- Three numbers with points between them are read as they have been written. -/
theorem isChain_issuedVersions_dotted :
    let format : Text := "v\x7bmajor\x7d.\x7bminor\x7d.\x7bpatch\x7d"
    let setting (now : Calendar.Instant) : Setting :=
      ⟨⟨.builtin, now⟩, { Config.default with versionFormat := format }, FileContext.ofPath "python" "/work/app.py"⟩
    let settings := [setting (0 : Int), setting (86400 : Int), setting (86400 : Int)]
    let document := Document.ofLines ["# File History :", "#   * (v02p00, kim) Rewritten", "print()"]
    let issued := issuedVersions document settings
    (∀ setting ∈ settings, setting.WritesVersions "#" format) ∧
      (EntryList.scan "#" document.lines .version).label.isSome = true ∧
      (∀ version ∈ issued, (readBack? format version).isSome = true) ∧ (∀ version ∈ issued, version.IsBelow) ∧
      (issued.map (·.masked (.shownBy format))).IsChain (fun version later => version.lessThan later = true) ∧
      (issued.map (·.format format)).Nodup := by
  intro format setting settings document issued
  have writes : ∀ setting ∈ settings, setting.WritesVersions "#" format := by
    intro other member
    have written (now : Calendar.Instant) : (setting now).WritesVersions "#" format :=
      ⟨rfl, TemplateSet.builtin_versionLine _, rfl⟩
    simp only [settings, List.mem_cons, List.not_mem_nil, or_false] at member
    rcases member with rfl | rfl | rfl <;> exact written _
  have labelled : (EntryList.scan "#" document.lines .version).label.isSome = true := by decide +kernel
  -- The versions are worked out once; what is asked of each of them is decided on the list.
  have issuedEqual : issued = [⟨2, 0, 1⟩, ⟨2, 0, 2⟩, ⟨2, 0, 3⟩] := by decide +kernel
  have accepted : ∀ version ∈ issued, (readBack? format version).isSome = true := by
    rw [issuedEqual]
    decide +kernel
  have below : ∀ version ∈ issued, version.IsBelow := by
    rw [issuedEqual]
    decide +kernel
  have readsUp : ∀ version ∈ issued, ReadsUp format version := by
    rw [issuedEqual]
    decide +kernel
  obtain ⟨increases, once⟩ := isChain_issuedVersions_iff ⟨'#', [], rfl, by decide⟩ (by decide) settings writes labelled
    accepted below
  exact ⟨writes, labelled, accepted, below,
    increases.mpr fun version member => readsUp version (List.dropLast_subset _ member), once readsUp⟩

/-- A patch behind a point is read as a minor number, which the format does not show: the second version
comes once more. -/
theorem not_isChain_issuedVersions :
    let format : Text := "v\x7bmajor:02d\x7d.\x7bpatch:02d\x7d"
    let setting : Setting :=
      ⟨⟨.builtin, (0 : Int)⟩, { Config.default with versionFormat := format }, FileContext.ofPath "python" "/work/app.py"⟩
    let settings := [setting, setting, setting]
    let document := Document.ofLines ["# File History :"]
    let issued := issuedVersions document settings
    tokens (Version.formatPieces format) ≠ [] ∧ setting.WritesVersions "#" format ∧
      (EntryList.scan "#" document.lines .version).label.isSome = true ∧
      (∀ version ∈ issued, (parseVersion? (setting.versionEntry version)).isSome = true ∧ version.IsBelow) ∧
      issued.map (·.format format) = ["v01.00".toList, "v01.01".toList, "v01.01".toList] ∧
      ¬(issued.map (·.masked (.shownBy format))).IsChain (fun version later => version.lessThan later = true) := by
  intro format setting settings document issued
  have issuedEqual : issued = [⟨1, 0, 0⟩, ⟨1, 0, 1⟩, ⟨1, 0, 1⟩] := by decide +kernel
  refine ⟨by decide, ⟨rfl, TemplateSet.builtin_versionLine _, rfl⟩, by decide +kernel, ?_, ?_, ?_⟩
  · rw [issuedEqual]
    decide +kernel
  · rw [issuedEqual]
    decide +kernel
  · rw [issuedEqual]
    decide +kernel

end Setting

end Masthead.Header

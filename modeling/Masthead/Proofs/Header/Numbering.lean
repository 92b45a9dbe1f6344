import Masthead.Proofs.Header.EntryText
import Masthead.Proofs.Header.Growth
import Masthead.Proofs.Header.Listing
import Masthead.Proofs.Header.SignaturePattern
import Masthead.Proofs.Version

/-!
# Entries that are numbered through

The next number of a list is chosen from the numbers that are read in it. An entry that has been
added is read back with its own number, so the next one gets the number behind it, whatever has
been added to the other list in the meantime.
-/

namespace Masthead.Header

namespace EntryList

/-! ## The next number of a list -/

/-- The versions that entries show, with zeros for what a format leaves out. -/
def shownVersions (fields : VersionFields) (entries : List Text) : List Version :=
  (entries.filterMap parseVersion?).map (·.masked fields)

theorem nextVersionFor_eq (fields : VersionFields) {list : EntryList} (history : list.kind = .version) :
    list.nextVersionFor fields = Version.next fields (greatest? (shownVersions fields list.entries)) := by
  rw [nextVersionFor, versions, if_pos history, ← shownVersions]
  cases greatest? (shownVersions fields list.entries) <;> rfl

theorem greatest?_concat (versions : List Version) (version : Version) :
    greatest? (versions ++ [version]) = some (Version.raised (greatest? versions) version) := by
  cases versions with
  | nil => rfl
  | cons first versions =>
    rw [List.cons_append, greatest?, List.foldl_append]
    rfl

theorem mem_of_greatest? {versions : List Version} {greatest : Version} (found : greatest? versions = some greatest) :
    greatest ∈ versions := by
  -- The greatest version is found by going through the list, so the last one is compared last.
  induction versions using List.reverseRecOn generalizing greatest with
  | nil => cases found
  | append_singleton versions version inductionHypothesis =>
    rw [greatest?_concat] at found
    cases earlier : greatest? versions with
    | none =>
      rw [earlier] at found
      cases found
      exact List.mem_append_right _ (List.mem_singleton_self _)
    | some known =>
      rw [earlier] at found
      cases found
      rw [Version.raised, Version.greater]
      split
      · exact List.mem_append_right _ (List.mem_singleton_self _)
      · exact List.mem_append_left _ (inductionHypothesis earlier)

/-- The greatest version of a list is shown as it is, and has been read. -/
theorem greatest?_shownVersions {fields : VersionFields} {entries : List Text} {greatest : Version}
    (found : greatest? (shownVersions fields entries) = some greatest) :
    greatest.masked fields = greatest ∧ greatest.major ≤ numberLimit := by
  obtain ⟨read, member, rfl⟩ := List.mem_map.mp (mem_of_greatest? found)
  obtain ⟨entry, -, accepted⟩ := List.mem_filterMap.mp member
  refine ⟨Version.masked_masked read fields, ?_⟩
  rw [Version.masked]
  dsimp only
  split
  · exact (le_numberLimit_of_parseVersion? accepted).1
  · exact Nat.zero_le _

theorem shownVersions_concat {fields : VersionFields} {entry : Text} {version : Version} (entries : List Text)
    (read : parseVersion? entry = some version) :
    shownVersions fields (entries ++ [entry]) = shownVersions fields entries ++ [version.masked fields] := by
  simp [shownVersions, List.filterMap_append, read]

/-- The greatest index of a list whose last entry has been numbered behind the others. -/
theorem nextTodoIndex_concat {entry : Text} {label other : Option Nat} (entries : List Text)
    (read : parseTodo? entry = some (nextTodoIndex ⟨.todo, label, entries⟩))
    (below : nextTodoIndex ⟨.todo, label, entries⟩ < numberLimit) :
    nextTodoIndex ⟨.todo, other, entries ++ [entry]⟩ = nextTodoIndex ⟨.todo, label, entries⟩ + 1 := by
  have indices : todoIndices ⟨.todo, other, entries ++ [entry]⟩
      = todoIndices ⟨.todo, label, entries⟩ ++ [nextTodoIndex ⟨.todo, label, entries⟩] := by
    simp [todoIndices, List.filterMap_append, read]
  rw [nextTodoIndex, indices]
  rw [nextTodoIndex] at below ⊢
  revert below
  cases todoIndices ⟨.todo, label, entries⟩ with
  | nil => exact fun _ => rfl
  | cons first rest =>
    intro below
    have next := Version.nextNumber_eq below
    simp only [List.cons_append, List.foldl_append, List.foldl_cons, List.foldl_nil]
    rw [Nat.max_eq_right (by omega), Version.nextNumber_of_lt below]

/-- The line that a list ends with: its last entry, or its label. -/
def lastLine? (list : EntryList) : Option Nat :=
  lastEntry? list |>.or list.label

theorem exists_insertionPoint {list : EntryList} (labelled : list.label.isSome = true) :
    ∃ last, list.lastLine? = some last ∧ list.insertionPoint = last + 1 := by
  obtain ⟨label, found⟩ := Option.isSome_iff_exists.mp labelled
  cases entries : list.entries with
  | nil => exact ⟨label, by simp [lastLine?, lastEntry?, entries, found], by simp [insertionPoint, entries, found]⟩
  | cons first rest =>
    refine ⟨label + (rest.length + 1), by simp [lastLine?, lastEntry?, entries, found], ?_⟩
    simp only [insertionPoint, entries, found, List.length_cons]
    omega

end EntryList

/-! ## Entries with numbers in a row -/

namespace Setting

/-- A setting in which entries are built in and versions are written in the default format. -/
structure NumbersEntries (setting : Setting) : Prop where
  versionLine : setting.engine.templates.versionLine setting.config.headerStyle = Template.builtinVersionEntry
  todoLine : setting.engine.templates.todoLine setting.config.headerStyle = Template.builtinTodoEntry
  format : setting.config.effectiveVersionFormat = Config.defaultVersionFormat
  visible : BeginsVisibly setting.comment
  absent : '(' ∉ setting.comment

variable (setting : Setting)

def listOf (document : Document) (kind : EntryKind) : EntryList :=
  .scan setting.comment document.lines kind

/-- The version that the next entry of a history gets. -/
def nextVersion (list : EntryList) : Version :=
  list.nextVersionFor (.shownBy setting.config.effectiveVersionFormat)

/-- The number that is counted up in the entries of a list. -/
def nextNumberOf (list : EntryList) : Nat :=
  match list.kind with
  | .version => (setting.nextVersion list).patch
  | .todo => list.nextTodoIndex

/-- The entry that comes after some others at the end of a list. -/
def laterEntry (list : EntryList) (later : Nat) : Text :=
  match list.kind with
  | .version => setting.versionEntry ((setting.nextVersion list).advanced later)
  | .todo => setting.todoEntry (list.nextTodoIndex + later)

/-- As many entries at the end of a list as are added one after the other. -/
def laterEntries (list : EntryList) (count : Nat) : List Text :=
  (List.range count).map (setting.laterEntry list)

/-- Whether the number that is read in an entry comes so much later than the next one of a list. -/
def CarriesNumber (list : EntryList) (later : Nat) (entry : Text) : Prop :=
  match list.kind with
  | .version => parseVersion? entry = some ((setting.nextVersion list).advanced later)
  | .todo => parseTodo? entry = some (list.nextTodoIndex + later)

variable {setting}

theorem laterEntries_succ (list : EntryList) (count : Nat) :
    setting.laterEntries list (count + 1) = setting.laterEntries list count ++ [setting.laterEntry list count] := by
  simp [laterEntries, List.range_succ]

theorem isWritten_laterEntry (visible : BeginsVisibly setting.comment) (list : EntryList) (later : Nat) :
    IsWritten setting.comment (setting.laterEntry list later) := by
  unfold laterEntry
  split
  · exact isWritten_versionEntry visible _
  · exact isWritten_todoEntry visible _

theorem isEntryLine_of_mem_laterEntries (visible : BeginsVisibly setting.comment) (list : EntryList) (count : Nat) :
    ∀ entry ∈ setting.laterEntries list count, isEntryLine setting.comment entry = true := by
  intro entry member
  obtain ⟨later, -, rfl⟩ := List.mem_map.mp member
  exact (isWritten_laterEntry visible list later).listed

/-! ## Numbers of later entries -/

/-- What an entry says depends on the entries of its list, not on where they stand. -/
theorem laterEntry_congr {list other : EntryList} (sameKind : list.kind = other.kind)
    (sameEntries : list.entries = other.entries) : setting.laterEntry list = setting.laterEntry other := by
  obtain ⟨kind, label, entries⟩ := list
  cases sameKind
  cases sameEntries
  rfl

/-- The list with its next entry at the end. -/
def grown (setting : Setting) (list : EntryList) : EntryList :=
  { list with entries := list.entries ++ [setting.laterEntry list 0] }

namespace NumbersEntries

theorem nextVersion_eq (numbers : setting.NumbersEntries) {list : EntryList} (history : list.kind = .version) :
    setting.nextVersion list = Version.next ⟨true, false, true⟩
      (EntryList.greatest? (EntryList.shownVersions ⟨true, false, true⟩ list.entries)) := by
  have fields : VersionFields.shownBy Config.defaultVersionFormat = ⟨true, false, true⟩ := by decide
  rw [nextVersion, numbers.format, fields, EntryList.nextVersionFor_eq _ history]

/-- The next version has no minor number, and a major number that can be read. -/
theorem of_nextVersion (numbers : setting.NumbersEntries) {list : EntryList} (history : list.kind = .version) :
    (setting.nextVersion list).masked ⟨true, false, true⟩ = setting.nextVersion list ∧
      (setting.nextVersion list).major ≤ numberLimit := by
  rw [numbers.nextVersion_eq history]
  have known := @EntryList.greatest?_shownVersions ⟨true, false, true⟩ list.entries
  generalize EntryList.greatest? (EntryList.shownVersions ⟨true, false, true⟩ list.entries) = greatest at known ⊢
  refine ⟨Version.masked_next rfl rfl fun version found => (known found).1, ?_⟩
  cases greatest with
  | none => decide
  | some version => exact (known rfl).2

theorem carriesNumber_laterEntry (numbers : setting.NumbersEntries) {list : EntryList} {later : Nat}
    (within : setting.nextNumberOf list + later ≤ numberLimit) :
    setting.CarriesNumber list later (setting.laterEntry list later) := by
  obtain ⟨kind, label, entries⟩ := list
  cases kind with
  | version =>
    obtain ⟨masked, major⟩ := @of_nextVersion _ numbers ⟨.version, label, entries⟩ rfl
    have minor := (Version.masked_eq_self_iff.mp masked).2.1.resolve_left Bool.false_ne_true
    refine parseVersion?_versionEntry numbers.absent ?_
    rw [numbers.format]
    exact parseVersion?_defaultFormat major minor within
  | todo => exact parseTodo?_todoEntry numbers.absent within

/-- Once the next entry is in its list, the numbers go on behind it. -/
theorem laterEntry_grown (numbers : setting.NumbersEntries) {list : EntryList}
    (below : setting.nextNumberOf list < numberLimit) :
    setting.nextNumberOf (setting.grown list) = setting.nextNumberOf list + 1 ∧
      ∀ later, setting.laterEntry (setting.grown list) later = setting.laterEntry list (later + 1) := by
  have carries := @carriesNumber_laterEntry _ numbers list 0 (Nat.le_of_lt below)
  obtain ⟨kind, label, entries⟩ := list
  -- Both lists count on from their greatest number, which is that of the new entry; but versions are compared as far as
  -- the format shows them.
  cases kind with
  | version =>
    obtain ⟨masked, -⟩ := @of_nextVersion _ numbers ⟨.version, label, entries⟩ rfl
    have next : setting.nextVersion (setting.grown ⟨.version, label, entries⟩)
        = (setting.nextVersion ⟨.version, label, entries⟩).advanced 1 := by
      have equal := @nextVersion_eq _ numbers ⟨.version, label, entries⟩ rfl
      have patchBelow : (setting.nextVersion ⟨.version, label, entries⟩).patch < numberLimit := below
      rw [numbers.nextVersion_eq rfl, grown, EntryList.shownVersions_concat entries carries, EntryList.greatest?_concat]
      show Version.next _ (some (Version.raised _ ((setting.nextVersion ⟨.version, label, entries⟩).masked _))) = _
      rw [masked]
      rw [equal] at patchBelow ⊢
      exact Version.next_raised_next rfl patchBelow
    refine ⟨congrArg Version.patch next, fun later => ?_⟩
    show setting.versionEntry ((setting.nextVersion (setting.grown ⟨.version, label, entries⟩)).advanced later) = _
    rw [next, Version.advanced_advanced, Nat.add_comm 1]
    rfl
  | todo =>
    have next : EntryList.nextTodoIndex (setting.grown ⟨.todo, label, entries⟩)
        = EntryList.nextTodoIndex ⟨.todo, label, entries⟩ + 1 := EntryList.nextTodoIndex_concat entries carries below
    refine ⟨next, fun later => ?_⟩
    show setting.todoEntry (EntryList.nextTodoIndex (setting.grown ⟨.todo, label, entries⟩) + later) = _
    rw [next, Nat.add_assoc, Nat.add_comm 1]
    rfl

/-- Behind entries that have been numbered through comes the entry with the number behind theirs. -/
theorem laterEntry_laterEntries (numbers : setting.NumbersEntries) (count : Nat) {list : EntryList}
    (within : setting.nextNumberOf list + count ≤ numberLimit) :
    setting.laterEntry { list with entries := list.entries ++ setting.laterEntries list count } 0
      = setting.laterEntry list count := by
  induction count generalizing list with
  | zero => rw [laterEntries, List.range_zero, List.map_nil, List.append_nil]
  | succ count inductionHypothesis =>
    obtain ⟨number, entry⟩ := numbers.laterEntry_grown (by omega : setting.nextNumberOf list < numberLimit)
    have later : setting.laterEntries list (count + 1)
        = setting.laterEntry list 0 :: setting.laterEntries (setting.grown list) count := by
      simp only [laterEntries, List.range_succ_eq_map, List.map_cons, List.map_map]
      exact congrArg _ (List.map_congr_left fun later _ => (entry later).symm)
    have behind := @inductionHypothesis (setting.grown list) (by omega)
    rw [entry] at behind
    rw [later, List.append_cons]
    exact behind

/-- What is added to a list that has got some entries already is the entry behind them. -/
theorem entryText_laterEntries (numbers : setting.NumbersEntries) {list earlier : EntryList} {count : Nat}
    (sameKind : earlier.kind = list.kind) (longer : earlier.entries = list.entries ++ setting.laterEntries list count)
    (within : setting.nextNumberOf list + count ≤ numberLimit) :
    setting.engine.entryText setting.config setting.context earlier list.kind = setting.laterEntry list count := by
  have next : setting.engine.entryText setting.config setting.context earlier earlier.kind
      = setting.laterEntry earlier 0 := by
    obtain ⟨kind, label, entries⟩ := earlier
    cases kind with
    | version => exact entryText_version numbers.versionLine _
    | todo => exact entryText_todo numbers.todoLine _
  have same : setting.laterEntry earlier
      = setting.laterEntry { list with entries := list.entries ++ setting.laterEntries list count } :=
    laterEntry_congr sameKind longer
  rw [← sameKind, next, same]
  exact numbers.laterEntry_laterEntries count within

end NumbersEntries

/-! ## Calls in any order -/

variable (setting)

/-- The document when each list has got as many entries as are counted. -/
def withLaterEntries (document : Document) (count : EntryKind → Nat) : Document :=
  { document with
    lines := putEntries setting.comment .fileHistory
      (setting.laterEntries (setting.listOf document .version) (count .version))
      (putEntries setting.comment .todoList (setting.laterEntries (setting.listOf document .todo) (count .todo))
        document.lines) }

variable {setting} {document : Document}

theorem listed?_withLaterEntries (visible : BeginsVisibly setting.comment) (count : EntryKind → Nat) (kind : EntryKind) :
    listed? setting.comment kind.part (setting.withLaterEntries document count).lines
      = (listed? setting.comment kind.part document.lines).map
          (· ++ setting.laterEntries (setting.listOf document kind) (count kind)) := by
  have listed (kind : EntryKind) := isEntryLine_of_mem_laterEntries visible (setting.listOf document kind) (count kind)
  cases kind with
  | version =>
    have apart : Section.fileHistory ≠ .todoList := by decide
    exact (listed?_putEntries_self (listed .version) _).trans
      (congrArg _ (listed?_putEntries_other apart (listed .todo) document.lines))
  | todo =>
    have apart : Section.todoList ≠ .fileHistory := by decide
    exact (listed?_putEntries_other apart (listed .version) _).trans
      (listed?_putEntries_self (listed .todo) document.lines)

theorem putEntries_withLaterEntries (visible : BeginsVisibly setting.comment) {count counted : EntryKind → Nat}
    {kind : EntryKind} (more : counted kind = count kind + 1) (same : ∀ other, other ≠ kind → counted other = count other) :
    putEntries setting.comment kind.part [setting.laterEntry (setting.listOf document kind) (count kind)]
        (setting.withLaterEntries document count).lines
      = (setting.withLaterEntries document counted).lines := by
  have listed (kind : EntryKind) := isEntryLine_of_mem_laterEntries visible (setting.listOf document kind) (count kind)
  have written : ∀ entry ∈ [setting.laterEntry (setting.listOf document kind) (count kind)],
      isEntryLine setting.comment entry = true :=
    fun entry member => List.mem_singleton.mp member ▸ (isWritten_laterEntry visible _ _).listed
  cases kind with
  | version =>
    simp only [withLaterEntries, EntryKind.part, more, same .todo (by decide), laterEntries_succ]
    exact putEntries_putEntries_self (listed .version) _ _
  | todo =>
    have apart : Section.todoList ≠ .fileHistory := by decide
    simp only [withLaterEntries, EntryKind.part, more, same .version (by decide), laterEntries_succ]
    rw [putEntries_comm apart (listed .version) written, putEntries_putEntries_self (listed .todo)]

/-- One call adds the next entry of its list. -/
theorem NumbersEntries.addEntry (numbers : setting.NumbersEntries) {kind : EntryKind}
    (labelled : (setting.listOf document kind).label.isSome = true) {count counted : EntryKind → Nat}
    (more : counted kind = count kind + 1) (same : ∀ other, other ≠ kind → counted other = count other)
    (within : setting.nextNumberOf (setting.listOf document kind) + count kind ≤ numberLimit) :
    let earlier := setting.withLaterEntries document count
    let insertion := setting.engine.insertEntry setting.config setting.context earlier kind
    (setting.listOf earlier kind).label.isSome = true ∧
      (setting.listOf earlier kind).entries = (setting.listOf document kind).entries
        ++ setting.laterEntries (setting.listOf document kind) (count kind) ∧
      insertion.text = setting.laterEntry (setting.listOf document kind) (count kind) ∧
      insertion.apply earlier = setting.withLaterEntries document counted := by
  intro earlier insertion
  obtain ⟨entries, isKind, found⟩ := @scan_eq_listed? setting.comment document.lines kind
  obtain ⟨earlierEntries, earlierKind, earlierFound⟩ := @scan_eq_listed? setting.comment earlier.lines kind
  obtain ⟨text, present⟩ : ∃ text, listed? setting.comment kind.part document.lines = some text :=
    Option.isSome_iff_exists.mp (found.symm.trans labelled)
  have listedEarlier : listed? setting.comment kind.part earlier.lines = _ :=
    listed?_withLaterEntries numbers.visible count kind
  rw [present, Option.map_some] at listedEarlier
  rw [present] at entries
  rw [listedEarlier] at earlierEntries earlierFound
  -- The list has grown at its end only, so the new entry has the number behind that of the last one.
  have longer : (setting.listOf earlier kind).entries = (setting.listOf document kind).entries
      ++ setting.laterEntries (setting.listOf document kind) (count kind) :=
    earlierEntries.trans (congrArg (· ++ _) entries.symm)
  have texted : insertion.text = setting.laterEntry (setting.listOf document kind) (count kind) := by
    have text := numbers.entryText_laterEntries (earlierKind.trans isKind.symm) longer within
    rwa [isKind] at text
  refine ⟨earlierFound, longer, texted, ?_⟩
  have present : (listed? setting.comment kind.part earlier.lines).isSome = true := by
    rw [listedEarlier]
    rfl
  have placed := insert_eq_putEntries earlier.lines present insertion.text
  have filled := @putEntries_withLaterEntries _ document numbers.visible count counted kind more same
  rw [← texted] at filled
  exact congrArg (fun lines => ({ document with lines } : Document)) (placed.trans filled)

theorem addEntries_concat (document : Document) (calls : List EntryKind) (kind : EntryKind) :
    addEntries document ((calls ++ [kind]).map (setting, ·))
      = (setting.engine.insertEntry setting.config setting.context (addEntries document (calls.map (setting, ·))) kind).apply
          (addEntries document (calls.map (setting, ·))) := by
  simp only [addEntries, run, List.map_append, List.map_cons, List.map_nil, List.foldl_append, List.foldl_cons,
    List.foldl_nil]
  rfl

theorem count_concat (calls : List EntryKind) (kind : EntryKind) :
    (calls ++ [kind]).count kind = calls.count kind + 1 ∧
      ∀ other, other ≠ kind → (calls ++ [kind]).count other = calls.count other := by
  refine ⟨by simp, fun other different => ?_⟩
  simp [List.count_append, Ne.symm different]

/-- After some calls each list has got one entry for each call of its kind. -/
theorem NumbersEntries.addEntries_eq (numbers : setting.NumbersEntries)
    (labelled : ∀ kind, (setting.listOf document kind).label.isSome = true) (calls : List EntryKind)
    (within : ∀ kind, setting.nextNumberOf (setting.listOf document kind) + calls.count kind ≤ numberLimit + 1) :
    addEntries document (calls.map (setting, ·)) = setting.withLaterEntries document (calls.count ·) := by
  -- The last call finds what the others have left, so the induction is from the end.
  induction calls using List.reverseRecOn with
  | nil =>
    simp only [withLaterEntries, laterEntries, List.count_nil, List.range_zero, List.map_nil, putEntries_nil]
    rfl
  | append_singleton calls kind inductionHypothesis =>
    obtain ⟨more, same⟩ := count_concat calls kind
    have counted (other : EntryKind) : calls.count other ≤ (calls ++ [kind]).count other :=
      (List.sublist_append_left _ _).count_le _
    have earlierWithin : ∀ other,
        setting.nextNumberOf (setting.listOf document other) + calls.count other ≤ numberLimit + 1 :=
      fun other => (Nat.add_le_add_left (counted other) _).trans (within other)
    have kindWithin : setting.nextNumberOf (setting.listOf document kind) + calls.count kind ≤ numberLimit := by
      have bound := within kind
      omega
    rw [addEntries_concat, inductionHypothesis earlierWithin]
    obtain ⟨-, -, -, applied⟩ := numbers.addEntry (labelled kind) more same kindWithin
    exact applied

/-- Entries that are added in any order are numbered through in each list, and go to its end. -/
theorem addEntries_interleaved (numbers : setting.NumbersEntries)
    (labelled : ∀ kind, (setting.listOf document kind).label.isSome = true) (calls : List EntryKind)
    (within : ∀ kind, setting.nextNumberOf (setting.listOf document kind) + calls.count kind ≤ numberLimit + 1) :
    addEntries document (calls.map (setting, ·)) = setting.withLaterEntries document (calls.count ·) ∧
      (∀ other : List EntryKind, other.Perm calls →
        addEntries document (other.map (setting, ·)) = addEntries document (calls.map (setting, ·))) ∧
      ∀ before kind after, calls = before ++ kind :: after →
        let earlier := addEntries document (before.map (setting, ·))
        let list := setting.listOf earlier kind
        let insertion := setting.engine.insertEntry setting.config setting.context earlier kind
        insertion.notice = none ∧
          insertion.text = setting.laterEntry (setting.listOf document kind) (before.count kind) ∧
          setting.CarriesNumber (setting.listOf document kind) (before.count kind) insertion.text ∧
          list.entries = (setting.listOf document kind).entries
            ++ setting.laterEntries (setting.listOf document kind) (before.count kind) ∧
          ∃ last, list.lastLine? = some last ∧
            (insertion.apply earlier).lines
              = earlier.lines.take (last + 1) ++ insertion.text :: earlier.lines.drop (last + 1) := by
  refine ⟨numbers.addEntries_eq labelled calls within, ?_, ?_⟩
  · intro other same
    -- Only how often each kind is added counts, and that is the same in any order.
    have otherWithin : ∀ kind,
        setting.nextNumberOf (setting.listOf document kind) + other.count kind ≤ numberLimit + 1 := by
      intro kind
      rw [same.count_eq]
      exact within kind
    rw [numbers.addEntries_eq labelled other otherWithin, numbers.addEntries_eq labelled calls within]
    exact congrArg _ (funext fun kind => same.count_eq kind)
  · rintro before kind after rfl earlier list insertion
    -- The calls before this one fit as well, so what they leave is known as a whole.
    have counted (other : EntryKind) : before.count other ≤ (before ++ kind :: after).count other :=
      (List.sublist_append_left _ _).count_le _
    have more : before.count kind + 1 ≤ (before ++ kind :: after).count kind := by
      rw [List.count_append, List.count_cons_self]
      omega
    have kindWithin : setting.nextNumberOf (setting.listOf document kind) + before.count kind ≤ numberLimit :=
      Nat.le_of_succ_le_succ ((Nat.add_le_add_left more _).trans (within kind))
    have earlierEqual : earlier = setting.withLaterEntries document (before.count ·) :=
      numbers.addEntries_eq labelled before fun other => (Nat.add_le_add_left (counted other) _).trans (within other)
    obtain ⟨oneMore, same⟩ := count_concat before kind
    obtain ⟨present, entries, text, -⟩ := numbers.addEntry (labelled kind) oneMore same kindWithin
    rw [← earlierEqual] at present entries text
    obtain ⟨last, lastEntry, point⟩ := EntryList.exists_insertionPoint present
    refine ⟨?_, text, ?_, entries, last, lastEntry, ?_⟩
    · show list.notice? = none
      rw [EntryList.notice?, Option.isNone_eq_false_iff.mpr present]
      rfl
    · rw [show insertion.text = _ from text]
      exact numbers.carriesNumber_laterEntry kindWithin
    · show earlier.lines.take list.insertionPoint ++ [insertion.text] ++ earlier.lines.drop list.insertionPoint = _
      rw [show list.insertionPoint = last + 1 from point, List.append_assoc]
      rfl

/-- The to-do list stands above the history, and has an entry already. -/
theorem addEntries_interleaved_below_todo :
    let setting : Setting := ⟨⟨.builtin, (0 : Int)⟩, Config.default, FileContext.ofPath "rust" "/work/src/main.rs"⟩
    let document := Document.ofLines ["// To-Do List :", "//   * (ToDo#07, kim) Tests", "// File History :", "fn main();"]
    setting.NumbersEntries ∧ (∀ kind, (setting.listOf document kind).label.isSome = true) ∧
      (∀ kind, setting.nextNumberOf (setting.listOf document kind) + [EntryKind.version, .todo, .version].count kind
        ≤ numberLimit + 1) ∧
      addEntries document ([EntryKind.todo, .version, .version].map (setting, ·))
        = addEntries document ([EntryKind.version, .todo, .version].map (setting, ·)) := by
  intro setting document
  have numbers : setting.NumbersEntries := by
    refine ⟨?_, ?_, rfl, ?_, ?_⟩
    · exact TemplateSet.builtin_versionLine _
    · exact TemplateSet.builtin_todoLine _
    · exact ⟨'/', ['/'], rfl, by decide⟩
    · decide
  have labelled : ∀ kind, (setting.listOf document kind).label.isSome = true := by
    intro kind
    cases kind <;> decide +kernel
  have within : ∀ kind, setting.nextNumberOf (setting.listOf document kind)
      + [EntryKind.version, .todo, .version].count kind ≤ numberLimit + 1 := by
    intro kind
    cases kind <;> decide +kernel
  have order : [EntryKind.todo, .version, .version].Perm [.version, .todo, .version] := .swap _ _ _
  exact ⟨numbers, labelled, within, (addEntries_interleaved numbers labelled _ within).2.1 _ order⟩

end Setting

end Masthead.Header

import Mathlib.Data.List.Chain
import Masthead.Header.Entry

/-!
# Counting versions

The order of versions is that of their numbers, major number first. Among versions that have zeros
where a format shows nothing, counting up gives the next greater one. So when versions are counted
and each is read back before the next one is chosen, they increase exactly as long as what is read
back is never less than what has been written.
-/

namespace Masthead

/-- Whether any field is shown. -/
def VersionFields.ShowsAny (fields : VersionFields) : Prop :=
  fields.major = true ∨ fields.minor = true ∨ fields.patch = true

/-- Whether a field is among those that are shown. -/
def VersionFields.shows (fields : VersionFields) : VersionField → Bool
  | .major => fields.major
  | .minor => fields.minor
  | .patch => fields.patch

/-- The field that is counted up: the lowest one that is shown. -/
def VersionFields.lowest (fields : VersionFields) : VersionField :=
  if fields.patch then .patch else if fields.minor then .minor else .major

theorem VersionFields.shows_lowest {fields : VersionFields} (shown : fields.ShowsAny) :
    fields.shows fields.lowest = true := by
  unfold lowest
  split
  · assumption
  · next hidesPatch =>
    split
    · assumption
    · next hidesMinor => exact shown.resolve_right fun others => others.elim hidesMinor hidesPatch

theorem VersionFields.showsAny_shownBy (format : Text) : (shownBy format).ShowsAny := by
  unfold shownBy
  dsimp only
  split
  · exact .inl rfl
  · next seen =>
    rw [List.isEmpty_iff] at seen
    obtain ⟨field, member⟩ := List.exists_mem_of_ne_nil _ seen
    cases field with
    | major => exact .inl (List.contains_iff_mem.mpr member)
    | minor => exact .inr (.inl (List.contains_iff_mem.mpr member))
    | patch => exact .inr (.inr (List.contains_iff_mem.mpr member))

namespace Version

variable {version other third greatest : Version} {fields : VersionFields}

/-! ## The order -/

theorem lessThan_iff :
    version.lessThan other = true ↔
      version.major < other.major ∨ version.major = other.major ∧
        (version.minor < other.minor ∨ version.minor = other.minor ∧ version.patch < other.patch) := by
  simp [lessThan]

theorem lessThan_irrefl (version : Version) : version.lessThan version = false := by
  rw [Bool.eq_false_iff, ne_eq, lessThan_iff]
  omega

theorem lessThan_of_lessThan_of_not (first : version.lessThan other = true) (second : third.lessThan other = false) :
    version.lessThan third = true := by
  rw [Bool.eq_false_iff, ne_eq, lessThan_iff] at second
  rw [lessThan_iff] at *
  omega

theorem lessThan_of_not_of_lessThan (first : other.lessThan version = false) (second : other.lessThan third = true) :
    version.lessThan third = true := by
  rw [Bool.eq_false_iff, ne_eq, lessThan_iff] at first
  rw [lessThan_iff] at *
  omega

theorem lessThan_greater_eq_false (version other : Version) :
    (version.greater other).lessThan version = false ∧ (version.greater other).lessThan other = false := by
  unfold greater
  split
  · next less =>
    refine ⟨?_, lessThan_irrefl other⟩
    rw [Bool.eq_false_iff, ne_eq, lessThan_iff]
    rw [lessThan_iff] at less
    omega
  · next notLess => exact ⟨lessThan_irrefl version, Bool.eq_false_iff.mpr notLess⟩

/-! ## Counting up -/

/-- Whether all numbers of a version are below the limit. -/
def IsBelow (version : Version) : Prop :=
  version.major < numberLimit ∧ version.minor < numberLimit ∧ version.patch < numberLimit

instance (version : Version) : Decidable version.IsBelow :=
  inferInstanceAs (Decidable (_ ∧ _))

theorem masked_eq_self_iff :
    version.masked fields = version ↔ (fields.major = true ∨ version.major = 0) ∧
      (fields.minor = true ∨ version.minor = 0) ∧ (fields.patch = true ∨ version.patch = 0) := by
  obtain ⟨major, minor, patch⟩ := version
  simp only [masked, mk.injEq]
  cases fields.major <;> cases fields.minor <;> cases fields.patch <;> simp [eq_comm]

theorem masked_masked (version : Version) (fields : VersionFields) :
    (version.masked fields).masked fields = version.masked fields := by
  rw [masked_eq_self_iff]
  simp only [masked]
  cases fields.major <;> cases fields.minor <;> cases fields.patch <;> simp

theorem nextNumber_of_lt {number : Nat} (below : number < numberLimit) : nextNumber number = number + 1 :=
  Nat.min_eq_left below

theorem nextNumber_eq {number : Nat} (below : nextNumber number < numberLimit) : nextNumber number = number + 1 := by
  unfold nextNumber at *
  omega

theorem of_masked {field : VersionField} (shown : fields.shows field = true) :
    field.of (version.masked fields) = field.of version := by
  cases field with
  | major => exact if_pos shown
  | minor => exact if_pos shown
  | patch => exact if_pos shown

/-- The three ways of counting up, one for each field that may be the lowest shown. -/
theorem bump_cases (below : fields.lowest.of version < numberLimit) :
    (fields.lowest = .patch ∧ fields.patch = true ∧ version.bump fields = { version with patch := version.patch + 1 }) ∨
      (fields.lowest = .minor ∧ fields.patch = false ∧ fields.minor = true ∧
        version.bump fields = ⟨version.major, version.minor + 1, 0⟩) ∨
      (fields.lowest = .major ∧ fields.patch = false ∧ fields.minor = false ∧
        version.bump fields = ⟨version.major + 1, 0, 0⟩) := by
  obtain ⟨showsMajor, showsMinor, showsPatch⟩ := fields
  cases showsPatch with
  | true => exact .inl ⟨rfl, rfl, congrArg (Version.mk _ _) (nextNumber_of_lt below)⟩
  | false =>
    cases showsMinor with
    | true => exact .inr (.inl ⟨rfl, rfl, rfl, congrArg (Version.mk _ · 0) (nextNumber_of_lt below)⟩)
    | false => exact .inr (.inr ⟨rfl, rfl, rfl, congrArg (Version.mk · 0 0) (nextNumber_of_lt below)⟩)

theorem lowest_lt_of_isBelow_bump (below : (version.bump fields).IsBelow) : fields.lowest.of version < numberLimit := by
  have before {number : Nat} (next : nextNumber number < numberLimit) : number < numberLimit := by
    have counted := nextNumber_eq next
    omega
  obtain ⟨showsMajor, showsMinor, showsPatch⟩ := fields
  cases showsPatch with
  | true => exact before below.2.2
  | false =>
    cases showsMinor with
    | true => exact before below.2.1
    | false => exact before below.1

/-- The lowest field that is shown is counted up, and those above it stay. -/
theorem of_bump (below : fields.lowest.of version < numberLimit) {field : VersionField} (shown : fields.shows field = true) :
    field.of (version.bump fields) = field.of version + if field = fields.lowest then 1 else 0 := by
  rcases bump_cases below with ⟨lowest, -, bumped⟩ | ⟨lowest, hidesPatch, -, bumped⟩ | ⟨lowest, hidesPatch, hidesMinor, bumped⟩
  · rw [lowest, bumped]
    cases field <;> rfl
  · rw [lowest, bumped]
    cases field with
    | major => rfl
    | minor => rfl
    | patch => cases hidesPatch.symm.trans shown
  · rw [lowest, bumped]
    cases field with
    | major => rfl
    | minor => cases hidesMinor.symm.trans shown
    | patch => cases hidesPatch.symm.trans shown

theorem lessThan_bump (below : fields.lowest.of version < numberLimit) :
    version.lessThan (version.bump fields) = true := by
  rw [lessThan_iff]
  rcases bump_cases below with ⟨-, -, bumped⟩ | ⟨-, -, -, bumped⟩ | ⟨-, -, -, bumped⟩
  · rw [bumped]
    exact .inr ⟨rfl, .inr ⟨rfl, Nat.lt_succ_self _⟩⟩
  · rw [bumped]
    exact .inr ⟨rfl, .inl (Nat.lt_succ_self _)⟩
  · rw [bumped]
    exact .inl (Nat.lt_succ_self _)

/-- Counting up is a step to the next version that the fields can show. -/
theorem bump_spec (shown : fields.ShowsAny) (isMasked : greatest.masked fields = greatest)
    (below : (greatest.bump fields).IsBelow) :
    (greatest.bump fields).masked fields = greatest.bump fields ∧ greatest.lessThan (greatest.bump fields) = true ∧
      ∀ version : Version, version.masked fields = version → version.lessThan (greatest.bump fields) = true →
        greatest.lessThan version = false := by
  obtain ⟨majorMasked, minorMasked, patchMasked⟩ := masked_eq_self_iff.mp isMasked
  have belowLowest := lowest_lt_of_isBelow_bump below
  refine ⟨?_, lessThan_bump belowLowest, ?_⟩
  · rw [masked_eq_self_iff]
    rcases bump_cases belowLowest with
      ⟨-, showsPatch, bumped⟩ | ⟨-, -, showsMinor, bumped⟩ | ⟨-, hidesPatch, hidesMinor, bumped⟩
    · rw [bumped]
      exact ⟨majorMasked, minorMasked, .inl showsPatch⟩
    · rw [bumped]
      exact ⟨majorMasked, .inl showsMinor, .inr rfl⟩
    · rw [bumped]
      have showsMajor := shown.resolve_right fun others => by simp [hidesPatch, hidesMinor] at others
      exact ⟨.inl showsMajor, .inr rfl, .inr rfl⟩
  · intro version versionMasked less
    obtain ⟨-, minorHidden, patchHidden⟩ := masked_eq_self_iff.mp versionMasked
    rw [Bool.eq_false_iff, ne_eq]
    rw [lessThan_iff] at *
    -- One of the three numbers is counted up, and those behind it are zero before and after.
    rcases bump_cases belowLowest with
      ⟨-, -, bumped⟩ | ⟨-, hidesPatch, -, bumped⟩ | ⟨-, hidesPatch, hidesMinor, bumped⟩
    · rw [bumped] at less
      dsimp only at less
      omega
    · rw [bumped] at less
      simp only [hidesPatch, Bool.false_eq_true, false_or] at patchMasked patchHidden
      dsimp only at less
      omega
    · rw [bumped] at less
      simp only [hidesPatch, hidesMinor, Bool.false_eq_true, false_or] at patchMasked patchHidden minorMasked minorHidden
      dsimp only at less
      omega

/-! ## Counting with what is read back -/

/-- The version with a later patch. -/
def advanced (version : Version) (count : Nat) : Version :=
  { version with patch := version.patch + count }

theorem advanced_advanced (version : Version) (count more : Nat) :
    (version.advanced count).advanced more = version.advanced (count + more) := by
  simp only [advanced, Nat.add_assoc]

/-- The version after those counted so far, of which the greatest is given. -/
def next (fields : VersionFields) : Option Version → Version
  | some greatest => greatest.bump fields
  | none => .initial

/-- The greatest version when one more has been read. -/
def raised : Option Version → Version → Version
  | some greatest, version => greatest.greater version
  | none, version => version

/-- Versions counted up one after the other, where each is read back before the next one is chosen. -/
def counted (fields : VersionFields) (read : Version → Version) : Option Version → Nat → List Version
  | _, 0 => []
  | greatest, count + 1 =>
    let version := next fields greatest
    version :: counted fields read (some (raised greatest (read version))) count

theorem greater_of_lessThan (less : version.lessThan other = true) : version.greater other = other :=
  if_pos less

theorem greater_of_not_lessThan (notLess : version.lessThan other = false) : version.greater other = version :=
  if_neg (Bool.eq_false_iff.mp notLess)

theorem masked_raised {greatest : Option Version} (isMasked : ∀ known, greatest = some known → known.masked fields = known)
    (versionMasked : version.masked fields = version) :
    (raised greatest version).masked fields = raised greatest version := by
  cases greatest with
  | none => exact versionMasked
  | some known =>
    show (known.greater version).masked fields = known.greater version
    unfold greater
    split
    · exact versionMasked
    · exact isMasked known rfl

/-- Where major number and patch are shown, every next version is shown as it is. -/
theorem masked_next (showsMajor : fields.major = true) (showsPatch : fields.patch = true) {greatest : Option Version}
    (isMasked : ∀ known, greatest = some known → known.masked fields = known) :
    (next fields greatest).masked fields = next fields greatest := by
  rw [masked_eq_self_iff]
  cases greatest with
  | none => exact ⟨.inl showsMajor, .inr rfl, .inl showsPatch⟩
  | some known =>
    have minor := (masked_eq_self_iff.mp (isMasked known rfl)).2.1
    simp only [next, bump, if_pos showsPatch]
    exact ⟨.inl showsMajor, minor, .inl showsPatch⟩

/-- A next version that is read back as it is has the one with the next patch behind it. -/
theorem next_raised_next (showsPatch : fields.patch = true) {greatest : Option Version}
    (below : (next fields greatest).patch < numberLimit) :
    next fields (some (raised greatest (next fields greatest))) = (next fields greatest).advanced 1 := by
  have reached : raised greatest (next fields greatest) = next fields greatest := by
    cases greatest with
    | none => rfl
    | some known =>
      refine greater_of_lessThan (lessThan_iff.mpr ?_)
      simp only [next, bump, if_pos showsPatch] at below ⊢
      rw [nextNumber_eq below]
      exact .inr ⟨trivial, .inr ⟨trivial, Nat.lt_succ_self _⟩⟩
  rw [reached]
  show (next fields greatest).bump fields = _
  rw [bump, if_pos showsPatch, nextNumber_of_lt below]
  rfl

/-- The next version is greater if and only if the one before has been read back as no less than it was. -/
theorem lessThan_next_iff (shown : fields.ShowsAny) {greatest : Option Version}
    (isMasked : ∀ known, greatest = some known → known.masked fields = known) (readMasked : other.masked fields = other)
    (below : (next fields greatest).IsBelow) (belowAfter : (next fields (some (raised greatest other))).IsBelow) :
    ((next fields greatest).masked fields).lessThan ((next fields (some (raised greatest other))).masked fields) = true ↔
      other.lessThan ((next fields greatest).masked fields) = false := by
  -- A version read back that is behind the one known before it changes nothing, so the next one is the same again.
  cases greatest with
  | none =>
    obtain ⟨bumpMasked, less, successor⟩ := bump_spec shown readMasked belowAfter
    show ((initial.masked fields).lessThan ((other.bump fields).masked fields) = true ↔ _)
    rw [bumpMasked]
    exact ⟨successor _ (masked_masked initial fields), fun notLess => lessThan_of_not_of_lessThan notLess less⟩
  | some known =>
    obtain ⟨bumpMasked, less, successor⟩ := bump_spec shown (isMasked known rfl) below
    show (((known.bump fields).masked fields).lessThan (((known.greater other).bump fields).masked fields) = true ↔
      other.lessThan ((known.bump fields).masked fields) = false)
    rw [bumpMasked]
    constructor
    · intro increased
      rw [Bool.eq_false_iff]
      intro behind
      rw [greater_of_not_lessThan (successor other readMasked behind), bumpMasked, lessThan_irrefl] at increased
      cases increased
    · intro notLess
      have raisedEqual : known.greater other = other :=
        greater_of_lessThan (lessThan_of_lessThan_of_not less notLess)
      have belowOther : (other.bump fields).IsBelow := raisedEqual ▸ belowAfter
      obtain ⟨otherMasked, otherLess, -⟩ := bump_spec shown readMasked belowOther
      rw [raisedEqual, otherMasked]
      exact lessThan_of_not_of_lessThan notLess otherLess

section Counted

variable {read : Version → Version}

theorem counted_isChain_iff (shown : fields.ShowsAny) (readMasked : ∀ version, (read version).masked fields = read version)
    (count : Nat) {greatest : Option Version} (isMasked : ∀ known, greatest = some known → known.masked fields = known)
    (below : ∀ version ∈ counted fields read greatest count, version.IsBelow) :
    ((counted fields read greatest count).map (·.masked fields)).IsChain
        (fun version later => version.lessThan later = true) ↔
      ∀ version ∈ (counted fields read greatest count).dropLast,
        (read version).lessThan (version.masked fields) = false := by
  induction count generalizing greatest with
  | zero => simp [counted]
  | succ count inductionHypothesis =>
    have later := @inductionHypothesis (some (raised greatest (read (next fields greatest))))
      (fun known equal => Option.some.inj equal ▸ masked_raised isMasked (readMasked _))
      fun version member => below version (List.mem_cons_of_mem _ member)
    cases count with
    | zero => simp [counted]
    | succ count =>
      have step := lessThan_next_iff shown isMasked (readMasked _) (below _ List.mem_cons_self)
        (below _ (List.mem_cons_of_mem _ List.mem_cons_self))
      rw [counted, List.map_cons] at later
      rw [counted, counted, List.map_cons, List.map_cons, List.isChain_cons_cons, step, later,
        List.dropLast_cons_of_ne_nil (List.cons_ne_nil _ _), List.forall_mem_cons]

theorem lessThan_of_mem_counted (shown : fields.ShowsAny)
    (readMasked : ∀ version, (read version).masked fields = read version) (count : Nat) {known : Version} (isMasked : known.masked fields = known)
    (below : ∀ version ∈ counted fields read (some known) count, version.IsBelow) {version : Version}
    (member : version ∈ counted fields read (some known) count) : known.lessThan (version.masked fields) = true := by
  induction count generalizing known with
  | zero => cases member
  | succ count inductionHypothesis =>
    rw [counted] at member
    rcases List.mem_cons.mp member with rfl | member
    · obtain ⟨bumpMasked, less, -⟩ := bump_spec shown isMasked (below _ List.mem_cons_self)
      exact bumpMasked.symm ▸ less
    · have knownMasked : ∀ other, some known = some other → other.masked fields = other :=
        fun other equal => Option.some.inj equal ▸ isMasked
      have less := inductionHypothesis (masked_raised knownMasked (readMasked _))
        (fun other otherMember => below other (List.mem_cons_of_mem _ otherMember)) member
      exact lessThan_of_not_of_lessThan (lessThan_greater_eq_false known _).1 less

/-- Versions that are read back as no less than they were are never written alike. -/
theorem nodup_map_counted (shown : fields.ShowsAny) (readMasked : ∀ version, (read version).masked fields = read version)
    {write : Version → Text} (readBack : ∀ version other, write version = write other → read version = read other)
    (count : Nat) {greatest : Option Version} (isMasked : ∀ known, greatest = some known → known.masked fields = known)
    (below : ∀ version ∈ counted fields read greatest count, version.IsBelow)
    (upward : ∀ version ∈ counted fields read greatest count, (read version).lessThan (version.masked fields) = false) :
    ((counted fields read greatest count).map write).Nodup := by
  induction count generalizing greatest with
  | zero => exact List.nodup_nil
  | succ count inductionHypothesis =>
    rw [counted] at below upward ⊢
    have raisedMasked := masked_raised isMasked (readMasked (next fields greatest))
    have laterBelow := fun version member => below version (List.mem_cons_of_mem _ member)
    have laterUpward := fun version member => upward version (List.mem_cons_of_mem _ member)
    rw [List.map_cons, List.nodup_cons]
    refine ⟨?_, inductionHypothesis (fun known equal => Option.some.inj equal ▸ raisedMasked) laterBelow laterUpward⟩
    intro member
    obtain ⟨version, versionMember, same⟩ := List.mem_map.mp member
    -- Were a later version written like this one, both would be read back as the same; but the later one is greater.
    have less := lessThan_of_mem_counted shown readMasked count raisedMasked laterBelow versionMember
    have notRaised : (raised greatest (read (next fields greatest))).lessThan (read version) = false := by
      rw [readBack version _ same]
      cases greatest with
      | none => exact lessThan_irrefl _
      | some known => exact (lessThan_greater_eq_false known _).2
    have behind := lessThan_of_not_of_lessThan notRaised less
    rw [laterUpward version versionMember] at behind
    cases behind

end Counted

end Version

end Masthead

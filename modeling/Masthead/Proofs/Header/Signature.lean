import Masthead.Header.Entry
import Masthead.Proofs.Text.Affix
import Masthead.Proofs.Text.Numeral

/-!
# Signatures of entries

The number of an entry stands behind the first opening parenthesis that begins a signature, and a
signature ends at its comma. So what is read in a line depends on the text from the parenthesis to
the comma alone, and the digits of a version are read where they have been written.
-/

namespace Masthead.Header

open Text

/-- A text of digits, of which there must be some. -/
def AreDigits (text : Text) : Prop :=
  text ≠ [] ∧ ∀ character ∈ text, isDigit character = true

theorem areDigits_paddedDecimal (width number : Nat) : AreDigits (paddedDecimal width number) :=
  ⟨paddedDecimal_ne_nil width number,
    fun _ member => isDigit_of_mem_decimalDigits (mem_decimalDigits_of_mem_paddedDecimal member)⟩

/-! ## Digits behind a sign -/

theorem areDigits_takeWhile {text : Text} (nonempty : text.takeWhile isDigit ≠ []) : AreDigits (text.takeWhile isDigit) :=
  ⟨nonempty, fun digit member => List.all_eq_true.mp List.all_takeWhile digit member⟩

theorem digitsBehind?_append {isSign : Char → Bool} {sign : Char} {digits rest : Text} (signed : isSign sign = true)
    (areDigits : AreDigits digits) (ended : rest.head?.any isDigit = false) :
    digitsBehind? isSign (sign :: (digits ++ rest)) = some (digits, rest) := by
  simp [digitsBehind?, signed, takeWhile_append_of_stop areDigits.2 ended, dropWhile_append_of_stop areDigits.2 ended,
    areDigits.1]

theorem exists_of_digitsBehind? {isSign : Char → Bool} {text digits rest : Text}
    (found : digitsBehind? isSign text = some (digits, rest)) :
    ∃ sign, isSign sign = true ∧ text = sign :: (digits ++ rest) ∧ AreDigits digits ∧ rest.head?.any isDigit = false := by
  unfold digitsBehind? at found
  split at found
  · cases found
  · next sign behind =>
    dsimp only at found
    split at found
    · next signed =>
      simp only [Bool.and_eq_true, Bool.not_eq_true', List.isEmpty_eq_false_iff] at signed
      cases found
      exact ⟨sign, signed.1, by rw [List.takeWhile_append_dropWhile], areDigits_takeWhile signed.2,
        any_head?_dropWhile isDigit behind⟩
    · cases found

/-- A sign with digits behind it, if there are any. -/
def behindSign (sign : Char) : Option Text → Text
  | none => []
  | some digits => sign :: digits

theorem optionalDigits_behindSign {isSign : Char → Bool} {sign : Char} {digits : Option Text} {rest : Text}
    (signed : digits ≠ none → isSign sign = true) (areDigits : ∀ given ∈ digits, AreDigits given)
    (ended : rest.head?.any isDigit = false) (unsigned : digits = none → rest.head?.any isSign = false) :
    optionalDigits isSign (behindSign sign digits ++ rest) = (digits, rest) := by
  unfold optionalDigits
  cases digits with
  | some given =>
    rw [behindSign, List.cons_append, digitsBehind?_append (signed (by simp)) (areDigits given rfl) ended]
  | none =>
    rw [behindSign, List.nil_append]
    cases found : digitsBehind? isSign rest with
    | none => rfl
    | some pair =>
      obtain ⟨sign, signed, equal, -, -⟩ := exists_of_digitsBehind? found
      have apart := unsigned rfl
      rw [equal, List.head?_cons, Option.any_some, signed] at apart
      cases apart

theorem exists_of_optionalDigits {isSign : Char → Bool} {text rest : Text} {digits : Option Text}
    (read : optionalDigits isSign text = (digits, rest)) :
    ∃ sign, text = behindSign sign digits ++ rest ∧ (digits ≠ none → isSign sign = true) ∧
      ∀ given ∈ digits, AreDigits given := by
  unfold optionalDigits at read
  cases found : digitsBehind? isSign text with
  | none =>
    rw [found] at read
    cases read
    exact ⟨' ', rfl, by simp, by simp⟩
  | some pair =>
    rw [found] at read
    cases read
    obtain ⟨sign, signed, equal, areDigits, -⟩ := exists_of_digitsBehind? found
    exact ⟨sign, equal, fun _ => signed, fun given member => Option.some.inj member ▸ areDigits⟩

theorem head?_behindSign_append {test : Char → Bool} {sign : Char} {digits : Option Text} {rest : Text}
    (signApart : digits ≠ none → test sign = false) (restApart : rest.head?.any test = false) :
    (behindSign sign digits ++ rest).head?.any test = false := by
  cases digits with
  | none => exact restApart
  | some given => exact signApart (by simp)

/-! ## Versions -/

/-- A version as it is written in a signature, with a mark and with a sign before its last number. -/
structure VersionSpelling where
  mark : Text
  digits : VersionDigits
  sign : Char

namespace VersionSpelling

def text (spelling : VersionSpelling) : Text :=
  spelling.mark ++ (spelling.digits.major ++ (behindSign '.' spelling.digits.minor
    ++ behindSign spelling.sign spelling.digits.patch))

/-- Whether a spelling says what it is meant to: a last number behind a point would be the middle one. -/
structure IsSound (spelling : VersionSpelling) : Prop where
  mark : spelling.mark = [] ∨ spelling.mark = ['v']
  major : AreDigits spelling.digits.major
  minor : ∀ given ∈ spelling.digits.minor, AreDigits given
  patch : ∀ given ∈ spelling.digits.patch, AreDigits given
  sign : spelling.sign = '.' ∨ spelling.sign = 'p'
  apart : spelling.digits.minor = none → spelling.digits.patch ≠ none → spelling.sign = 'p'

end VersionSpelling

/-! ### The numbers behind the first one -/

theorem exists_of_laterNumbers {text afterMinor after : Text} {minor patch : Option Text}
    (minorRead : optionalDigits (· == '.') text = (minor, afterMinor))
    (patchRead : optionalDigits (fun sign => sign == '.' || sign == 'p') afterMinor = (patch, ',' :: after)) :
    ∃ sign, text = behindSign '.' minor ++ (behindSign sign patch ++ ',' :: after) ∧ (sign = '.' ∨ sign = 'p') ∧
      (minor = none → patch ≠ none → sign = 'p') ∧ (∀ given ∈ minor, AreDigits given) ∧
      ∀ given ∈ patch, AreDigits given := by
  obtain ⟨point, minorSplit, isPoint, minorDigits⟩ := exists_of_optionalDigits minorRead
  obtain ⟨read, patchSplit, isSign, patchDigits⟩ := exists_of_optionalDigits patchRead
  have minorSigned : behindSign point minor = behindSign '.' minor := by
    cases minor with
    | none => rfl
    | some given => rw [show point = '.' by simpa using isPoint (by simp)]
  obtain ⟨sign, signed, patchSigned⟩ : ∃ sign, (sign = '.' ∨ sign = 'p') ∧ behindSign read patch = behindSign sign patch := by
    cases patch with
    | none => exact ⟨'p', .inr rfl, rfl⟩
    | some given => exact ⟨read, by simpa using isSign (by simp), rfl⟩
  rw [minorSigned] at minorSplit
  rw [patchSigned] at patchSplit
  refine ⟨sign, by rw [minorSplit, patchSplit], signed, ?_, minorDigits, patchDigits⟩
  -- Digits behind a point are read as the middle number first.
  rintro rfl present
  refine signed.resolve_left ?_
  rintro rfl
  have readFirst : optionalDigits (· == '.') afterMinor = (patch, ',' :: after) := by
    rw [patchSplit]
    exact optionalDigits_behindSign (fun _ => rfl) patchDigits rfl fun missing => absurd missing present
  rw [minorSplit, behindSign, List.nil_append, readFirst, Prod.mk.injEq] at minorRead
  exact present minorRead.1

theorem laterNumbers_read {sign : Char} {minor patch : Option Text} (signed : sign = '.' ∨ sign = 'p')
    (apart : minor = none → patch ≠ none → sign = 'p') (minorDigits : ∀ given ∈ minor, AreDigits given)
    (patchDigits : ∀ given ∈ patch, AreDigits given) (after : Text) :
    (behindSign '.' minor ++ (behindSign sign patch ++ ',' :: after)).head?.any isDigit = false ∧
      optionalDigits (· == '.') (behindSign '.' minor ++ (behindSign sign patch ++ ',' :: after))
        = (minor, behindSign sign patch ++ ',' :: after) ∧
      optionalDigits (fun sign => sign == '.' || sign == 'p') (behindSign sign patch ++ ',' :: after)
        = (patch, ',' :: after) := by
  have point : isDigit '.' = false := by decide
  have comma : (',' :: after).head?.any isDigit = false := rfl
  have signApart : isDigit sign = false := by rcases signed with rfl | rfl <;> decide
  have behindMinor : (behindSign sign patch ++ ',' :: after).head?.any isDigit = false :=
    head?_behindSign_append (fun _ => signApart) comma
  refine ⟨head?_behindSign_append (fun _ => point) behindMinor, ?_, ?_⟩
  · refine optionalDigits_behindSign (fun _ => rfl) minorDigits behindMinor fun missing => ?_
    exact head?_behindSign_append (fun given => by rw [apart missing given]; rfl) rfl
  · exact optionalDigits_behindSign (fun _ => by simpa using signed) patchDigits comma fun _ => rfl

/-! ### The whole version -/

theorem exists_of_versionDigitsHere? {text : Text} {digits : VersionDigits} (found : versionDigitsHere? text = some digits) :
    ∃ (spelling : VersionSpelling) (after : Text), spelling.IsSound ∧ spelling.digits = digits ∧
      text = '(' :: (spelling.text ++ ',' :: after) := by
  unfold versionDigitsHere? at found
  split at found
  · next rest =>
    dsimp only at found
    -- What is read first is a mark or nothing.
    obtain ⟨mark, marked, restEqual⟩ : ∃ mark, (mark = [] ∨ mark = ['v']) ∧ rest = mark ++ (after? ['v'] rest).getD rest := by
      cases behind : after? ['v'] rest with
      | none => exact ⟨[], .inl rfl, rfl⟩
      | some more => exact ⟨['v'], .inr rfl, after?_eq_some_iff.mp behind⟩
    generalize (after? ['v'] rest).getD rest = unmarked at found restEqual
    cases minorRead : optionalDigits (· == '.') (unmarked.dropWhile isDigit) with
    | mk minor afterMinor =>
    cases patchRead : optionalDigits (fun sign => sign == '.' || sign == 'p') afterMinor with
    | mk patch afterPatch =>
    rw [minorRead] at found
    dsimp only at found
    rw [patchRead] at found
    dsimp only at found
    split at found
    · next accepted =>
      simp only [Bool.and_eq_true, Bool.not_eq_true', List.isEmpty_eq_false_iff, beq_iff_eq] at accepted
      obtain ⟨after, rfl⟩ := List.head?_eq_some_iff.mp accepted.2
      obtain ⟨sign, behind, signed, apart, minorDigits, patchDigits⟩ := exists_of_laterNumbers minorRead patchRead
      cases found
      refine ⟨⟨mark, ⟨_, minor, patch⟩, sign⟩, after,
        ⟨marked, areDigits_takeWhile accepted.1, minorDigits, patchDigits, signed, apart⟩, rfl, ?_⟩
      have whole := List.takeWhile_append_dropWhile (p := isDigit) (l := unmarked)
      conv => lhs; rw [restEqual, ← whole, behind]
      simp only [VersionSpelling.text, List.append_assoc]
    · cases found
  · cases found

/-- A mark is passed over; without one there is a digit, and no digit is a mark. -/
theorem after?_mark {mark digits : Text} (marked : mark = [] ∨ mark = ['v']) (areDigits : AreDigits digits) (rest : Text) :
    (after? ['v'] (mark ++ (digits ++ rest))).getD (mark ++ (digits ++ rest)) = digits ++ rest := by
  rcases marked with rfl | rfl
  · cases digits with
    | nil => exact absurd rfl areDigits.1
    | cons digit digits =>
      have isDigit := areDigits.2 digit List.mem_cons_self
      have other : 'v' ≠ digit := by
        rintro rfl
        exact absurd isDigit (by decide)
      simp [after?, other]
  · rw [after?_append, Option.getD_some]

/-- A version is read exactly where it has been written between a parenthesis and a comma. -/
theorem versionDigitsHere?_eq_some_iff {text : Text} {digits : VersionDigits} :
    versionDigitsHere? text = some digits ↔
      ∃ (spelling : VersionSpelling) (after : Text), spelling.IsSound ∧ spelling.digits = digits ∧
        text = '(' :: (spelling.text ++ ',' :: after) := by
  refine ⟨exists_of_versionDigitsHere?, ?_⟩
  rintro ⟨⟨mark, ⟨major, minor, patch⟩, sign⟩, after, sound, rfl, rfl⟩
  have majorDigits : AreDigits major := sound.major
  obtain ⟨majorEnded, minorRead, patchRead⟩ := laterNumbers_read sound.sign sound.apart sound.minor sound.patch after
  have majorTaken := takeWhile_append_of_stop majorDigits.2 majorEnded
  have majorDropped := dropWhile_append_of_stop majorDigits.2 majorEnded
  simp only [VersionSpelling.text, List.append_assoc, versionDigitsHere?, after?_mark sound.mark majorDigits, majorTaken,
    majorDropped, minorRead, patchRead, List.head?_cons, beq_self_eq_true, Bool.and_true]
  rw [if_pos (by simpa using majorDigits.1)]

/-! ## Only the text up to the comma counts -/

namespace VersionSpelling

variable {spelling : VersionSpelling}

theorem IsSound.comma_not_mem (sound : spelling.IsSound) : ',' ∉ spelling.text := by
  have noDigit : isDigit ',' = false := by decide
  have absent {digits : Text} (areDigits : AreDigits digits) : ',' ∉ digits := by
    intro member
    rw [areDigits.2 _ member] at noDigit
    cases noDigit
  have absentBehind {sign : Char} {digits : Option Text} (signed : sign = '.' ∨ sign = 'p')
      (areDigits : ∀ given ∈ digits, AreDigits given) : ',' ∉ behindSign sign digits := by
    cases digits with
    | none => exact List.not_mem_nil
    | some given =>
      rw [behindSign, List.mem_cons, not_or]
      exact ⟨by rcases signed with rfl | rfl <;> decide, absent (areDigits given rfl)⟩
  simp only [text, List.mem_append, not_or]
  refine ⟨?_, absent sound.major, absentBehind (.inl rfl) sound.minor, absentBehind sound.sign sound.patch⟩
  rcases sound.mark with equal | equal <;> rw [equal] <;> decide

end VersionSpelling

theorem versionDigitsHere?_comma (text : Text) {digits : VersionDigits} (rest other : Text)
    (found : versionDigitsHere? (text ++ ',' :: rest) = some digits) :
    versionDigitsHere? (text ++ ',' :: other) = some digits := by
  obtain ⟨spelling, after, sound, digitsEqual, equal⟩ := versionDigitsHere?_eq_some_iff.mp found
  have absent : ',' ∉ '(' :: spelling.text := by
    rw [List.mem_cons, not_or]
    exact ⟨by decide, sound.comma_not_mem⟩
  obtain ⟨middle, rfl, behind⟩ := exists_split_of_not_mem absent equal.symm
  -- The comma of the signature is the first one of the text.
  obtain ⟨more, begun⟩ : ∃ more, middle ++ ',' :: other = ',' :: more := by
    cases middle with
    | nil => exact ⟨other, rfl⟩
    | cons first middle =>
      rw [List.cons_append, List.cons.injEq] at behind
      exact ⟨middle ++ ',' :: other, by rw [← behind.1]; rfl⟩
  refine versionDigitsHere?_eq_some_iff.mpr ⟨spelling, more, sound, digitsEqual, ?_⟩
  rw [List.append_assoc, begun]
  rfl

theorem versionDigits?_comma {text : Text} {digits : VersionDigits} (rest : Text)
    (found : versionDigits? (text ++ [',']) = some digits) : versionDigits? (text ++ ',' :: rest) = some digits := by
  induction text with
  | nil => cases found
  | cons character text inductionHypothesis =>
    rw [List.cons_append, versionDigits?] at found ⊢
    -- What is read here has ended before the comma, so that it is read here whatever follows that, or not at all.
    cases here : versionDigitsHere? (character :: (text ++ [','])) with
    | some other =>
      have again : versionDigitsHere? (character :: (text ++ ',' :: rest)) = some other :=
        versionDigitsHere?_comma (character :: text) [] rest here
      rw [here] at found
      rw [again]
      exact found
    | none =>
      rw [here] at found
      have none : versionDigitsHere? (character :: (text ++ ',' :: rest)) = none := by
        cases later : versionDigitsHere? (character :: (text ++ ',' :: rest)) with
        | none => rfl
        | some other =>
          have before : versionDigitsHere? (character :: (text ++ [','])) = some other :=
            versionDigitsHere?_comma (character :: text) rest [] later
          rw [here] at before
          cases before
      rw [none]
      exact inductionHypothesis found

theorem versionDigits?_append {front : Text} (absent : '(' ∉ front) (rest : Text) :
    versionDigits? (front ++ rest) = versionDigits? rest := by
  induction front with
  | nil => rfl
  | cons character front inductionHypothesis =>
    rw [List.mem_cons, not_or] at absent
    have none : versionDigitsHere? (character :: (front ++ rest)) = none := by
      unfold versionDigitsHere?
      split
      · next equal => exact absurd (List.cons.inj equal).1.symm absent.1
      · rfl
    rw [List.cons_append, versionDigits?, none]
    exact inductionHypothesis absent.2

/-- The version of an entry is that of its signature. -/
theorem parseVersion?_append {front signature : Text} {version : Version} (absent : '(' ∉ front) (rest : Text)
    (read : parseVersion? (signature ++ [',']) = some version) :
    parseVersion? (front ++ (signature ++ ',' :: rest)) = some version := by
  cases found : versionDigits? (signature ++ [',']) with
  | none => simp [parseVersion?, found] at read
  | some digits =>
    have same : versionDigits? (front ++ (signature ++ ',' :: rest)) = versionDigits? (signature ++ [',']) := by
      rw [versionDigits?_append absent, versionDigits?_comma rest found, found]
    rw [parseVersion?, same]
    exact read

theorem parseVersion?_of_isSound {spelling : VersionSpelling} (sound : spelling.IsSound) {version : Version}
    (major : entryNumber? spelling.digits.major = some version.major)
    (minor : optionalNumber? spelling.digits.minor = some version.minor)
    (patch : optionalNumber? spelling.digits.patch = some version.patch) (rest : Text) :
    parseVersion? ('(' :: (spelling.text ++ ',' :: rest)) = some version := by
  have here := versionDigitsHere?_eq_some_iff.mpr ⟨spelling, rest, sound, rfl, rfl⟩
  rw [parseVersion?, versionDigits?, here]
  simp [major, minor, patch]

/-- No number of a version that is read is above the limit. -/
theorem le_numberLimit_of_parseVersion? {line : Text} {version : Version} (read : parseVersion? line = some version) :
    version.major ≤ numberLimit ∧ version.minor ≤ numberLimit ∧ version.patch ≤ numberLimit := by
  have within {digits : Text} {number : Nat} (found : entryNumber? digits = some number) : number ≤ numberLimit := by
    rw [entryNumber?, naturalUpTo?, Option.filter_eq_some_iff] at found
    exact of_decide_eq_true found.2
  have optionalWithin {digits : Option Text} {number : Nat} (found : optionalNumber? digits = some number) :
      number ≤ numberLimit := by
    cases digits with
    | none =>
      cases found
      exact Nat.zero_le _
    | some given => exact within found
  simp only [parseVersion?, Option.bind_eq_bind, Option.bind_eq_some_iff] at read
  obtain ⟨digits, -, major, majorRead, minor, minorRead, patch, patchRead, equal⟩ := read
  cases equal
  exact ⟨within majorRead, optionalWithin minorRead, optionalWithin patchRead⟩

/-! ## To-do entries -/

theorem todoDigits?_append {front : Text} (absent : '(' ∉ front) (rest : Text) :
    todoDigits? (front ++ rest) = todoDigits? rest := by
  induction front with
  | nil => rfl
  | cons character front inductionHypothesis =>
    rw [List.mem_cons, not_or] at absent
    have none : todoDigitsHere? (character :: (front ++ rest)) = none := by
      cases found : after? "(ToDo#" (character :: (front ++ rest)) with
      | none =>
        rw [todoDigitsHere?, found]
        rfl
      | some behind =>
        have equal := after?_eq_some_iff.mp found
        exact absurd (List.cons.inj equal).1.symm absent.1
    rw [List.cons_append, todoDigits?, none]
    exact inductionHypothesis absent.2

theorem parseTodo?_append {front digits : Text} (absent : '(' ∉ front) (areDigits : AreDigits digits) (rest : Text) :
    parseTodo? (front ++ ("(ToDo#".toList ++ (digits ++ ',' :: rest))) = entryNumber? digits := by
  have comma : (',' :: rest).head?.any isDigit = false := rfl
  have taken := takeWhile_append_of_stop areDigits.2 comma
  have dropped := dropWhile_append_of_stop areDigits.2 comma
  have here : todoDigitsHere? ("(ToDo#".toList ++ (digits ++ ',' :: rest)) = some digits := by
    have nonempty : digits.isEmpty = false := List.isEmpty_eq_false_iff.mpr areDigits.1
    simp only [todoDigitsHere?, after?_append, Option.bind_eq_bind, Option.bind_some, taken, dropped, nonempty,
      List.head?_cons, beq_self_eq_true, Bool.not_false, Bool.and_self, if_true]
  have found : todoDigits? ("(ToDo#".toList ++ (digits ++ ',' :: rest)) = some digits := by
    rw [show "(ToDo#".toList = '(' :: "ToDo#".toList from rfl, List.cons_append] at here ⊢
    rw [todoDigits?, here]
  rw [parseTodo?, todoDigits?_append absent, found]
  rfl

end Masthead.Header

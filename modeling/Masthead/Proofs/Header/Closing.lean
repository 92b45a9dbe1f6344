import Mathlib.Order.Bounds.Basic
import Masthead.Proofs.Header.Bounds
import Masthead.Proofs.Header.Outcome

/-!
# Comments that a rule closes

The end of a header is looked for by reading on from its first separator. What is found is the last
of the separators that close the comment, and where none of them does, the end is a guess. A guessed
end is told from a real one afterwards, so only a comment that is closed is ever rendered anew.
-/

namespace Masthead.Header

section

variable {comment : Text} {lines : List Text}

/-! ## The last separator of a comment -/

/-- Whether a separator stands at a position, and nothing but lines of a header before it. -/
def EndsComment (comment : Text) (lines : List Text) (position : Nat) : Prop :=
  lines[position]?.any (isSeparator comment) = true ∧
    ∀ before < position, lines[before]?.any (isHeaderLine comment) = true

theorem not_endsComment_nil (position : Nat) : ¬ EndsComment comment [] position := by
  simp [EndsComment]

theorem endsComment_cons_zero {line : Text} {rest : List Text} :
    EndsComment comment (line :: rest) 0 ↔ isSeparator comment line = true := by
  simp [EndsComment]

theorem endsComment_cons_succ {line : Text} {rest : List Text} {position : Nat} :
    EndsComment comment (line :: rest) (position + 1) ↔
      isHeaderLine comment line = true ∧ EndsComment comment rest position := by
  simp only [EndsComment, Nat.forall_lt_succ_left, List.getElem?_cons_succ, List.getElem?_cons_zero,
    Option.any_some]
  exact and_left_comm

/-- A separator further down counts before the first line, if that line lets the comment go on. -/
theorem lastSeparator?_cons (comment line : Text) (rest : List Text) :
    lastSeparator? comment (line :: rest)
      = if isHeaderLine comment line then
          ((lastSeparator? comment rest).map (· + 1)).or (if isSeparator comment line then some 0 else none)
        else none := by
  rw [lastSeparator?, isHeaderLine]
  cases isSeparator comment line with
  | true => cases lastSeparator? comment rest <;> rfl
  | false => cases isCommentLine comment line <;> simp

theorem lastSeparator?_spec (comment : Text) (lines : List Text) :
    match lastSeparator? comment lines with
    | some last => IsGreatest {position | EndsComment comment lines position} last
    | none => ∀ position, ¬ EndsComment comment lines position := by
  induction lines with
  | nil => exact not_endsComment_nil
  | cons line rest inductionHypothesis =>
    rw [lastSeparator?_cons]
    by_cases headerLine : isHeaderLine comment line = true
    · rw [if_pos headerLine]
      cases later : lastSeparator? comment rest with
      | some last =>
        rw [later] at inductionHypothesis
        refine ⟨endsComment_cons_succ.mpr ⟨headerLine, inductionHypothesis.1⟩, ?_⟩
        rintro (_ | position) ends
        · exact Nat.zero_le _
        · exact Nat.succ_le_succ (inductionHypothesis.2 (endsComment_cons_succ.mp ends).2)
      | none =>
        rw [later] at inductionHypothesis
        cases separates : isSeparator comment line with
        | true =>
          refine ⟨endsComment_cons_zero.mpr separates, ?_⟩
          rintro (_ | position) ends
          · exact Nat.le_refl _
          · exact absurd (endsComment_cons_succ.mp ends).2 (inductionHypothesis position)
        | false =>
          rintro (_ | position) ends
          · rw [endsComment_cons_zero, separates] at ends
            cases ends
          · exact inductionHypothesis position (endsComment_cons_succ.mp ends).2
    · -- No comment goes on behind a line that belongs to no header.
      rw [if_neg headerLine]
      rintro (_ | position) ends
      · exact headerLine (by simp [isHeaderLine, endsComment_cons_zero.mp ends])
      · exact headerLine (endsComment_cons_succ.mp ends).1

/-! ## The bounds of a comment -/

/-- Whether the first separator stands at a position, near enough to the top. -/
structure Opens (comment : Text) (lines : List Text) (first : Nat) : Prop where
  nearTop : first < openingWindow
  rule : lines[first]?.any (isSeparator comment) = true
  clearAbove : ∀ before < first, lines[before]?.any (isSeparator comment) = false

/-- Whether a separator closes the comment that another one opens: it stands within the window, and
all lines between the two may stand inside a header. -/
structure Closes (comment : Text) (lines : List Text) (first last : Nat) : Prop where
  below : first < last
  within : last ≤ min (first + closingWindow) (lines.length - 1)
  rule : lines[last]?.any (isSeparator comment) = true
  inner : ∀ position, first < position → position < last → lines[position]?.any (isHeaderLine comment) = true

theorem findIdx?_eq_some_iff_opens {first : Nat} :
    (lines.take openingWindow).findIdx? (isSeparator comment) = some first ↔ Opens comment lines first := by
  rw [List.findIdx?_eq_some_iff_getElem]
  constructor
  · rintro ⟨inWindow, separates, clear⟩
    rw [List.length_take] at inWindow
    refine ⟨by omega, ?_, ?_⟩
    · have present : first < lines.length := by omega
      simpa [List.getElem?_eq_getElem present] using separates
    · intro before above
      have present : before < lines.length := by omega
      simpa [List.getElem?_eq_getElem present] using clear before above
  · rintro ⟨nearTop, rule, clear⟩
    obtain ⟨line, found, separates⟩ := (Option.any_eq_true _ _).mp rule
    obtain ⟨present, rfl⟩ := List.getElem?_eq_some_iff.mp found
    refine ⟨by rw [List.length_take]; omega, by simpa using separates, ?_⟩
    intro before above
    have abovePresent : before < lines.length := by omega
    simpa [List.getElem?_eq_getElem abovePresent] using clear before above

theorem Opens.lt_length {first : Nat} (opens : Opens comment lines first) : first < lines.length := by
  obtain ⟨line, found, -⟩ := (Option.any_eq_true _ _).mp opens.rule
  exact (List.getElem?_eq_some_iff.mp found).1

theorem endsComment_window_iff {first offset : Nat} :
    EndsComment comment ((lines.drop (first + 1)).take closingWindow) offset ↔
      Closes comment lines first (first + 1 + offset) := by
  -- Positions in the window are counted from the line behind the opening rule.
  have window (position : Nat) : ((lines.drop (first + 1)).take closingWindow)[position]?
      = if position < closingWindow then lines[first + 1 + position]? else none := by
    rw [List.getElem?_take, List.getElem?_drop]
  constructor
  · rintro ⟨rule, inner⟩
    obtain ⟨line, found, separates⟩ := (Option.any_eq_true _ _).mp rule
    rw [window] at found
    split at found
    · next near =>
      have present := (List.getElem?_eq_some_iff.mp found).1
      refine ⟨by omega, by omega, by rw [found]; exact separates, ?_⟩
      intro position below above
      have inside := inner (position - (first + 1)) (by omega)
      rw [window, if_pos (by omega)] at inside
      rwa [Nat.add_sub_cancel' below] at inside
    · cases found
  · rintro ⟨-, within, rule, inner⟩
    refine ⟨?_, fun before above => ?_⟩
    · rw [window, if_pos (by omega)]
      exact rule
    · rw [window, if_pos (by omega)]
      exact inner _ (by omega) (by omega)

/-- What is found below the first separator: the last position that closes the comment, or a guess
if there is none. -/
theorem findBounds_of_opens {first : Nat} (opens : Opens comment lines first) :
    ∃ last, findBounds comment lines = some ⟨first, last⟩ ∧
      (IsGreatest {position | Closes comment lines first position} last ∨
        (∀ position, ¬ Closes comment lines first position) ∧ last = min (first + fallbackSpan) (lines.length - 1)) := by
  have found := lastSeparator?_spec comment ((lines.drop (first + 1)).take closingWindow)
  simp only [findBounds, findIdx?_eq_some_iff_opens.mpr opens, Option.map_some]
  -- Positions that close the comment are offsets in the window below the first separator.
  have offset_of_closes {position : Nat} (closes : Closes comment lines first position) :
      ∃ offset, position = first + 1 + offset ∧ EndsComment comment ((lines.drop (first + 1)).take closingWindow) offset := by
    obtain ⟨offset, rfl⟩ := Nat.exists_eq_add_of_le (Nat.succ_le_of_lt closes.below)
    exact ⟨offset, rfl, endsComment_window_iff.mpr closes⟩
  cases last : lastSeparator? comment ((lines.drop (first + 1)).take closingWindow) with
  | some offset =>
    rw [last] at found
    refine ⟨first + 1 + offset, rfl, .inl ⟨endsComment_window_iff.mp found.1, ?_⟩⟩
    intro position closes
    obtain ⟨other, rfl, ends⟩ := offset_of_closes closes
    exact Nat.add_le_add_left (found.2 ends) _
  | none =>
    rw [last] at found
    refine ⟨_, rfl, .inr ⟨?_, rfl⟩⟩
    intro position closes
    obtain ⟨other, -, ends⟩ := offset_of_closes closes
    exact found other ends

theorem opens_of_findBounds {bounds : Bounds} (found : findBounds comment lines = some bounds) :
    Opens comment lines bounds.first := by
  obtain ⟨first, opened, rfl⟩ := Option.map_eq_some_iff.mp found
  rw [findIdx?_eq_some_iff_opens] at opened
  dsimp only
  split <;> exact opened

/-- What the bounds of a header are: they begin at the first separator, which is near the top, and they
end at the last separator that closes the comment, or where a guess puts the end if none does. -/
structure Encloses (comment : Text) (lines : List Text) (bounds : Bounds) : Prop where
  opens : Opens comment lines bounds.first
  ends : IsGreatest {last | Closes comment lines bounds.first last} bounds.last ∨
    (∀ last, ¬ Closes comment lines bounds.first last) ∧
      bounds.last = min (bounds.first + fallbackSpan) (lines.length - 1)

theorem findBounds_eq_none_iff :
    findBounds comment lines = none ↔ ∀ line ∈ lines.take openingWindow, isSeparator comment line = false := by
  rw [findBounds, Option.map_eq_none_iff, List.findIdx?_eq_none_iff]

theorem findBounds_eq_some_iff {bounds : Bounds} :
    findBounds comment lines = some bounds ↔ Encloses comment lines bounds := by
  constructor
  · intro found
    have opens := opens_of_findBounds found
    obtain ⟨last, again, ends⟩ := findBounds_of_opens opens
    obtain rfl : bounds.last = last := congrArg Bounds.last (Option.some.inj (found.symm.trans again))
    exact ⟨opens, ends⟩
  · rintro ⟨opens, ends⟩
    obtain ⟨last, found, again⟩ := findBounds_of_opens opens
    -- The end is the greatest that closes the comment, or the guess where none does: in either case there is only one.
    have same : bounds.last = last := by
      rcases ends with greatest | ⟨nowhere, guess⟩
      · rcases again with greatestAgain | ⟨nowhere, -⟩
        · exact greatest.unique greatestAgain
        · exact absurd greatest.1 (nowhere _)
      · rcases again with greatest | ⟨-, guessAgain⟩
        · exact absurd greatest.1 (nowhere _)
        · exact guess.trans guessAgain.symm
    rw [found, ← same]

/-! ## Bounds that are no guess -/

theorem Closes.isTerminated {first last : Nat} (closes : Closes comment lines first last)
    (opens : Opens comment lines first) : Engine.isTerminated comment lines ⟨first, last⟩ = true := by
  obtain ⟨below, within, rule, inner⟩ := closes
  have present := opens.lt_length
  have headerLines : ∀ line ∈ Bounds.slice ⟨first, last⟩ lines, isHeaderLine comment line = true := by
    intro line member
    obtain ⟨offset, found⟩ := List.mem_iff_getElem?.mp member
    rw [Bounds.slice, List.getElem?_drop, List.getElem?_take] at found
    split at found
    · next above =>
      have ofRule (rule : lines[first + offset]?.any (isSeparator comment) = true) : isHeaderLine comment line = true := by
        rw [found] at rule
        simp [isHeaderLine, show isSeparator comment line = true from rule]
      -- The lines are the two rules and those between them.
      rcases Nat.eq_zero_or_pos offset with rfl | behind
      · exact ofRule opens.rule
      · rcases Nat.lt_or_ge (first + offset) last with before | reached
        · have inside := inner (first + offset) (by omega) before
          rwa [found] at inside
        · have here : first + offset = last := by dsimp only at above; omega
          exact ofRule (here ▸ rule)
    · cases found
  simp only [Engine.isTerminated, isCommentBlock, Bool.and_eq_true, decide_eq_true_eq, List.all_eq_true]
  exact ⟨⟨by simpa using Nat.ne_of_lt below, rule⟩, ⟨by omega, by omega⟩, headerLines⟩

theorem closes_of_isTerminated {first last : Nat} (terminated : Engine.isTerminated comment lines ⟨first, last⟩ = true)
    (below : first ≤ last) (near : last ≤ first + closingWindow) : Closes comment lines first last := by
  obtain ⟨-, present, headerLines⟩ := Engine.of_isTerminated terminated
  simp only [Engine.isTerminated, Bool.and_eq_true, decide_eq_true_eq] at terminated
  obtain ⟨⟨distinct, rule⟩, -⟩ := terminated
  dsimp only at present
  refine ⟨Nat.lt_of_le_of_ne below distinct, by omega, rule, ?_⟩
  intro position behind before
  have inside : position < lines.length := by omega
  rw [List.getElem?_eq_getElem inside, Option.any_some]
  refine headerLines _ (List.mem_iff_getElem?.mpr ⟨position - first, ?_⟩)
  rw [Bounds.slice, List.getElem?_drop, List.getElem?_take, if_pos (by dsimp only; omega)]
  rw [Nat.add_sub_cancel' (Nat.le_of_lt behind), List.getElem?_eq_getElem inside]

/-- The bounds that are found enclose a closed comment exactly if some separator closes it, and then
they reach to the last that does. -/
theorem isTerminated_iff {bounds : Bounds} (found : findBounds comment lines = some bounds) :
    (Engine.isTerminated comment lines bounds = true ↔ ∃ last, Closes comment lines bounds.first last) ∧
      (Engine.isTerminated comment lines bounds = true →
        IsGreatest {last | Closes comment lines bounds.first last} bounds.last) := by
  obtain ⟨first, last⟩ := bounds
  obtain ⟨opens, greatest | ⟨nowhere, guess⟩⟩ := findBounds_eq_some_iff.mp found
  · exact ⟨⟨fun _ => ⟨last, greatest.1⟩, fun _ => greatest.1.isTerminated opens⟩, fun _ => greatest⟩
  · -- A guess that passed for a real end would close the comment.
    have refused : ¬ Engine.isTerminated comment lines ⟨first, last⟩ = true := by
      intro terminated
      have present := opens.lt_length
      have shorter : fallbackSpan ≤ closingWindow := by decide
      dsimp only at present guess
      have closes : Closes comment lines first last := closes_of_isTerminated terminated (by omega) (by omega)
      exact nowhere last closes
    exact ⟨⟨fun terminated => absurd terminated refused, fun ⟨position, closes⟩ => absurd closes (nowhere position)⟩,
      fun terminated => absurd terminated refused⟩

end

/-! ## Rendering anew -/

namespace Engine

theorem locate_of_hasHeader {config : Config} {context : FileContext} {document : Document}
    (present : hasHeader config context document = true) :
    locate config context document = findBounds (commentOf config context) document.lines :=
  if_pos present

/-- A header is rendered anew exactly if it is there and a separator closes the comment that the
first separator opens, and then up to the last one that does. Otherwise a header that is there is
left as it is, whatever has been guessed of its end. -/
theorem update_eq_updated_iff (engine : Engine) (config : Config) (context : FileContext) (document : Document) :
    let comment := commentOf config context
    let outcome := engine.update config context document
    ((∃ bounds lines, outcome = .updated bounds lines) ↔
      hasHeader config context document = true ∧
        ∃ first, Opens comment document.lines first ∧ ∃ last, Closes comment document.lines first last) ∧
    (∀ bounds lines, outcome = .updated bounds lines →
      Opens comment document.lines bounds.first ∧
        IsGreatest {last | Closes comment document.lines bounds.first last} bounds.last) ∧
    (hasHeader config context document = true →
      (∀ first, Opens comment document.lines first → ∀ last, ¬ Closes comment document.lines first last) →
        outcome.apply document = document) := by
  intro comment outcome
  -- Whatever is updated has been found and is terminated.
  have found_of_updated {bounds : Bounds} {lines : List Text} (updated : outcome = .updated bounds lines) :
      hasHeader config context document = true ∧ findBounds comment document.lines = some bounds ∧
        isTerminated comment document.lines bounds = true := by
    obtain ⟨present, found, terminated, -⟩ := of_update_eq_updated updated
    rw [locate_of_hasHeader present] at found
    exact ⟨present, found, terminated⟩
  refine ⟨⟨?_, ?_⟩, ?_, ?_⟩
  · rintro ⟨bounds, lines, updated⟩
    obtain ⟨present, found, terminated⟩ := found_of_updated updated
    exact ⟨present, bounds.first, opens_of_findBounds found, (isTerminated_iff found).1.mp terminated⟩
  · rintro ⟨present, first, opens, last, closes⟩
    obtain ⟨other, found, -⟩ := findBounds_of_opens opens
    have terminated := (isTerminated_iff found).1.mpr ⟨last, closes⟩
    exact ⟨_, _, update_eq_updated ((locate_of_hasHeader present).trans found) terminated⟩
  · intro bounds lines updated
    obtain ⟨-, found, terminated⟩ := found_of_updated updated
    exact ⟨opens_of_findBounds found, (isTerminated_iff found).2 terminated⟩
  · intro present nowhere
    -- A header that is there is left alone unless its bounds are terminated, which takes a rule that closes it.
    rcases update_cases engine config context document with
      ⟨absent, -⟩ | ⟨-, -, skipped⟩ | ⟨bounds, located, ⟨terminated, -⟩ | ⟨-, skipped⟩⟩
    · rw [present] at absent
      cases absent
    · rw [show outcome = _ from skipped]
      rfl
    · rw [locate_of_hasHeader present] at located
      obtain ⟨last, closes⟩ := (isTerminated_iff located).1.mp terminated
      exact absurd closes (nowhere bounds.first (opens_of_findBounds located) last)
    · rw [show outcome = _ from skipped]
      rfl

end Engine

end Masthead.Header

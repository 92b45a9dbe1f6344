import Masthead.Placeholder
import Masthead.Proofs.Text.Affix
import Masthead.Proofs.Text.Pieces

/-!
# Placeholders are filled each by itself

A placeholder has its only dollar sign at the beginning, so none reaches over the dollar sign of another one. A
template can then be cut before each placeholder, and filling it fills the parts. What a value says is never read as
a part of the template.
-/

namespace Masthead

open Text

namespace Placeholder

theorem name?_of_ne {character : Char} (rest : Text) (plain : character ≠ '$') :
    name? (character :: rest) = none := by
  unfold name?
  split
  · next equal => exact absurd (List.cons.inj equal).1 plain
  · rfl

theorem name?_written_append {name : Text} (rest : Text) (nonempty : name ≠ [])
    (word : name.all isWord = true) : name? (written name ++ rest) = some name := by
  have close : ('\x7d' :: rest).head?.any isWord = false := by
    show isWord '\x7d' = false
    decide
  have taken := takeWhile_append_of_stop (List.all_eq_true.mp word) close
  have dropped := dropWhile_append_of_stop (List.all_eq_true.mp word) close
  simp [written, name?, taken, dropped, nonempty]

/-- A name is read exactly where its placeholder is written. -/
theorem name?_eq_some_iff {text name : Text} :
    name? text = some name ↔ name ≠ [] ∧ name.all isWord = true ∧ written name <+: text := by
  constructor
  · intro found
    unfold name? at found
    split at found
    · next rest =>
      dsimp only at found
      split at found
      · next closed =>
        cases found
        -- Behind the word characters stands the brace that closes the placeholder.
        obtain ⟨tail, dropped⟩ := List.head?_eq_some_iff.mp closed.2
        refine ⟨closed.1, List.all_takeWhile, tail, ?_⟩
        have split := List.takeWhile_append_dropWhile (p := isWord) (l := rest)
        rw [dropped] at split
        rw [written, List.cons_append, List.cons_append, List.append_assoc]
        exact congrArg ('$' :: '\x7b' :: ·) split
      · cases found
    · cases found
  · rintro ⟨nonempty, word, rest, rfl⟩
    exact name?_written_append rest nonempty word

theorem all_isWord_of_name? {text name : Text} (found : name? text = some name) : name.all isWord = true :=
  (name?_eq_some_iff.mp found).2.1

theorem fill_nil (value? : Text → Option Text) : fill value? [] = [] := rfl

theorem pieces_cons {character : Char} (rest : Text) (plain : character ≠ '$') :
    pieces (character :: rest) = .plain character :: pieces rest :=
  cut_cons_of_none (by rw [read?, name?_of_ne rest plain, Option.map_none])

theorem fill_cons (value? : Text → Option Text) {character : Char} (rest : Text) (plain : character ≠ '$') :
    fill value? (character :: rest) = character :: fill value? rest := by
  rw [fill, pieces_cons rest plain, render_cons_plain]
  rfl

theorem occurs_eq_false {text : Text} (absent : '$' ∉ text) : occurs text = false := by
  induction text with
  | nil => rfl
  | cons character rest inductionHypothesis =>
    simp only [List.mem_cons, not_or] at absent
    rw [occurs, pieces_cons rest (Ne.symm absent.1)]
    exact inductionHypothesis absent.2

/-- What stands before the first dollar sign is kept. -/
theorem fill_plain_append (value? : Text → Option Text) {plain : Text} (rest : Text) (absent : '$' ∉ plain) :
    fill value? (plain ++ rest) = plain ++ fill value? rest := by
  induction plain with
  | nil => rfl
  | cons character plain inductionHypothesis =>
    simp only [List.mem_cons, not_or] at absent
    rw [List.cons_append, fill_cons value? _ (Ne.symm absent.1), inductionHypothesis absent.2,
      List.cons_append]

/-- A placeholder at the front gives its value. -/
theorem fill_written_append (value? : Text → Option Text) {name : Text} (rest : Text) (nonempty : name ≠ [])
    (word : name.all isWord = true) :
    fill value? (written name ++ rest) = (value? name).getD (written name) ++ fill value? rest := by
  have found : read? (written name ++ rest) = some (name, (written name).length) := by
    rw [read?, name?_written_append rest nonempty word, Option.map_some]
  have pieced : pieces (written name ++ rest) = .token name :: pieces rest :=
    cut_append_of_read? (List.cons_ne_nil _ _) found
  rw [fill, pieced, render_cons_token]
  rfl

/-! ## Cutting before a dollar sign -/

theorem not_mem_tail_written {name : Text} (word : name.all isWord = true) : '$' ∉ (written name).tail := by
  have noWord : isWord '$' = false := by decide
  rw [written, List.tail_cons, List.mem_cons, List.mem_append, List.mem_singleton]
  rintro (equal | inside | equal)
  · cases equal
  · rw [List.all_eq_true.mp word _ inside] at noWord
    cases noWord
  · cases equal

/-- A placeholder that begins before a dollar sign ends before it. -/
theorem written_prefix_append_iff {name rest back : Text} (word : name.all isWord = true) (nonempty : rest ≠ [])
    (dollar : back.head? = some '$') : written name <+: rest ++ back ↔ written name <+: rest := by
  refine ⟨fun begins => ?_, fun begins => begins.trans (List.prefix_append _ _)⟩
  rcases List.prefix_or_prefix_of_prefix begins (List.prefix_append rest back) with within | ⟨more, whole⟩
  · exact within
  · rw [← whole, List.prefix_append_right_inj] at begins
    cases more with
    | nil => exact ⟨[], by simpa using whole.symm⟩
    | cons first more =>
      -- The placeholder would have a second dollar sign.
      obtain ⟨tail, rfl⟩ := List.head?_eq_some_iff.mp dollar
      obtain ⟨start, others, rfl⟩ := List.exists_cons_of_ne_nil nonempty
      refine absurd ?_ (not_mem_tail_written word)
      rw [← whole, List.cons_append, List.tail_cons, (List.cons_prefix_cons.mp begins).1]
      exact List.mem_append_right _ List.mem_cons_self

theorem readsWithin_of_dollar (front : Text) {back : Text} (dollar : back.head? = some '$') :
    ReadsWithin read? front back := by
  intro rest _ nonempty
  constructor
  · have same : name? (rest ++ back) = name? rest := by
      refine Option.ext fun name => ?_
      rw [name?_eq_some_iff, name?_eq_some_iff]
      exact and_congr_right fun _ => and_congr_right fun word => written_prefix_append_iff word nonempty dollar
    rw [read?, read?, same]
  · intro name size read
    obtain ⟨found, named, equal⟩ := Option.map_eq_some_iff.mp read
    cases equal
    exact (name?_eq_some_iff.mp named).2.2.length_le

theorem fill_append (value? : Text → Option Text) (front : Text) {back : Text} (dollar : back.head? = some '$') :
    fill value? (front ++ back) = fill value? front ++ fill value? back := by
  rw [fill, pieces, cut_append (readsWithin_of_dollar front dollar), render_append]
  rfl

theorem occurs_iff {text : Text} :
    occurs text = true ↔
      ∃ before name after, name ≠ [] ∧ name.all isWord = true ∧ text = before ++ (written name ++ after) := by
  have found : occurs text = true ↔ ¬ tokens (pieces text) = [] := by
    rw [occurs, Bool.not_eq_true', List.isEmpty_eq_false_iff]
  rw [found, pieces, tokens_cut_eq_nil_iff]
  constructor
  · intro somewhere
    push Not at somewhere
    obtain ⟨rest, ⟨before, split⟩, -, read⟩ := somewhere
    -- Somewhere a name can be read, and there its placeholder is written.
    obtain ⟨⟨name, size⟩, read⟩ := Option.ne_none_iff_exists'.mp read
    obtain ⟨found, named, -⟩ := Option.map_eq_some_iff.mp read
    obtain ⟨nonempty, word, after, begins⟩ := name?_eq_some_iff.mp named
    exact ⟨before, found, after, nonempty, word, by rw [begins, split]⟩
  · rintro ⟨before, name, after, nonempty, word, rfl⟩ nowhere
    have nothing := nowhere _ (List.suffix_append before _) (List.cons_ne_nil _ _)
    rw [read?, name?_written_append after nonempty word] at nothing
    cases nothing

/-- Filling puts a value for each placeholder that has one, and leaves everything else, whatever stands around the
placeholder and whatever its value says. -/
theorem fill_each_once (value? : Text → Option Text) :
    (∀ before name after : Text, name ≠ [] → name.all isWord = true →
      fill value? (before ++ (written name ++ after))
        = fill value? before ++ ((value? name).getD (written name) ++ fill value? after)) ∧
      ∀ text : Text,
        (occurs text = true ↔
          ∃ before name after, name ≠ [] ∧ name.all isWord = true ∧ text = before ++ (written name ++ after)) ∧
        (occurs text = false → fill value? text = text) := by
  refine ⟨?_, fun text => ⟨occurs_iff, ?_⟩⟩
  · intro before name after nonempty word
    rw [fill_append value? before rfl, fill_written_append value? after nonempty word]
  · intro absent
    rw [occurs, Bool.not_eq_false', List.isEmpty_iff] at absent
    exact render_cut_of_tokens_eq_nil _ absent

/-- A value completes a placeholder with the text around it, and that one is not filled. -/
theorem fill_each_once_completing :
    let value? : Text → Option Text := fun name => valueOf? name [("a", "b"), ("b", "deep")]
    fill value? "$\x7b$\x7ba\x7d\x7d" = "$\x7bb\x7d".toList ∧ occurs "$\x7bb\x7d" = true ∧
      occurs "$\x7b\x7d $b \x7bb\x7d" = false ∧
      fill value? "$\x7b\x7d $b \x7bb\x7d" = "$\x7b\x7d $b \x7bb\x7d".toList := by
  intro value?
  obtain ⟨replaced, kept⟩ := fill_each_once value?
  have absent : occurs "$\x7b\x7d $b \x7bb\x7d" = false := by decide
  have filled := replaced "$\x7b" "a" "\x7d" (by decide) (by decide)
  refine ⟨filled.trans ?_, by decide, absent, (kept _).2 absent⟩
  decide

end Placeholder

end Masthead

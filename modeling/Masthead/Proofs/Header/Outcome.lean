import Masthead.Header.Engine

/-!
# What an operation can do

The outcomes of inserting a header and of rendering it anew, each with everything that has been
checked before. Whatever is said about an edit follows from these cases.
-/

namespace Masthead.Header.Engine

variable (engine : Engine) (config : Config) (context : FileContext) (document : Document)

theorem insert_cases :
    (hasHeader config context document = true ∧ engine.insert config context document = .skipped .alreadyPresent) ∨
      hasHeader config context document = false ∧
        (((engine.render config context).any (isCommentRule (commentOf config context)) = false ∧
            engine.insert config context document = .skipped .unlocatable) ∨
          ((engine.render config context).any (isCommentRule (commentOf config context)) = true ∧
            engine.insert config context document = .inserted (opening config context document.lines).1
              ((opening config context document.lines).2 ++ engine.render config context
                ++ spacing document.lines (opening config context document.lines).1) none)) := by
  cases present : hasHeader config context document with
  | true => exact .inl ⟨rfl, by simp only [insert, present]; rfl⟩
  | false =>
    cases ruled : (engine.render config context).any (isCommentRule (commentOf config context)) with
    | false => exact .inr ⟨rfl, .inl ⟨rfl, by simp only [insert, present, ruled]; rfl⟩⟩
    | true => exact .inr ⟨rfl, .inr ⟨rfl, by simp only [insert, present, ruled]; rfl⟩⟩

/-- The header that takes the place of the one within bounds. -/
def rewritten (bounds : Bounds) : List Text :=
  (Narrative.extract (commentOf config context) config.extractionSentinels
    (bounds.slice document.lines)).mergeInto (commentOf config context) (engine.render config context)

theorem update_cases :
    (hasHeader config context document = false ∧
        engine.update config context document = asUpdate (engine.insert config context document)) ∨
      (hasHeader config context document = true ∧ locate config context document = none ∧
        engine.update config context document = .skipped .notFound) ∨
      ∃ bounds, locate config context document = some bounds ∧
        ((isTerminated (commentOf config context) document.lines bounds = true ∧
            engine.update config context document = .updated bounds (engine.rewritten config context document bounds)) ∨
          (isTerminated (commentOf config context) document.lines bounds = false ∧
            engine.update config context document = .skipped .unterminated)) := by
  cases present : hasHeader config context document with
  | false => exact .inl ⟨rfl, by simp only [update, present]; rfl⟩
  | true =>
    cases found : locate config context document with
    | none => exact .inr (.inl ⟨rfl, rfl, by simp only [update, present, found]; rfl⟩)
    | some bounds =>
      refine .inr (.inr ⟨bounds, rfl, ?_⟩)
      cases terminated : isTerminated (commentOf config context) document.lines bounds with
      | true => exact .inl ⟨rfl, by simp only [update, present, found, terminated]; rfl⟩
      | false => exact .inr ⟨rfl, by simp only [update, present, found, terminated]; rfl⟩

variable {engine config context document}

theorem hasHeader_of_locate {bounds : Bounds} (found : locate config context document = some bounds) :
    hasHeader config context document = true := by
  rw [locate, Header.locate] at found
  split at found
  · next present => exact present
  · cases found

/-- A header that a rule closes is rendered anew within its bounds. -/
theorem update_eq_updated {bounds : Bounds} (found : locate config context document = some bounds)
    (terminated : isTerminated (commentOf config context) document.lines bounds = true) :
    engine.update config context document = .updated bounds (engine.rewritten config context document bounds) := by
  simp only [update, hasHeader_of_locate found, found, terminated]
  rfl

theorem of_isChange_insert (changed : (engine.insert config context document).isChange = true) :
    hasHeader config context document = false ∧
      (engine.render config context).any (isCommentRule (commentOf config context)) = true ∧
      engine.insert config context document = .inserted (opening config context document.lines).1
        ((opening config context document.lines).2 ++ engine.render config context
          ++ spacing document.lines (opening config context document.lines).1) none := by
  rcases insert_cases engine config context document with ⟨-, skipped⟩ | ⟨absent, ⟨-, skipped⟩ | ⟨ruled, inserted⟩⟩
  · rw [skipped] at changed
    cases changed
  · rw [skipped] at changed
    cases changed
  · exact ⟨absent, ruled, inserted⟩

theorem isChange_asUpdate (outcome : Outcome) : (asUpdate outcome).isChange = outcome.isChange := by
  cases outcome <;> rfl

theorem apply_asUpdate (outcome : Outcome) (document : Document) :
    (asUpdate outcome).apply document = outcome.apply document := by
  cases outcome <;> rfl

/-- An edit puts a header in where there is none, or renders anew the one that a rule closes. -/
theorem isChange_cases {edit : Outcome}
    (made : edit = engine.insert config context document ∨ edit = engine.update config context document)
    (changed : edit.isChange = true) :
    (hasHeader config context document = false ∧
        (engine.render config context).any (isCommentRule (commentOf config context)) = true ∧
        ∃ notice, edit = .inserted (opening config context document.lines).1
          ((opening config context document.lines).2 ++ engine.render config context
            ++ spacing document.lines (opening config context document.lines).1) notice) ∨
      ∃ bounds, locate config context document = some bounds ∧
        isTerminated (commentOf config context) document.lines bounds = true ∧
        edit = .updated bounds (engine.rewritten config context document bounds) := by
  rcases made with rfl | rfl
  · obtain ⟨absent, ruled, inserted⟩ := of_isChange_insert changed
    exact .inl ⟨absent, ruled, none, inserted⟩
  · rcases update_cases engine config context document with
      ⟨absent, asInsert⟩ | ⟨-, -, skipped⟩ | ⟨bounds, found, ⟨terminated, updated⟩ | ⟨-, skipped⟩⟩
    · rw [asInsert, isChange_asUpdate] at changed
      obtain ⟨-, ruled, inserted⟩ := of_isChange_insert changed
      exact .inl ⟨absent, ruled, some .notFound, by rw [asInsert, inserted]; rfl⟩
    · rw [skipped] at changed
      cases changed
    · exact .inr ⟨bounds, found, terminated, updated⟩
    · rw [skipped] at changed
      cases changed

/-- Only a header that a rule closes is rendered anew. -/
theorem of_update_eq_updated {bounds : Bounds} {lines : List Text}
    (updated : engine.update config context document = .updated bounds lines) :
    hasHeader config context document = true ∧ locate config context document = some bounds ∧
      isTerminated (commentOf config context) document.lines bounds = true ∧
      lines = engine.rewritten config context document bounds := by
  rcases isChange_cases (.inr updated.symm) rfl with ⟨-, -, notice, inserted⟩ | ⟨other, found, terminated, again⟩
  · cases inserted
  · cases again
    exact ⟨hasHeader_of_locate found, found, terminated, rfl⟩

end Masthead.Header.Engine

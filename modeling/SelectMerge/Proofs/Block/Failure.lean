import SelectMerge.Proofs.Block.Folding
import SelectMerge.Proofs.Block.OrderedMerge

/-!
# Merges that fail

A merge fails for the way its target is kept or for its schema (`Block.refusal?`), and finds out
before it changes anything: an action is refused and leaves the target as it is, or is done
(`perform_cases`). So a call that fails shows nowhere: not in what is seen of the target (`View`),
and not in what later calls answer (`watch_of_error`). All calls of a run that fail may be left out
of it (`watch_effective`).
-/

namespace SelectMerge

namespace Block

/-! ## Refusals -/

/-- Why an action is refused, if it is. -/
def refusal? (b : Block) : Action → Option MergeError
  | .mergeUnordered source _ =>
    if b.isOrdered then some (.strategyMismatch "unordered merge into an ordered block")
    else if b.schema.isCompatible source.schema then none
    else some (.schemaMismatch b.schema.text source.schema.text)
  | .mergeOrdered source _ =>
    if !b.isOrdered then some (.strategyMismatch "ordered merge into a block without ordering")
    else if b.schema.isCompatible source.schema then none
    else some (.schemaMismatch b.schema.text source.schema.text)
  | .settle => none

variable {b : Block} {action : Action} {e : MergeError}

theorem mergeUnordered_cases (b source : Block) (bound : Nat) :
    (∃ e, b.refusal? (.mergeUnordered source bound) = some e ∧
        b.mergeUnordered source bound = (.error e, b)) ∨
      b.refusal? (.mergeUnordered source bound) = none ∧
        ∃ tally b', b.mergeUnordered source bound = (.ok tally, b') := by
  by_cases hb : b.isOrdered
  · exact .inl ⟨_, by simp [refusal?, hb], mergeUnordered_of_isOrdered hb bound⟩
  by_cases hc : b.schema.isCompatible source.schema
  · exact .inr ⟨by simp [refusal?, hb, hc], exists_mergeUnordered hb hc bound⟩
  · exact .inl ⟨_, by simp [refusal?, hb, hc], mergeUnordered_of_not_isCompatible hb hc bound⟩

theorem mergeOrdered_cases (b source : Block) (bound : Nat) :
    (∃ e, b.refusal? (.mergeOrdered source bound) = some e ∧
        b.mergeOrdered source bound = (.error e, b)) ∨
      b.refusal? (.mergeOrdered source bound) = none ∧
        ∃ tally b', b.mergeOrdered source bound = (.ok tally, b') := by
  by_cases hb : b.isOrdered
  · by_cases hc : b.schema.isCompatible source.schema
    · exact .inr ⟨by simp [refusal?, hb, hc], exists_mergeOrdered hb hc bound⟩
    · exact .inl ⟨_, by simp [refusal?, hb, hc], mergeOrdered_of_not_isCompatible hb hc bound⟩
  · exact .inl ⟨_, by simp [refusal?, hb], mergeOrdered_of_not_isOrdered hb bound⟩

/-- An action fails, and leaves the target as it is, or is done. -/
theorem perform_cases (b : Block) (action : Action) :
    (∃ e, b.refusal? action = some e ∧ b.perform action = (.error e, b)) ∨
      b.refusal? action = none ∧ ∃ answer b', b.perform action = (.ok answer, b') := by
  cases action with
  | mergeUnordered source bound =>
    rcases mergeUnordered_cases b source bound with ⟨e, he, hmerge⟩ | ⟨he, tally, b', hmerge⟩
    · exact .inl ⟨e, he, by simp only [perform, hmerge, Except.map]⟩
    · exact .inr ⟨he, some tally, b', by simp only [perform, hmerge, Except.map]⟩
  | mergeOrdered source bound =>
    rcases mergeOrdered_cases b source bound with ⟨e, he, hmerge⟩ | ⟨he, tally, b', hmerge⟩
    · exact .inl ⟨e, he, by simp only [perform, hmerge, Except.map]⟩
    · exact .inr ⟨he, some tally, b', by simp only [perform, hmerge, Except.map]⟩
  | settle => exact .inr ⟨rfl, none, b.settle, rfl⟩

theorem perform_eq_of_error (h : (b.perform action).1 = .error e) :
    b.refusal? action = some e ∧ (b.perform action).2 = b := by
  rcases perform_cases b action with ⟨e', he, hperform⟩ | ⟨-, answer, b', hperform⟩
  · rw [hperform] at h ⊢
    obtain rfl := Except.error.inj h
    exact ⟨he, rfl⟩
  · rw [hperform] at h
    cases h

theorem refusal?_cases (h : b.refusal? action = some e) :
    (∃ left right, e = .schemaMismatch left right) ∨ ∃ what, e = .strategyMismatch what := by
  cases action with
  | mergeUnordered source bound | mergeOrdered source bound =>
    simp only [refusal?] at h
    split at h
    · exact .inr ⟨_, (Option.some.inj h).symm⟩
    · split at h
      · cases h
      · exact .inl ⟨_, _, (Option.some.inj h).symm⟩
  | settle => cases h

/-! ## What is seen of a target -/

/-- What can be seen of a block. -/
structure View where
  schema : Schema
  length : Nat
  isOrdered : Bool
  order? : Option RowOrder
  output : List Row

def view (b : Block) : View := ⟨b.schema, b.length, b.isOrdered, b.order?, b.output⟩

/-- An answer to an action, and what is seen of the target after it. -/
abbrev Sight := Except MergeError (Option MergeTally) × View

/-- What is seen along a run of actions. -/
def watch : List Action → Block → List Sight
  | [], _ => []
  | action :: actions, b =>
    ((b.perform action).1, (b.perform action).2.view) :: watch actions (b.perform action).2

/-- The actions of a run that do not fail in it. -/
def effective : List Action → Block → List Action
  | [], _ => []
  | action :: actions, b =>
    if (b.perform action).1.isOk then action :: effective actions (b.perform action).2
    else effective actions (b.perform action).2

theorem watch_effective (actions : List Action) (b : Block) :
    watch (effective actions b) b = (watch actions b).filter (·.1.isOk) := by
  induction actions generalizing b with
  | nil => rfl
  | cons action actions ih =>
    rw [effective, watch]
    rcases perform_cases b action with ⟨e, -, hperform⟩ | ⟨-, answer, b', hperform⟩
    · simpa [hperform, Except.isOk, Except.toBool] using ih b
    · simpa [hperform, watch, Except.isOk, Except.toBool] using ih b'

theorem performAll_effective (actions : List Action) (b : Block) :
    (performAll (effective actions b) b).2 = (performAll actions b).2 := by
  induction actions generalizing b with
  | nil => rfl
  | cons action actions ih =>
    rw [effective, performAll_cons]
    rcases perform_cases b action with ⟨e, -, hperform⟩ | ⟨-, answer, b', hperform⟩
    · simpa [hperform, Except.isOk, Except.toBool] using ih b
    · simpa [hperform, performAll_cons, Except.isOk, Except.toBool] using ih b'

/-- A failing merge is refused for one of two reasons. Nothing that can be seen of the target
changes, and whatever is done later is answered and shows as if the merge had not been tried. -/
theorem watch_of_error (h : (b.perform action).1 = .error e) (later : List Action) :
    ((∃ left right, e = .schemaMismatch left right) ∨ ∃ what, e = .strategyMismatch what) ∧
      (b.perform action).2.view = b.view ∧
      watch later (b.perform action).2 = watch later b := by
  obtain ⟨hrefusal, hsame⟩ := perform_eq_of_error h
  rw [hsame]
  exact ⟨refusal?_cases hrefusal, rfl, rfl⟩

/-! ### Scores -/

/-- Scores under a type that no score in numbers is compatible with. -/
def gradedScores : Block :=
  .ofRows (.ofColumns [("score", .one .string), ("tag", .one .int)]) [[.string "A", .int 7]]

/-- What is done to the settled scores after a merge with graded ones has failed. -/
def laterScores : List Action :=
  [.mergeOrdered newScores 2, .mergeUnordered newScores 9, .settle, .mergeOrdered newScores 4]

/-- The failed merge would have cut the three settled scores back to one; they are all there, and
later merges discard as many rows as they would have without it. -/
theorem watch_of_error_scores :
    (settledScores.perform (.mergeOrdered gradedScores 1)).1 =
        .error (.schemaMismatch settledScores.schema.text gradedScores.schema.text) ∧
      (settledScores.perform (.mergeOrdered gradedScores 1)).2.view = settledScores.view ∧
      settledScores.view.length = 3 ∧
      (watch laterScores (settledScores.perform (.mergeOrdered gradedScores 1)).2).map
          (fun sight => (sight.1.toOption, sight.2.length)) =
        [(some (some ⟨3, 1, 4, false⟩), 2), (none, 2), (some none, 2),
          (some (some ⟨3, 3, 1, false⟩), 4)] := by
  have herror : (settledScores.perform (.mergeOrdered gradedScores 1)).1 =
      .error (.schemaMismatch settledScores.schema.text gradedScores.schema.text) := rfl
  obtain ⟨-, hview, hwatch⟩ := watch_of_error herror laterScores
  refine ⟨herror, hview, by decide +kernel, ?_⟩
  rw [hwatch]
  decide +kernel

end Block

end SelectMerge

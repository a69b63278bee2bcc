import SelectMerge.Proofs.Block.Failure

/-!
# Settling between merges

A target may be settled at any time, and merged into again: its selection is then taken up anew,
with new stamps and a heap of another shape, and rows beyond the bound go as they are offered
instead of being taken out. None of this is seen (`watch_filter_isMerge`).

Blocks that list the same rows under the same schema are `Twins`, whether they are open or settled.
Settling either keeps them so (`Twins.settle`), every other action is answered alike by both
(`Twins.perform`), and so a run with settling and one without it show the same, merge by merge.
-/

namespace SelectMerge

variable {o : RowOrder} {rows all : List Row} {b b' source : Block}

namespace Block

theorem output_settle (b : Block) : b.settle.output = b.output := by
  rcases b with ⟨schema, rows | ⟨o, s⟩ | ⟨o, rows⟩⟩ <;> rfl

theorem schema_settle (b : Block) : b.settle.schema = b.schema := by
  rcases b with ⟨schema, rows | ⟨o, s⟩ | ⟨o, rows⟩⟩ <;> rfl

theorem output_iterate_settle (n : Nat) (b : Block) : (settle^[n] b).output = b.output := by
  induction n generalizing b with
  | zero => rfl
  | succ n ih => rw [Function.iterate_succ_apply, ih, output_settle]

/-! ## Twins -/

/-- Whether two blocks list the same rows, all from `all`, under the same schema and order; either
of them may be open or settled. -/
structure Twins (o : RowOrder) (all : List Row) (b b' : Block) : Prop where
  schema : b.schema = b'.schema
  output : b.output = b'.output
  keeps : ∃ rows, rows ⊆ all ∧ Keeps o rows b
  keeps' : ∃ rows, rows ⊆ all ∧ Keeps o rows b'

section Twins

variable (h : TotalPreorderOn o.compare (· ∈ all))

include h

theorem Twins.view_eq (ht : Twins o all b b') : b.view = b'.view := by
  obtain ⟨hschema, houtput, ⟨rows, hsub, hk⟩, ⟨rows', hsub', hk'⟩⟩ := ht
  have hlength : b.length = b'.length := by
    rw [hk.length_eq (h.mono fun r hr => hsub hr), hk'.length_eq (h.mono fun r hr => hsub' hr),
      houtput]
  rw [view, view, isOrdered, isOrdered, hk.order?, hk'.order?, hschema, houtput, hlength]

theorem Twins.settle (ht : Twins o all b b') : Twins o all b.settle b' := by
  obtain ⟨hschema, houtput, ⟨rows, hsub, hk⟩, hk'⟩ := ht
  refine ⟨(schema_settle b).trans hschema, (output_settle b).trans houtput, ?_, hk'⟩
  refine ⟨b.output, ?_, keeps_settle hk.order?⟩
  exact fun r hr => hsub (hk.mem_of_mem_output (h.mono fun r hr => hsub hr) hr)

theorem Twins.mergeOrdered (ht : Twins o all b b') (hc : b.schema.isCompatible source.schema)
    (hsource : source.output ⊆ all) (bound : Nat) :
    (b.mergeOrdered source bound).1 = (b'.mergeOrdered source bound).1 ∧
      Twins o all (b.mergeOrdered source bound).2 (b'.mergeOrdered source bound).2 := by
  obtain ⟨hschema, houtput, ⟨rows, hsub, hk⟩, ⟨rows', hsub', hk'⟩⟩ := ht
  have hrows : TotalPreorderOn o.compare (· ∈ rows) := h.mono fun r hr => hsub hr
  obtain ⟨c, hcov⟩ := Schema.exists_cover? hc
  obtain ⟨s, hopen, hl, rfl⟩ := hk.exists_opened hrows bound
  obtain ⟨s', hopen', hl', hcap'⟩ := hk'.exists_opened (h.mono fun r hr => hsub' hr) s.capacity
  rw [← houtput] at hopen' hl'
  have hall : b.output ++ source.output ⊆ all :=
    List.append_subset.mpr ⟨fun r hr => hsub (hk.mem_of_mem_output hrows hr), hsource⟩
  have hboth : TotalPreorderOn o.compare (· ∈ b.output ++ source.output) :=
    h.mono fun r hr => hall hr
  -- the selections differ in stamps and shape, but list the same rows
  have hoffers : (TopK.offerAll source.output s).1 = (TopK.offerAll source.output s').1 :=
    hl.fst_offerAll_eq hboth (fun r hr => List.mem_append_right _ hr)
      (fun r hr => List.mem_append_left _ (mem_of_mem_best hr)) hl' hcap'.symm (length_best_le _ _)
  rw [mergeOrdered_eq hopen hc hcov, mergeOrdered_eq hopen' (hschema ▸ hc) (hschema ▸ hcov),
    ← hoffers, ← hschema]
  obtain ⟨hnext, hcap⟩ := hl.offerAll_best hboth
  rw [← hcap'] at hl'
  obtain ⟨hnext', hcap''⟩ := hl'.offerAll_best hboth
  rw [hcap'] at hnext' hcap''
  have hmem : ∀ r ∈ best o.compare s.capacity (b.output ++ source.output), r ∈ all :=
    fun r hr => hall (mem_of_mem_best hr)
  refine ⟨rfl, rfl, ?_, ?_, ?_⟩
  · exact (output_ranked h c hmem hnext).trans (output_ranked h c hmem hnext').symm
  · exact ⟨all, List.Subset.refl all, .ranked c hnext (hcap ▸ length_best_le _ _) hmem⟩
  · exact ⟨all, List.Subset.refl all, .ranked c hnext' (hcap'' ▸ length_best_le _ _) hmem⟩

/-! ## Actions -/

omit h in
/-- The rows that an action offers. -/
def Action.offered (action : Action) : List Row :=
  match action.source? with
  | none => []
  | some source => source.output

/-- An action other than settling is answered by twins alike. -/
theorem Twins.perform {action : Action} (ht : Twins o all b b') (hmerge : action ≠ .settle)
    (hrows : (b.perform action).1.isOk → action.offered ⊆ all) :
    (b.perform action).1 = (b'.perform action).1 ∧
      Twins o all (b.perform action).2 (b'.perform action).2 := by
  have hb : b.isOrdered := by
    obtain ⟨rows, -, hk⟩ := ht.keeps
    rw [isOrdered, hk.order?]
    rfl
  have hb' : b'.isOrdered := by
    obtain ⟨rows, -, hk⟩ := ht.keeps'
    rw [isOrdered, hk.order?]
    rfl
  cases action with
  | mergeUnordered source bound =>
    rw [Block.perform, Block.perform, mergeUnordered_of_isOrdered hb,
      mergeUnordered_of_isOrdered hb']
    exact ⟨rfl, ht⟩
  | mergeOrdered source bound =>
    by_cases hc : b.schema.isCompatible source.schema
    · obtain ⟨tally, b'', hdone⟩ := exists_mergeOrdered hb hc bound
      have hok : (b.perform (.mergeOrdered source bound)).1.isOk := by
        rw [Block.perform, hdone]
        rfl
      obtain ⟨hanswer, hnext⟩ := ht.mergeOrdered h hc (hrows hok) bound
      exact ⟨congrArg (Except.map some) hanswer, hnext⟩
    · rw [Block.perform, Block.perform, mergeOrdered_of_not_isCompatible hb hc,
        mergeOrdered_of_not_isCompatible hb' (ht.schema ▸ hc), ht.schema]
      exact ⟨rfl, ht⟩
  | settle => exact absurd rfl hmerge

end Twins

namespace Action

def isMerge : Action → Bool
  | .settle => false
  | _ => true

end Action

/-- Whether an answer is that to a merge: settling has nothing to tell. -/
def Sight.ofMerge (sight : Sight) : Bool :=
  match sight.1 with
  | .ok none => false
  | _ => true

theorem ofMerge_perform {action : Action} (hmerge : action ≠ .settle) (v : View) :
    Sight.ofMerge ((b.perform action).1, v) = true := by
  cases action with
  | mergeUnordered source bound =>
    show Sight.ofMerge ((b.mergeUnordered source bound).1.map some, v) = true
    cases (b.mergeUnordered source bound).1 <;> rfl
  | mergeOrdered source bound =>
    show Sight.ofMerge ((b.mergeOrdered source bound).1.map some, v) = true
    cases (b.mergeOrdered source bound).1 <;> rfl
  | settle => exact absurd rfl hmerge

theorem Twins.watch (h : TotalPreorderOn o.compare (· ∈ all)) {actions : List Action}
    (ht : Twins o all b b') (hrows : (effective actions b).flatMap Action.offered ⊆ all) :
    (watch actions b).filter Sight.ofMerge = watch (actions.filter Action.isMerge) b' ∧
      (performAll actions b).2.view =
        (performAll (actions.filter Action.isMerge) b').2.view := by
  induction actions generalizing b b' with
  | nil => exact ⟨rfl, ht.view_eq h⟩
  | cons action actions ih =>
    by_cases hmerge : action = .settle
    · subst hmerge
      exact ih (ht.settle h) hrows
    have hoffered : (b.perform action).1.isOk → action.offered ⊆ all := by
      intro hok
      rw [effective, if_pos hok, List.flatMap_cons] at hrows
      exact (List.append_subset.mp hrows).1
    have hlater : (effective actions (b.perform action).2).flatMap Action.offered ⊆ all := by
      rw [effective] at hrows
      split at hrows
      · rw [List.flatMap_cons] at hrows
        exact (List.append_subset.mp hrows).2
      · exact hrows
    obtain ⟨hanswer, hnext⟩ := ht.perform h hmerge hoffered
    obtain ⟨hrest, hend⟩ := ih hnext hlater
    have hkept : action.isMerge = true := by
      cases action with
      | settle => exact absurd rfl hmerge
      | mergeUnordered | mergeOrdered => rfl
    rw [List.filter_cons_of_pos hkept, Block.watch, Block.watch,
      List.filter_cons_of_pos (ofMerge_perform hmerge _), hrest, hanswer, hnext.view_eq h]
    exact ⟨rfl, hend⟩

/-! ## Settling is not seen -/

/-- However a run of merges is interspersed with settling, its merges are answered as they are
without it, failing ones included, and what is seen of the target after each of them and at the end
is the same. The order has to be consistent on the rows that were ever offered to the selection;
settling repeatedly lists the same rows under any order. -/
theorem watch_filter_isMerge (hf : Fed o rows b) (actions : List Action)
    (h : TotalPreorderOn o.compare
      (· ∈ rows ++ (effective actions b).flatMap Action.offered)) :
    (watch actions b).filter Sight.ofMerge = watch (actions.filter Action.isMerge) b ∧
      (performAll actions b).2.view = (performAll (actions.filter Action.isMerge) b).2.view ∧
      ∀ n, (settle^[n] (performAll actions b).2).output = (performAll actions b).2.output := by
  have hk : Keeps o rows b := hf.keeps h.append_left
  have ht : Twins o (rows ++ (effective actions b).flatMap Action.offered) b b :=
    ⟨rfl, rfl, ⟨rows, List.subset_append_left _ _, hk⟩, ⟨rows, List.subset_append_left _ _, hk⟩⟩
  obtain ⟨hwatch, hend⟩ := ht.watch h (List.subset_append_right _ _)
  exact ⟨hwatch, hend, fun n => output_iterate_settle n _⟩

/-! ### Scores -/

/-- Merges that grow and shrink the selection, one of which fails, with settling in between. -/
def interspersedScores : List Action :=
  [.settle, .mergeOrdered newScores 5, .settle, .settle, .mergeOrdered gradedScores 1,
    .mergeOrdered newScores 2, .mergeOrdered newScores 4, .settle, .mergeOrdered newScores 1]

/-- Of the five merges into the scores three find them settled where they are open without
settling, and let go of as many rows. -/
theorem watch_filter_isMerge_scores :
    Fed scoreOrder settledScores.output settledScores ∧
      TotalPreorderOn scoreOrder.compare (· ∈ settledScores.output ++
        (effective interspersedScores settledScores).flatMap Action.offered) ∧
      ((watch interspersedScores settledScores).filter Sight.ofMerge).map
          (fun sight => (sight.1.toOption, sight.2.length)) =
        [(some (some ⟨3, 3, 1, false⟩), 5), (none, 5), (some (some ⟨3, 1, 6, false⟩), 2),
          (some (some ⟨3, 3, 1, false⟩), 4), (some (some ⟨3, 0, 6, false⟩), 1)] ∧
      (performAll interspersedScores settledScores).2.view =
        (performAll (interspersedScores.filter Action.isMerge) settledScores).2.view := by
  have hf : Fed scoreOrder settledScores.output settledScores :=
    (Fed.orderedOfRows scoreSchema oldScores 3).settle
  have h : TotalPreorderOn scoreOrder.compare (· ∈ settledScores.output ++
      (effective interspersedScores settledScores).flatMap Action.offered) := by
    apply RowOrder.totalPreorderOn_of_not_real
    intro r hr key hkey x hx
    obtain rfl : key = ⟨0, false⟩ := List.mem_singleton.mp hkey
    -- the settled rows, and four times the new ones
    have hr' : r ∈ [scoreRow 4 1, scoreRow 4 3, scoreRow 2 2, scoreRow 4 4, scoreRow 2 5,
        scoreRow 9 6, scoreRow 4 4, scoreRow 2 5, scoreRow 9 6, scoreRow 4 4, scoreRow 2 5,
        scoreRow 9 6, scoreRow 4 4, scoreRow 2 5, scoreRow 9 6] := hr
    simp only [List.mem_cons, List.not_mem_nil, or_false] at hr'
    rcases hr' with rfl | rfl | rfl | rfl | rfl | rfl | rfl | rfl | rfl | rfl | rfl | rfl | rfl |
      rfl | rfl <;> cases hx
  obtain ⟨hwatch, hend, -⟩ := watch_filter_isMerge hf interspersedScores h
  refine ⟨hf, h, ?_, hend⟩
  rw [hwatch]
  decide +kernel

end Block

end SelectMerge

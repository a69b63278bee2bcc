import SelectMerge.Block.Merge
import SelectMerge.Proofs.Schema.Cover

/-!
# What a merge does

A merge of blocks whose schemas are not compatible leaves the target as it was
(`mergeOrdered_of_not_isCompatible`). Any other gives the target the cover of the schemas, and
appends rows of the source (`mergeUnordered_eq`) or offers them to the target's selection under its
new capacity (`mergeOrdered_eq`). `opened?` is that selection with the rows that went when it was
bounded anew, for open and settled targets alike. All that is proved of merges starts from these
equations.
-/

namespace SelectMerge

/-! ## Operations that may fail part of the way -/

section Steps

variable {ε σ α β : Type} {s : σ}

theorem run_bind (m : ExceptT ε (StateM σ) α) (f : α → ExceptT ε (StateM σ) β) (s : σ) :
    (m >>= f).run.run s =
      match m.run.run s with
      | (.ok a, s) => (f a).run.run s
      | (.error e, s) => (.error e, s) := by
  rw [ExceptT.run_bind, StateT.run_bind]
  rcases m.run.run s with ⟨_ | _, _⟩ <;> rfl

theorem run_get : (get : ExceptT ε (StateM σ) σ).run.run s = (.ok s, s) := rfl

theorem run_modify (f : σ → σ) :
    (modify f : ExceptT ε (StateM σ) Unit).run.run s = (.ok (), f s) := rfl

theorem run_pure (a : α) : (pure a : ExceptT ε (StateM σ) α).run.run s = (.ok a, s) := rfl

theorem run_throw (e : ε) : (throw e : ExceptT ε (StateM σ) α).run.run s = (.error e, s) := rfl

theorem run_lift (x : Except ε α) :
    (ExceptT.mk (pure x) : ExceptT ε (StateM σ) α).run.run s = (x, s) := rfl

end Steps

/-! ## Schemas -/

namespace Merging

theorem run_reconcile {b : Block} {source c : Schema} (hc : b.schema.isCompatible source)
    (hcov : b.schema.cover? source = some c) :
    (reconcile source).run.run b = (.ok (decide (c ≠ b.schema)), { b with schema := c }) := by
  simp only [reconcile, run_bind, run_get, hc, if_true, run_lift, Schema.cover_eq_ok_iff.mpr hcov]
  by_cases h : c = b.schema
  · simp only [h, if_true, run_pure, ne_eq, not_true, decide_false]
  · simp only [h, if_false, run_bind, run_modify, run_pure, ne_eq, not_false_eq_true, decide_true]

theorem run_reconcile_of_not {b : Block} {source : Schema} (hc : ¬ b.schema.isCompatible source) :
    (reconcile source).run.run b =
      (.error (.schemaMismatch b.schema.text source.text), b) := by
  simp only [reconcile, run_bind, run_get, hc, if_false, run_throw, Bool.false_eq_true]

end Merging

/-! ## Rows -/

namespace Block

open Merging

variable {b source : Block} {c : Schema} {o : RowOrder} {s : TopK o.compare} {rows : List Row}

theorem output_arrived (schema : Schema) (rows : List Row) :
    (⟨schema, .arrived rows⟩ : Block).output = rows := rfl

/-- A merge without an order appends what there is room for. -/
theorem mergeUnordered_eq (hb : b.rows = .arrived rows) (hc : b.schema.isCompatible source.schema)
    (hcov : b.schema.cover? source.schema = some c) (bound : Nat) :
    b.mergeUnordered source bound =
      (.ok ⟨source.output.length, min (bound - rows.length) source.output.length,
          source.output.length - min (bound - rows.length) source.output.length,
          decide (c ≠ b.schema)⟩,
        ⟨c, .arrived (rows ++ source.output.take (bound - rows.length))⟩) := by
  have htake (n : Nat) : source.output.take (min n source.output.length) = source.output.take n :=
    List.take_eq_take_iff.mpr (by simp)
  have hlength : (⟨c, b.rows⟩ : Block).length = rows.length := by rw [hb]; rfl
  simp only [mergeUnordered, append, run_bind, run_get, hb, run_reconcile hc hcov, run_modify,
    run_pure, output_arrived, ← hlength, htake]

theorem mergeUnordered_arrived (hb : b.rows = .arrived rows)
    (hc : b.schema.isCompatible source.schema) (hcov : b.schema.cover? source.schema = some c)
    (bound : Nat) :
    ∃ tally, b.mergeUnordered source bound =
      (.ok tally, ⟨c, .arrived (rows ++ source.output.take (bound - rows.length))⟩) :=
  ⟨_, mergeUnordered_eq hb hc hcov bound⟩

theorem run_offerRows (gone : Nat) (upgraded : Bool) :
    (offerRows o gone s source upgraded).run.run b =
      (.ok ⟨source.output.length,
          source.output.length - rejections (TopK.offerAll source.output s).1,
          gone + discards (TopK.offerAll source.output s).1, upgraded⟩,
        { b with rows := .ranked o (TopK.offerAll source.output s).2 }) := by
  simp only [offerRows, run_bind, run_modify, run_pure]

/-- The selection to which a merge under a bound offers its rows, and the rows that went before. -/
def opened? (b : Block) (bound : Nat) : Option (Nat × (o : RowOrder) × TopK o.compare) :=
  match b.rows with
  | .arrived _ => none
  | .ranked o s => some ((rebound o s bound).1, ⟨o, (rebound o s bound).2⟩)
  | .settled o rows => some ((reopen o rows bound).1, ⟨o, (reopen o rows bound).2⟩)

theorem opened?_ranked (hb : b.rows = .ranked o s) (bound : Nat) :
    b.opened? bound = some ((rebound o s bound).1, ⟨o, (rebound o s bound).2⟩) := by
  rw [opened?, hb]

theorem opened?_settled (hb : b.rows = .settled o rows) (bound : Nat) :
    b.opened? bound = some ((reopen o rows bound).1, ⟨o, (reopen o rows bound).2⟩) := by
  rw [opened?, hb]

/-- A merge under an order offers all rows of the source to the target's selection. -/
theorem mergeOrdered_eq {gone : Nat} {bound : Nat} (hb : b.opened? bound = some (gone, ⟨o, s⟩))
    (hc : b.schema.isCompatible source.schema) (hcov : b.schema.cover? source.schema = some c) :
    b.mergeOrdered source bound =
      (.ok ⟨source.output.length,
          source.output.length - rejections (TopK.offerAll source.output s).1,
          gone + discards (TopK.offerAll source.output s).1, decide (c ≠ b.schema)⟩,
        ⟨c, .ranked o (TopK.offerAll source.output s).2⟩) := by
  cases hrows : b.rows with
  | arrived rows =>
    simp [opened?, hrows] at hb
  | ranked o' s' | settled o' rows =>
    simp only [opened?, hrows, Option.some.injEq, Prod.mk.injEq] at hb
    obtain ⟨rfl, hb⟩ := hb
    obtain rfl := congrArg Sigma.fst hb
    obtain rfl := eq_of_heq (Sigma.mk.inj hb).2
    simp only [mergeOrdered, select, run_bind, run_get, hrows, run_reconcile hc hcov,
      run_offerRows]

theorem mergeOrdered_ranked (hb : b.rows = .ranked o s)
    (hc : b.schema.isCompatible source.schema) (hcov : b.schema.cover? source.schema = some c)
    (bound : Nat) :
    ∃ tally, b.mergeOrdered source bound =
      (.ok tally, ⟨c, .ranked o (TopK.offerAll source.output (rebound o s bound).2).2⟩) :=
  ⟨_, mergeOrdered_eq (opened?_ranked hb bound) hc hcov⟩

theorem mergeOrdered_settled (hb : b.rows = .settled o rows)
    (hc : b.schema.isCompatible source.schema) (hcov : b.schema.cover? source.schema = some c)
    (bound : Nat) :
    ∃ tally, b.mergeOrdered source bound =
      (.ok tally, ⟨c, .ranked o (TopK.offerAll source.output (reopen o rows bound).2).2⟩) :=
  ⟨_, mergeOrdered_eq (opened?_settled hb bound) hc hcov⟩

theorem mergeOrdered_of_not_isCompatible (hb : b.isOrdered)
    (hc : ¬ b.schema.isCompatible source.schema) (bound : Nat) :
    b.mergeOrdered source bound =
      (.error (.schemaMismatch b.schema.text source.schema.text), b) := by
  cases hrows : b.rows with
  | arrived rows => simp [isOrdered, order?, hrows] at hb
  | ranked o s | settled o rows =>
    simp only [mergeOrdered, select, run_bind, run_get, hrows, run_reconcile_of_not hc]

end Block

end SelectMerge

import SelectMerge.Proofs.Block.Merge
import SelectMerge.Run.Progress

/-!
# Folding one block

What a run does with one block, in an equation for each kind: a block without rows lends its schema
and changes nothing else (`Run.offer_of_isEmpty`); one with rows is merged into the target, created
if there is none (`Progress.base`, `Run.offer_of_not_isEmpty`). What runs keep is proved from these
equations.
-/

namespace SelectMerge

/-- The schema that an empty block lends to a result without rows. -/
def Block.lent? (b : Block) : Option Schema :=
  if b.isEmpty && !b.schema.isPlaceholder then some b.schema else none

namespace Progress

variable {c : Combiner} {s : Schema} {p : Progress} {t : Block}

/-- The target that a block of a schema is merged into: that of the run, or a new one. -/
def base (c : Combiner) (s : Schema) (p : Progress) : Except MergeError Block :=
  match p.target with
  | some t => .ok t
  | none => c.create s

theorem base_of_some (ht : p.target = some t) : p.base c s = .ok t := by rw [base, ht]

theorem base_of_none (ht : p.target = none) : p.base c s = c.create s := by rw [base, ht]

theorem create_of_base_eq_error {e : MergeError} (h : p.base c s = .error e) :
    c.create s = .error e := by
  cases ht : p.target with
  | none => rwa [base_of_none ht] at h
  | some t =>
    rw [base_of_some ht] at h
    cases h

end Progress

namespace Run

variable {c : Combiner} {deadline : Option Nat} {p p' : Progress} {b : Block}

theorem run_target (c : Combiner) (s : Schema) (p : Progress) :
    (target c s).run.run p = ((p.base c s).mapError Halt.failed, p) := by
  simp only [target, run_bind, run_get, Progress.base]
  cases p.target with
  | some t => rfl
  | none => cases c.create s <;> rfl

theorem offer_of_isEmpty (hb : b.isEmpty) (p : Progress) :
    (offer c b).run.run p = (.ok (), { p with fallback := p.fallback.or b.lent? }) := by
  have hlent : b.lent? = if b.schema.isPlaceholder then none else some b.schema := by
    rw [Block.lent?, hb]
    cases b.schema.isPlaceholder <;> rfl
  simp only [offer, hb, if_true, run_modify, hlent]
  obtain ⟨t, _ | f, merged, meter, now⟩ := p <;> cases b.schema.isPlaceholder <;> rfl

/-- A block with rows is merged into the target, and the merge counted if it succeeds. -/
theorem offer_of_not_isEmpty (hb : b.isEmpty = false) (p : Progress) :
    (offer c b).run.run p =
      match p.base c b.schema with
      | .error e => (.error (.failed e), p)
      | .ok t =>
        match (c.merge b).run.run t with
        | (.error e, t) => (.error (.failed e), { p with target := some t })
        | (.ok tally, t) => (.ok (), { p with target := some t }.record tally) := by
  simp only [offer, hb, Bool.false_eq_true, if_false, run_bind, run_target]
  rcases p.base c b.schema with e | t
  · rfl
  · simp only [Except.mapError]
    rcases (c.merge b).run.run t with ⟨_ | _, _⟩ <;> rfl

theorem offer_eq_ok (hb : b.isEmpty = false) (h : (offer c b).run.run p = (.ok (), p')) :
    ∃ t tally t', p.base c b.schema = .ok t ∧ (c.merge b).run.run t = (.ok tally, t') ∧
      p' = { p with target := some t' }.record tally := by
  rw [offer_of_not_isEmpty hb] at h
  rcases hbase : p.base c b.schema with e | t
  · rw [hbase] at h
    cases h
  · rw [hbase] at h
    rcases hmerge : (c.merge b).run.run t with ⟨e | tally, t'⟩
    · simp only [hmerge] at h
      cases h
    · simp only [hmerge] at h
      cases h
      exact ⟨t, tally, t', rfl, hmerge, rfl⟩

theorem run_blocks_cons (b : Timed Block) (bs : List (Timed Block)) (p : Progress) :
    (blocks c deadline (b :: bs)).run.run p =
      if deadline.any (· ≤ b.now) then expire.run.run { p with now := b.now }
      else
        match (offer c b.item).run.run { p with now := b.now } with
        | (.ok _, p) => (blocks c deadline bs).run.run p
        | (.error h, p) => (.error h, p) := by
  have hcons : blocks c deadline (b :: bs) =
      (do check deadline b.now; offer c b.item) >>= fun _ => blocks c deadline bs := rfl
  simp only [hcons, run_bind, check, run_modify]
  by_cases hlate : deadline.any (· ≤ b.now)
  · simp only [hlate, if_true]
    rfl
  · simp only [hlate, Bool.false_eq_true, if_false, run_pure]
    rcases (offer c b.item).run.run { p with now := b.now } with ⟨_ | _, _⟩ <;> rfl

end Run

end SelectMerge

import SelectMerge.Proofs.Block.OrderedMerge
import SelectMerge.Proofs.Run.Offering
import SelectMerge.Proofs.Schema.Projection

/-!
# What runs collect

After every block the target of a run is what its combiner makes of the rows so far: the first of
them, or the best, under the cover of their schemas (`Combined`, `arrange`). Empty blocks change
nothing, whatever their schema.

`Mergeable` says when blocks can be merged and their order is consistent on their rows. A merge
makes of the rows so far and the source's what the combiner makes of them all (`Combined.merge`);
`Collects` carries this along a run (`Collects.offer`, `Collects.blocks`).
-/

namespace SelectMerge

/-! ## Combiners -/

namespace Combiner

variable {c : Combiner} {rows : List Row} {t source : Block} {u : Schema}

/-- Rows as a combiner lists them: stably sorted if it keeps the best, and else as they came. -/
def arrange (c : Combiner) (rows : List Row) : List Row :=
  match c.order? with
  | none => rows
  | some o => stableSort o.compare rows

theorem arrange_perm (c : Combiner) (rows : List Row) : (c.arrange rows).Perm rows := by
  cases c with
  | firstRows k => exact .refl rows
  | bestRows o k => exact stableSort_perm rows

/-- Whether the order of a combiner, if it has one, is consistent on some rows. -/
def Consistent (c : Combiner) (rows : List Row) : Prop :=
  ∀ o, c.order? = some o → TotalPreorderOn o.compare (· ∈ rows)

/-- Whether the rows of a block are what a combiner makes of some rows. -/
def Combined : Combiner → List Row → Block → Prop
  | firstRows k, rows, b => b.rows = .arrived (rows.take k)
  | bestRows o k, rows, b =>
    ∃ s : TopK o.compare, b.rows = .ranked o s ∧ s.Lists (best o.compare k rows) ∧ s.capacity = k

theorem Combined.output (hc : c.Consistent rows) (h : c.Combined rows t) :
    t.output = (c.arrange rows).take c.bound := by
  cases c with
  | firstRows k => rw [Block.output, show t.rows = _ from h]; rfl
  | bestRows o k =>
    obtain ⟨s, hrows, hl, -⟩ := h
    rw [Block.output, hrows]
    exact hl.sorted_eq (hc o rfl) fun r hr => mem_of_mem_best hr

theorem combined_of_create {schema : Schema} (h : c.create schema = .ok t) :
    t.schema = schema ∧ c.Combined [] t := by
  cases c with
  | firstRows k =>
    obtain rfl := Except.ok.inj h
    exact ⟨rfl, by simp [Combined, Block.ofRows]⟩
  | bestRows o k =>
    obtain ⟨_, -, rfl⟩ := map_eq_ok_iff.mp h
    refine ⟨rfl, .empty k, rfl, ?_, rfl⟩
    simpa [best] using TopK.lists_empty k

theorem exists_create_iff {schema : Schema} : (∃ t, c.create schema = .ok t) ↔
    ∀ o, c.order? = some o → o.validate schema = .ok () := by
  cases c with
  | firstRows k => simp [create, order?]
  | bestRows o k =>
    have hcreate : (∃ t, (bestRows o k).create schema = .ok t) ↔ o.validate schema = .ok () := by
      rw [create]
      cases o.validate schema <;> simp [Except.map]
    rw [hcreate]
    simp [order?]

theorem exists_create (c : Combiner) {schema : Schema}
    (hvalid : ∀ o, c.order? = some o → o.validate schema = .ok ()) :
    ∃ t, c.create schema = .ok t ∧ t.schema = schema ∧ c.Combined [] t := by
  obtain ⟨t, ht⟩ := exists_create_iff.mpr hvalid
  exact ⟨t, ht, combined_of_create ht⟩

/-- A merge makes of the rows so far and the source's what the combiner makes of them all. -/
theorem Combined.merge (hcons : c.Consistent (rows ++ source.output)) (h : c.Combined rows t)
    (hcompat : t.schema.isCompatible source.schema)
    (hcov : t.schema.cover? source.schema = some u) :
    ∃ tally t', (c.merge source).run.run t = (.ok tally, t') ∧ t'.schema = u ∧
      c.Combined (rows ++ source.output) t' := by
  cases c with
  | firstRows k =>
    obtain ⟨tally, hmerge⟩ := Block.mergeUnordered_arrived h hcompat hcov k
    refine ⟨tally, _, hmerge, rfl, ?_⟩
    have hroom : k - (rows.take k).length = k - rows.length := by
      rw [List.length_take]
      omega
    rw [Combined, hroom, List.take_append]
  | bestRows o k =>
    obtain ⟨s, hrows, hl, rfl⟩ := h
    obtain ⟨tally, hmerge⟩ := Block.mergeOrdered_ranked hrows hcompat hcov s.capacity
    have hsame : Merging.rebound o s s.capacity = (0, s) := if_pos rfl
    rw [hsame] at hmerge
    exact ⟨tally, _, hmerge, rfl, _, rfl, hl.offerAll_best (hcons o rfl)⟩

end Combiner

/-! ## Blocks -/

theorem Block.output_eq_nil {b : Block} (h : b.isEmpty) : b.output = [] := by
  rcases b with ⟨schema, rows | ⟨o, s⟩ | ⟨o, rows⟩⟩
  · exact List.length_eq_zero_iff.mp (beq_iff_eq.mp h)
  · obtain ⟨k, heap, stamp⟩ := s
    cases heap with
    | leaf => rfl
    | node l x r => exact absurd (beq_iff_eq.mp h) (by simp [length, TopK.size, HeapTree.size])
  · exact List.length_eq_zero_iff.mp (beq_iff_eq.mp h)

/-- Whether blocks can be merged by a combiner: their schemas agree and suit its order, which is
consistent on their rows. -/
structure Mergeable (c : Combiner) (bs : List Block) : Prop where
  agree : ∀ a ∈ bs, ∀ b ∈ bs, a.schema.Agrees b.schema
  valid : ∀ o, c.order? = some o → ∀ b ∈ bs, o.validate b.schema = .ok ()
  consistent : c.Consistent (bs.flatMap (·.output))

theorem Mergeable.mono {c : Combiner} {as bs : List Block} (h : Mergeable c bs)
    (hsub : ∀ a ∈ as, a ∈ bs) : Mergeable c as where
  agree a ha b hb := h.agree a (hsub a ha) b (hsub b hb)
  valid o ho b hb := h.valid o ho b (hsub b hb)
  consistent o ho := (h.consistent o ho).mono fun r hr => by
    obtain ⟨a, ha, hr⟩ := List.mem_flatMap.mp hr
    exact List.mem_flatMap.mpr ⟨a, hsub a ha, hr⟩

theorem Mergeable.exists_cover {c : Combiner} {bs : List Block} (h : Mergeable c bs)
    (hne : bs ≠ []) : ∃ u, Schema.coverAll? (bs.map (·.schema)) = some u ∧
      ∀ b ∈ bs, u.Agrees b.schema ∧ b.schema.WidensTo u := by
  have hagree : ∀ s ∈ bs.map (·.schema), ∀ s' ∈ bs.map (·.schema), s.Agrees s' :=
    List.forall_mem_map.mpr fun a ha => List.forall_mem_map.mpr fun b hb => h.agree a ha b hb
  obtain ⟨u, hu, hall⟩ := Schema.exists_coverAll? (by simpa using hne) hagree
  exact ⟨u, hu, fun b hb => hall b.schema (List.mem_map_of_mem hb)⟩

/-- The blocks that have rows. -/
def nonempty (bs : List Block) : List Block := bs.filter fun b => !b.isEmpty

theorem flatMap_output_nonempty (bs : List Block) :
    (nonempty bs).flatMap (·.output) = bs.flatMap (·.output) := by
  induction bs with
  | nil => rfl
  | cons b bs ih =>
    cases hb : b.isEmpty with
    | true => simpa [nonempty, hb, Block.output_eq_nil hb] using ih
    | false => simpa [nonempty, hb] using ih

/-! ## Runs -/

namespace Progress

variable {c : Combiner} {seen : List Block} {p : Progress} {b : Block}

/-- Whether the target of a run is what its combiner makes of the blocks seen so far, those with
rows. -/
def Collects (c : Combiner) (seen : List Block) (p : Progress) : Prop :=
  match p.target with
  | none => seen = []
  | some t => seen ≠ [] ∧ Schema.coverAll? (seen.map (·.schema)) = some t.schema ∧
      c.Combined (seen.flatMap (·.output)) t

theorem Collects.skip (h : p.Collects c seen) (hb : b.isEmpty) :
    ∃ p', (Run.offer c b).run.run p = (.ok (), p') ∧ p'.Collects c seen :=
  ⟨_, Run.offer_of_isEmpty hb p, h⟩

theorem Collects.exists_target (h : p.Collects c seen) (hm : Mergeable c (seen ++ [b])) :
    ∃ t u, p.base c b.schema = .ok t ∧ c.Combined (seen.flatMap (·.output)) t ∧
      t.schema.isCompatible b.schema ∧ t.schema.cover? b.schema = some u ∧
      Schema.coverAll? ((seen ++ [b]).map (·.schema)) = some u := by
  unfold Collects at h
  cases htarget : p.target with
  | none =>
    obtain rfl : seen = [] := by simpa [htarget] using h
    obtain ⟨t, hcreate, hschema, hcombined⟩ :=
      c.exists_create fun o ho => hm.valid o ho b (by simp)
    refine ⟨t, b.schema, (base_of_none htarget).trans hcreate, hcombined, ?_, ?_, rfl⟩
    · rw [hschema]
      exact (Schema.Agrees.refl b.schema).isCompatible
    · rw [hschema, Schema.cover?_self]
  | some t =>
    obtain ⟨hne, hcover, hcombined⟩ : seen ≠ [] ∧
        Schema.coverAll? (seen.map (·.schema)) = some t.schema ∧
        c.Combined (seen.flatMap (·.output)) t := by simpa [htarget] using h
    -- the target's schema is the cover of those seen, so it agrees with any of them
    have hagrees : t.schema.Agrees b.schema := by
      obtain ⟨u, hu, hall⟩ := (hm.mono fun a ha => List.mem_append_left _ ha).exists_cover hne
      obtain rfl : t.schema = u := Option.some.inj (hcover.symm.trans hu)
      obtain ⟨a, ha⟩ := List.exists_mem_of_ne_nil seen hne
      exact (hall a ha).1.trans (hm.agree a (by simp [ha]) b (by simp))
    obtain ⟨u, hu⟩ := Schema.exists_cover? hagrees.isCompatible
    refine ⟨t, u, base_of_some htarget, hcombined, hagrees.isCompatible, hu, ?_⟩
    rw [List.map_append, List.map_singleton, Schema.coverAll?_concat (by simpa using hne), hcover]
    exact hu

theorem Collects.offer (h : p.Collects c seen) (hm : Mergeable c (seen ++ [b]))
    (hb : b.isEmpty = false) :
    ∃ p', (Run.offer c b).run.run p = (.ok (), p') ∧ p'.Collects c (seen ++ [b]) := by
  obtain ⟨t, u, hbase, hcombined, hcompat, hcov, hcover⟩ := h.exists_target hm
  have hrows : (seen ++ [b]).flatMap (·.output) = seen.flatMap (·.output) ++ b.output := by simp
  obtain ⟨tally, t', hmerge, hschema, hcombined'⟩ :=
    hcombined.merge (hrows ▸ hm.consistent) hcompat hcov
  simp only [Run.offer_of_not_isEmpty hb, hbase, hmerge]
  exact ⟨_, rfl, by simp, hschema ▸ hcover, hrows ▸ hcombined'⟩

theorem Collects.blocks {bs : List (Timed Block)} (h : p.Collects c seen)
    (hm : Mergeable c (seen ++ nonempty (bs.map (·.item)))) :
    ∃ p', (Run.blocks c none bs).run.run p = (.ok (), p') ∧
      p'.Collects c (seen ++ nonempty (bs.map (·.item))) := by
  induction bs generalizing p seen with
  | nil => exact ⟨p, rfl, by simpa [nonempty] using h⟩
  | cons b bs ih =>
    have hlater : ({ p with now := b.now } : Progress).Collects c seen := h
    simp only [Run.run_blocks_cons, Option.any_none, Bool.false_eq_true, if_false]
    cases hb : b.item.isEmpty with
    | true =>
      have hrest : nonempty ((b :: bs).map (·.item)) = nonempty (bs.map (·.item)) := by
        simp [nonempty, hb]
      rw [hrest] at hm ⊢
      obtain ⟨p', hoffer, hp'⟩ := hlater.skip hb
      simp only [hoffer]
      exact ih hp' hm
    | false =>
      have hrest : seen ++ nonempty ((b :: bs).map (·.item)) =
          (seen ++ [b.item]) ++ nonempty (bs.map (·.item)) := by simp [nonempty, hb]
      rw [hrest] at hm ⊢
      obtain ⟨p', hoffer, hp'⟩ :=
        hlater.offer (hm.mono fun a ha => List.mem_append_left _ ha) hb
      simp only [hoffer]
      exact ih hp' hm

end Progress

end SelectMerge

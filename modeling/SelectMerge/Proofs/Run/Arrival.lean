import SelectMerge.Proofs.Block.Stock
import SelectMerge.Proofs.Outcome
import SelectMerge.Proofs.Rank.Ties
import SelectMerge.Proofs.Run.Reduction
import SelectMerge.Proofs.Schema.Joins

/-!
# Blocks in any order of arrival

Whether a run without a deadline succeeds is a property of the blocks with rows and not of their
order, and so are its schema and how many rows it ends with, even when the order of the query is
inconsistent on them. Which rows it ends with depends on the arrival only as far as rows tie, or, in
a query without an order, as far as the bound cuts.

`Foldable` is the property: schemas that agree, and an order that is valid for them. One more block
can be folded exactly if it is compatible with the cover of those before (`Foldable.concat_iff`).
`Gathers` is what holds after every block, and by induction a run succeeds exactly if its blocks
with rows can be folded (`Gathers.blocks`).
-/

namespace SelectMerge

/-! ## Targets -/

namespace Combiner

variable {c : Combiner} {t source : Block} {schema : Schema} {n : Nat}

/-- Whether a block is a target of the combiner after `n` rows: it keeps as many as it may. -/
structure Holds (c : Combiner) (n : Nat) (t : Block) : Prop where
  order : t.order? = c.order?
  rows : ∃ l, t.Stores l ∧ l.length = min c.bound n

theorem Holds.length_output (h : c.Holds n t) : t.output.length = min c.bound n := by
  obtain ⟨l, hstores, hlen⟩ := h.rows
  rw [hstores.output_perm.length_eq, hlen]

theorem holds_create (h : c.create schema = .ok t) : c.Holds 0 t ∧ t.schema = schema := by
  cases c with
  | firstRows k =>
    obtain rfl := Except.ok.inj h
    exact ⟨⟨rfl, [], .arrived schema [], by simp⟩, rfl⟩
  | bestRows o k =>
    obtain ⟨_, -, rfl⟩ := map_eq_ok_iff.mp h
    exact ⟨⟨rfl, [], Block.stores_ordered schema o k, by simp⟩, rfl⟩

theorem Holds.exists_merge (h : c.Holds n t) (hc : t.schema.isCompatible source.schema) :
    ∃ tally t', (c.merge source).run.run t = (.ok tally, t') ∧
      t.schema.cover? source.schema = some t'.schema ∧ c.Holds (n + source.output.length) t' := by
  obtain ⟨l, hstores, hlen⟩ := h.rows
  cases c with
  | firstRows k =>
    have hb : ¬ t.isOrdered := by
      rw [Block.isOrdered, h.order]
      exact Bool.false_ne_true
    obtain ⟨tally, t', hmerge⟩ := Block.exists_mergeUnordered hb hc k
    obtain ⟨hcov, hstores'⟩ := hstores.mergeUnordered hmerge
    refine ⟨tally, t', hmerge, hcov, ?_, _, hstores', ?_⟩
    · have horder : (t.mergeUnordered source k).2.order? = t.order? :=
        Block.order?_mergeUnordered k
      rw [hmerge] at horder
      exact horder.trans h.order
    · simp only [bound] at hlen ⊢
      rw [List.length_append, List.length_take]
      omega
  | bestRows o k =>
    have hb : t.isOrdered := by
      rw [Block.isOrdered, h.order]
      rfl
    obtain ⟨tally, t', hmerge⟩ := Block.exists_mergeOrdered hb hc k
    obtain ⟨hcov, l', hstores', -, hlen'⟩ := hstores.mergeOrdered hmerge
    refine ⟨tally, t', hmerge, hcov, ⟨?_, l', hstores', ?_⟩⟩
    · have horder : (t.mergeOrdered source k).2.order? = some o := order?_mergeOrdered h.order k
      rwa [hmerge] at horder
    · simp only [bound] at hlen ⊢
      omega

theorem Holds.exists_error (h : c.Holds n t) (hc : ¬ t.schema.isCompatible source.schema) :
    ∃ e, (c.merge source).run.run t = (.error e, t) := by
  cases c with
  | firstRows k =>
    refine ⟨_, Block.mergeUnordered_of_not_isCompatible ?_ hc k⟩
    rw [Block.isOrdered, h.order]
    exact Bool.false_ne_true
  | bestRows o k =>
    refine ⟨_, Block.mergeOrdered_of_not_isCompatible ?_ hc k⟩
    rw [Block.isOrdered, h.order]
    rfl

end Combiner

/-! ## Blocks -/

/-- Whether blocks can be folded by a combiner: their schemas agree, and its order is valid for
them, though it may be inconsistent on their rows. -/
structure Foldable (c : Combiner) (bs : List Block) : Prop where
  agree : ∀ a ∈ bs, ∀ b ∈ bs, a.schema.Agrees b.schema
  valid : ∀ o, c.order? = some o → ∀ b ∈ bs, o.validate b.schema = .ok ()

namespace Foldable

variable {c : Combiner} {bs bs' : List Block} {b : Block} {u : Schema}

theorem mono (h : Foldable c bs) (hsub : ∀ b ∈ bs', b ∈ bs) : Foldable c bs' where
  agree a ha b hb := h.agree a (hsub a ha) b (hsub b hb)
  valid o ho b hb := h.valid o ho b (hsub b hb)

theorem singleton_iff : Foldable c [b] ↔ ∀ o, c.order? = some o → o.validate b.schema = .ok () := by
  constructor
  · intro h o ho
    exact h.valid o ho b (by simp)
  · intro h
    constructor
    · intro a ha a' ha'
      rw [List.mem_singleton.mp ha, List.mem_singleton.mp ha']
      exact .refl b.schema
    · intro o ho a ha
      rw [List.mem_singleton.mp ha]
      exact h o ho

theorem agrees_coverAll? (h : Foldable c bs) (hne : bs ≠ [])
    (hu : Schema.coverAll? (bs.map (·.schema)) = some u) : ∀ b ∈ bs, u.Agrees b.schema := by
  have hagree : ∀ s ∈ bs.map (·.schema), ∀ s' ∈ bs.map (·.schema), s.Agrees s' :=
    List.forall_mem_map.mpr fun a ha => List.forall_mem_map.mpr fun b hb => h.agree a ha b hb
  obtain ⟨u', hu', hall⟩ := Schema.exists_coverAll? (by simpa using hne) hagree
  obtain rfl := Option.some.inj (hu'.symm.trans hu)
  exact fun b hb => (hall b.schema (List.mem_map_of_mem hb)).1

theorem concat_iff (h : Foldable c bs) (hne : bs ≠ [])
    (hu : Schema.coverAll? (bs.map (·.schema)) = some u)
    (hnames : ∀ a ∈ bs, a.schema.names = b.schema.names) (hb : b.schema.Aligned)
    (ha : ∀ a ∈ bs, a.schema.Aligned) :
    Foldable c (bs ++ [b]) ↔ u.isCompatible b.schema := by
  have hall := h.agrees_coverAll? hne hu
  obtain ⟨a, hmem⟩ := List.exists_mem_of_ne_nil bs hne
  constructor
  · intro h'
    exact ((hall a hmem).trans (h'.agree a (by simp [hmem]) b (by simp))).isCompatible
  · intro hcompat
    have haligned : u.Aligned := by
      rw [Schema.Aligned, (hall a hmem).names, (hall a hmem).types.length_eq]
      exact ha a hmem
    have hub : u.Agrees b.schema :=
      Schema.agrees_of_isCompatible ((hall a hmem).names.trans (hnames a hmem)) haligned hb hcompat
    have hwith : ∀ x ∈ bs ++ [b], u.Agrees x.schema := by
      intro x hx
      rcases List.mem_append.mp hx with hx | hx
      · exact hall x hx
      · rwa [List.mem_singleton.mp hx]
    refine ⟨fun x hx y hy => (hwith x hx).symm.trans (hwith y hy), ?_⟩
    intro o ho x hx
    have hax : a.schema.Agrees x.schema := (hall a hmem).symm.trans (hwith x hx)
    exact RowOrder.validate_of_agrees hax (h.valid o ho a hmem)

end Foldable

/-! ## Runs -/

namespace Progress

variable {c : Combiner} {seen : List Block} {p : Progress} {b : Block} {names : List String}

/-- Whether a run has folded the blocks seen so far, those with rows, into its target. -/
structure Gathers (c : Combiner) (seen : List Block) (p : Progress) : Prop where
  merged : p.merged = seen.length
  foldable : Foldable c seen
  target : match p.target with
    | none => seen = []
    | some t => seen ≠ [] ∧ Schema.coverAll? (seen.map (·.schema)) = some t.schema ∧
        c.Holds (seen.flatMap (·.output)).length t

theorem Gathers.skip (h : p.Gathers c seen) (hb : b.isEmpty) :
    ∃ p', (Run.offer c b).run.run p = (.ok (), p') ∧ p'.Gathers c seen :=
  ⟨_, Run.offer_of_isEmpty hb p, h.merged, h.foldable, h.target⟩

theorem Gathers.exists_target (h : p.Gathers c seen)
    (hvalid : seen = [] → ∀ o, c.order? = some o → o.validate b.schema = .ok ()) :
    ∃ t, p.base c b.schema = .ok t ∧ c.Holds (seen.flatMap (·.output)).length t ∧
      (seen = [] ∧ t.schema = b.schema ∨
        seen ≠ [] ∧ Schema.coverAll? (seen.map (·.schema)) = some t.schema) := by
  have htarget := h.target
  cases hp : p.target with
  | none =>
    obtain rfl : seen = [] := by simpa [hp] using htarget
    obtain ⟨t, hcreate⟩ := Combiner.exists_create_iff.mpr (hvalid rfl)
    obtain ⟨hholds, hschema⟩ := Combiner.holds_create hcreate
    exact ⟨t, (base_of_none hp).trans hcreate, hholds, .inl ⟨rfl, hschema⟩⟩
  | some t =>
    rw [hp] at htarget
    obtain ⟨hne, hcover, hholds⟩ := htarget
    exact ⟨t, base_of_some hp, hholds, .inr ⟨hne, hcover⟩⟩

theorem Gathers.offer (h : p.Gathers c seen) (hf : Foldable c (seen ++ [b]))
    (hb : b.isEmpty = false) :
    ∃ p', (Run.offer c b).run.run p = (.ok (), p') ∧ p'.Gathers c (seen ++ [b]) := by
  obtain ⟨t, hbase, hholds, hschema⟩ :=
    h.exists_target fun _ o ho => hf.valid o ho b (by simp)
  have hcompat : t.schema.isCompatible b.schema := by
    rcases hschema with ⟨-, hschema⟩ | ⟨hne, hcover⟩
    · rw [hschema]
      exact (Schema.Agrees.refl b.schema).isCompatible
    · obtain ⟨a, ha⟩ := List.exists_mem_of_ne_nil seen hne
      have hta : t.schema.Agrees a.schema := h.foldable.agrees_coverAll? hne hcover a ha
      exact (hta.trans (hf.agree a (by simp [ha]) b (by simp))).isCompatible
  obtain ⟨tally, t', hmerge, hcov, hholds'⟩ := hholds.exists_merge hcompat
  have hcover' : Schema.coverAll? ((seen ++ [b]).map (·.schema)) = some t'.schema := by
    rw [List.map_append, List.map_singleton]
    rcases hschema with ⟨rfl, hschema⟩ | ⟨hne, hcover⟩
    · rw [hschema, Schema.cover?_self] at hcov
      exact hcov
    · rw [Schema.coverAll?_concat (by simpa using hne), hcover]
      exact hcov
  have hrows : ((seen ++ [b]).flatMap (·.output)).length =
      (seen.flatMap (·.output)).length + b.output.length := by simp
  simp only [Run.offer_of_not_isEmpty hb, hbase, hmerge]
  refine ⟨_, rfl, ?_, hf, by simp, hcover', hrows ▸ hholds'⟩
  rw [List.length_append, ← h.merged]
  rfl

theorem Gathers.offer_error (h : p.Gathers c seen)
    (hnames : ∀ a ∈ seen ++ [b], a.schema.names = names ∧ a.schema.Aligned)
    (hf : ¬ Foldable c (seen ++ [b])) (hb : b.isEmpty = false) :
    ∃ e p', (Run.offer c b).run.run p = (.error e, p') := by
  rw [Run.offer_of_not_isEmpty hb]
  by_cases hvalid : seen = [] → ∀ o, c.order? = some o → o.validate b.schema = .ok ()
  · obtain ⟨t, hbase, hholds, ⟨rfl, -⟩ | ⟨hne, hcover⟩⟩ := h.exists_target hvalid
    · exact absurd (Foldable.singleton_iff.mpr (hvalid rfl)) hf
    · have hcompat : ¬ t.schema.isCompatible b.schema := by
        rwa [← h.foldable.concat_iff hne hcover
          (fun a ha => (hnames a (by simp [ha])).1.trans (hnames b (by simp)).1.symm)
          (hnames b (by simp)).2 fun a ha => (hnames a (by simp [ha])).2]
      obtain ⟨e, hmerge⟩ := hholds.exists_error hcompat
      simp only [hbase, hmerge]
      exact ⟨_, _, rfl⟩
  · -- the first block with rows has a key that rows cannot be ordered by
    push Not at hvalid
    obtain ⟨rfl, o, ho, hinvalid⟩ := hvalid
    have hp : p.target = none := by
      have htarget := h.target
      cases hp : p.target with
      | none => rfl
      | some t => simp [hp] at htarget
    have hcreate : ¬ ∃ t, c.create b.schema = .ok t := by
      rw [Combiner.exists_create_iff]
      exact fun hall => hinvalid (hall o ho)
    cases hc : c.create b.schema with
    | ok t => exact absurd ⟨t, hc⟩ hcreate
    | error e =>
      simp only [base_of_none hp, hc]
      exact ⟨_, _, rfl⟩

/-- A run over blocks without a deadline succeeds exactly if those with rows can be folded. -/
theorem Gathers.blocks {bs : List (Timed Block)} (h : p.Gathers c seen)
    (hnames : ∀ a ∈ seen ++ nonempty (bs.map (·.item)), a.schema.names = names ∧ a.schema.Aligned) :
    (∃ p', (Run.blocks c none bs).run.run p = (.ok (), p') ∧
        p'.Gathers c (seen ++ nonempty (bs.map (·.item)))) ∨
      (¬ Foldable c (seen ++ nonempty (bs.map (·.item))) ∧
        ∃ e p', (Run.blocks c none bs).run.run p = (.error e, p')) := by
  induction bs generalizing p seen with
  | nil => exact .inl ⟨p, rfl, by simpa [nonempty] using h⟩
  | cons b bs ih =>
    have hlater : ({ p with now := b.now } : Progress).Gathers c seen :=
      ⟨h.merged, h.foldable, h.target⟩
    simp only [Run.run_blocks_cons, Option.any_none, Bool.false_eq_true, if_false]
    cases hb : b.item.isEmpty with
    | true =>
      have hrest : nonempty ((b :: bs).map (·.item)) = nonempty (bs.map (·.item)) := by
        simp [nonempty, hb]
      rw [hrest] at hnames ⊢
      obtain ⟨p', hoffer, hp'⟩ := hlater.skip hb
      simp only [hoffer]
      exact ih hp' hnames
    | false =>
      have hrest : seen ++ nonempty ((b :: bs).map (·.item)) =
          (seen ++ [b.item]) ++ nonempty (bs.map (·.item)) := by simp [nonempty, hb]
      rw [hrest] at hnames ⊢
      have hseen : ∀ a ∈ seen ++ [b.item], a.schema.names = names ∧ a.schema.Aligned :=
        fun a ha => hnames a (List.mem_append_left _ ha)
      by_cases hf : Foldable c (seen ++ [b.item])
      · obtain ⟨p', hoffer, hp'⟩ := hlater.offer hf hb
        simp only [hoffer]
        exact ih hp' hnames
      · obtain ⟨e, p', hoffer⟩ := hlater.offer_error hseen hf hb
        simp only [hoffer]
        exact .inr ⟨fun hall => hf (hall.mono fun a ha => List.mem_append_left _ ha), e, p', rfl⟩

end Progress

end SelectMerge

import SelectMerge.Proofs.Block.Merge
import SelectMerge.Proofs.Rank.Stock

/-!
# What blocks keep under any order

However inconsistent the order of a target, a merge that succeeds leaves it with rows of its own and
of the source, under the cover of their schemas, and it lists all the rows that it keeps.

`Block.Stores` ties a block to the rows it keeps, in any order. It is kept by settling
(`Stores.settle`), by bounding a selection anew (`stores_rebound`) and by both kinds of merges
(`Stores.mergeUnordered`, `Stores.mergeOrdered`), each with the number of rows that go. A merge that
fails leaves the target as it was (`eq_of_mergeUnordered_error`, `eq_of_mergeOrdered_error`).
-/

namespace SelectMerge

/-! ## Offers -/

section Offers

open Merging

variable {o : RowOrder} {s : TopK o.compare} {l : List Row}

theorem discards_cons_inserted (offers : List (Offer Row)) :
    discards (.inserted :: offers) = discards offers := by simp [discards]

theorem discards_cons_of_ne {offer : Offer Row} (h : offer ≠ .inserted)
    (offers : List (Offer Row)) : discards (offer :: offers) = discards offers + 1 := by
  cases offer with
  | inserted => exact absurd rfl h
  | replaced worst => simp [discards]
  | rejected newcomer => simp [discards]

theorem rejections_le_discards (offers : List (Offer Row)) :
    rejections offers ≤ discards offers := by
  refine List.countP_mono_left fun offer _ hoffer => ?_
  cases offer <;> simp_all

theorem TopK.Stores.size_offerAll (h : s.Stores l) (hb : l.length ≤ s.capacity) (xs : List Row) :
    (TopK.offerAll xs s).2.size + discards (TopK.offerAll xs s).1 = s.size + xs.length := by
  induction xs generalizing s l with
  | nil => rfl
  | cons x xs ih =>
    obtain ⟨l₁, h₁, -, hlen₁, hcap₁⟩ := h.offer hb x
    have hrest := ih h₁ (by omega)
    rw [h₁.size_eq, hlen₁] at hrest
    have hinserted := s.offer_eq_inserted_iff x
    rw [h.size_eq] at hinserted ⊢
    simp only [TopK.offerAll, List.length_cons]
    by_cases hroom : l.length < s.capacity
    · rw [hinserted.mpr hroom, discards_cons_inserted]
      omega
    · rw [discards_cons_of_ne (mt hinserted.mp hroom)]
      omega

end Offers

/-! ## Refused merges -/

namespace Block

open Merging

variable {b source : Block}

theorem mergeUnordered_of_isOrdered (hb : b.isOrdered) (bound : Nat) :
    b.mergeUnordered source bound =
      (.error (.strategyMismatch "unordered merge into an ordered block"), b) := by
  cases hrows : b.rows with
  | arrived rows => simp [isOrdered, order?, hrows] at hb
  | ranked o s | settled o rows =>
    simp only [mergeUnordered, append, run_bind, run_get, hrows, run_throw]

theorem mergeOrdered_of_not_isOrdered (hb : ¬ b.isOrdered) (bound : Nat) :
    b.mergeOrdered source bound =
      (.error (.strategyMismatch "ordered merge into a block without ordering"), b) := by
  cases hrows : b.rows with
  | arrived rows => simp only [mergeOrdered, select, run_bind, run_get, hrows, run_throw]
  | ranked o s | settled o rows => simp [isOrdered, order?, hrows] at hb

theorem mergeUnordered_of_not_isCompatible (hb : ¬ b.isOrdered)
    (hc : ¬ b.schema.isCompatible source.schema) (bound : Nat) :
    b.mergeUnordered source bound =
      (.error (.schemaMismatch b.schema.text source.schema.text), b) := by
  cases hrows : b.rows with
  | arrived rows =>
    simp only [mergeUnordered, append, run_bind, run_get, hrows, run_reconcile_of_not hc]
  | ranked o s | settled o rows => simp [isOrdered, order?, hrows] at hb

theorem exists_mergeUnordered (hb : ¬ b.isOrdered) (hc : b.schema.isCompatible source.schema)
    (bound : Nat) : ∃ tally b', b.mergeUnordered source bound = (.ok tally, b') := by
  obtain ⟨c, hcov⟩ := Schema.exists_cover? hc
  cases hrows : b.rows with
  | arrived rows =>
    obtain ⟨tally, hmerge⟩ := mergeUnordered_arrived hrows hc hcov bound
    exact ⟨tally, _, hmerge⟩
  | ranked o s | settled o rows => simp [isOrdered, order?, hrows] at hb

theorem exists_mergeOrdered (hb : b.isOrdered) (hc : b.schema.isCompatible source.schema)
    (bound : Nat) : ∃ tally b', b.mergeOrdered source bound = (.ok tally, b') := by
  obtain ⟨c, hcov⟩ := Schema.exists_cover? hc
  cases hrows : b.rows with
  | arrived rows => simp [isOrdered, order?, hrows] at hb
  | ranked o s =>
    obtain ⟨tally, hmerge⟩ := mergeOrdered_ranked hrows hc hcov bound
    exact ⟨tally, _, hmerge⟩
  | settled o rows =>
    obtain ⟨tally, hmerge⟩ := mergeOrdered_settled hrows hc hcov bound
    exact ⟨tally, _, hmerge⟩

theorem of_mergeUnordered_ok {bound : Nat} {tally : MergeTally} {b' : Block}
    (h : b.mergeUnordered source bound = (.ok tally, b')) :
    ¬ b.isOrdered ∧ b.schema.isCompatible source.schema := by
  have hb : ¬ b.isOrdered := by
    intro hb
    rw [mergeUnordered_of_isOrdered hb] at h
    cases h
  refine ⟨hb, ?_⟩
  by_contra hc
  rw [mergeUnordered_of_not_isCompatible hb hc] at h
  cases h

theorem of_mergeOrdered_ok {bound : Nat} {tally : MergeTally} {b' : Block}
    (h : b.mergeOrdered source bound = (.ok tally, b')) :
    b.isOrdered ∧ b.schema.isCompatible source.schema := by
  have hb : b.isOrdered := by
    by_contra hb
    rw [mergeOrdered_of_not_isOrdered hb] at h
    cases h
  refine ⟨hb, ?_⟩
  by_contra hc
  rw [mergeOrdered_of_not_isCompatible hb hc] at h
  cases h

theorem eq_of_mergeUnordered_error {bound : Nat} {e : MergeError} {b' : Block}
    (h : b.mergeUnordered source bound = (.error e, b')) : b' = b := by
  by_cases hb : b.isOrdered
  · rw [mergeUnordered_of_isOrdered hb] at h
    exact (Prod.mk.inj h).2.symm
  by_cases hc : b.schema.isCompatible source.schema
  · obtain ⟨tally, b'', hmerge⟩ := exists_mergeUnordered hb hc bound
    rw [hmerge] at h
    cases h
  · rw [mergeUnordered_of_not_isCompatible hb hc] at h
    exact (Prod.mk.inj h).2.symm

theorem eq_of_mergeOrdered_error {bound : Nat} {e : MergeError} {b' : Block}
    (h : b.mergeOrdered source bound = (.error e, b')) : b' = b := by
  by_cases hb : b.isOrdered
  · by_cases hc : b.schema.isCompatible source.schema
    · obtain ⟨tally, b'', hmerge⟩ := exists_mergeOrdered hb hc bound
      rw [hmerge] at h
      cases h
    · rw [mergeOrdered_of_not_isCompatible hb hc] at h
      exact (Prod.mk.inj h).2.symm
  · rw [mergeOrdered_of_not_isOrdered hb] at h
    exact (Prod.mk.inj h).2.symm

theorem order?_mergeUnordered (bound : Nat) :
    (b.mergeUnordered source bound).2.order? = b.order? := by
  by_cases hb : b.isOrdered
  · rw [mergeUnordered_of_isOrdered hb]
  by_cases hc : b.schema.isCompatible source.schema
  · obtain ⟨c, hcov⟩ := Schema.exists_cover? hc
    cases hrows : b.rows with
    | arrived rows =>
      obtain ⟨tally, hmerge⟩ := mergeUnordered_arrived hrows hc hcov bound
      rw [hmerge, order?, order?, hrows]
    | ranked o s | settled o rows => simp [isOrdered, order?, hrows] at hb
  · rw [mergeUnordered_of_not_isCompatible hb hc]

/-! ## The rows kept -/

/-- Whether the rows that a block keeps are those of `l`: a selection keeps them in any order. -/
inductive Stores : Block → List Row → Prop where
  | arrived (schema : Schema) (rows : List Row) : Stores ⟨schema, .arrived rows⟩ rows
  | ranked (schema : Schema) {o : RowOrder} {s : TopK o.compare} {l : List Row} (hs : s.Stores l)
      (hb : l.length ≤ s.capacity) : Stores ⟨schema, .ranked o s⟩ l
  | settled (schema : Schema) (o : RowOrder) (rows : List Row) :
      Stores ⟨schema, .settled o rows⟩ rows

variable {l : List Row}

theorem Stores.output_perm (h : b.Stores l) : b.output.Perm l := by
  cases h with
  | arrived schema => exact .refl l
  | ranked schema hs hb => exact hs.sorted_perm
  | settled schema o => exact .refl l

theorem Stores.length_output (h : b.Stores l) : b.output.length = b.length := by
  cases h with
  | arrived schema => rfl
  | ranked schema hs hb => exact hs.sorted_perm.length_eq.trans hs.size_eq.symm
  | settled schema o => rfl

theorem Stores.length_eq (h : b.Stores l) : b.length = l.length :=
  h.length_output.symm.trans h.output_perm.length_eq

theorem stores_ordered (schema : Schema) (o : RowOrder) (k : Nat) :
    (Block.ordered schema o k).Stores [] := .ranked schema (TopK.stores_empty o.compare k) (by simp)

theorem Stores.settle (h : b.Stores l) : b.settle.Stores b.output ∧ b.settle.schema = b.schema := by
  cases h with
  | arrived schema => exact ⟨.arrived schema l, rfl⟩
  | ranked schema hs hb => exact ⟨.settled schema _ _, rfl⟩
  | settled schema o => exact ⟨.settled schema o l, rfl⟩

theorem Stores.mergeUnordered {bound : Nat} {tally : MergeTally} {b' : Block} (h : b.Stores l)
    (hmerge : b.mergeUnordered source bound = (.ok tally, b')) :
    b.schema.cover? source.schema = some b'.schema ∧
      b'.Stores (l ++ source.output.take (bound - l.length)) := by
  obtain ⟨hb, hc⟩ := of_mergeUnordered_ok hmerge
  obtain ⟨c, hcov⟩ := Schema.exists_cover? hc
  cases h with
  | arrived schema =>
    obtain ⟨tally', hmerge'⟩ := mergeUnordered_arrived rfl hc hcov bound
    rw [hmerge] at hmerge'
    cases hmerge'
    exact ⟨hcov, .arrived c _⟩
  | ranked | settled => exact absurd rfl hb

theorem stores_rebound {o : RowOrder} {s : TopK o.compare} (hs : s.Stores l)
    (hb : l.length ≤ s.capacity) (bound : Nat) :
    (rebound o s bound).1 = l.length - bound ∧ ∃ l₀, (rebound o s bound).2.Stores l₀ ∧
      l₀.Subperm l ∧ (rebound o s bound).2.capacity = bound ∧ l₀.length = min bound l.length := by
  unfold rebound
  by_cases hcap : s.capacity = bound
  · rw [if_pos hcap]
    exact ⟨by omega, l, hs, .refl l, hcap, by omega⟩
  · obtain ⟨l₀, hs₀, hsub, hlen, hcap'⟩ := hs.setCapacity bound
    rw [if_neg hcap]
    exact ⟨hs.length_setCapacity bound, l₀, hs₀, hsub, hcap', hlen⟩

theorem stores_reopen (o : RowOrder) (rows : List Row) (bound : Nat) :
    (reopen o rows bound).1 = rows.length - bound ∧ ∃ l₀, (reopen o rows bound).2.Stores l₀ ∧
      l₀.Subperm rows ∧ (reopen o rows bound).2.capacity = bound ∧
      l₀.length = min bound rows.length := by
  have hempty := TopK.stores_empty o.compare bound
  obtain ⟨l₀, hs₀, hsub, hlen, hcap⟩ := hempty.offerAll (by simp) rows
  have hcount := hempty.size_offerAll (by simp) rows
  rw [hs₀.size_eq, hempty.size_eq, hlen] at hcount
  have hcapacity : (TopK.empty bound : TopK o.compare).capacity = bound := rfl
  rw [hcapacity, List.length_nil, Nat.zero_add] at hlen hcount
  have hgone : (reopen o rows bound).1 =
      discards (TopK.offerAll rows (TopK.empty bound : TopK o.compare)).1 := rfl
  exact ⟨by omega, l₀, hs₀, by simpa using hsub, hcap, hlen⟩

theorem Stores.exists_opened (h : b.Stores l) (hb : b.isOrdered) (bound : Nat) :
    ∃ o, ∃ s : TopK o.compare, ∃ l₀, b.opened? bound = some (l.length - bound, ⟨o, s⟩) ∧
      s.Stores l₀ ∧ l₀.Subperm l ∧ s.capacity = bound ∧ l₀.length = min bound l.length := by
  cases h with
  | arrived => cases hb
  | @ranked schema o s l hs hb =>
    obtain ⟨hgone, l₀, hs₀⟩ := stores_rebound hs hb bound
    exact ⟨o, _, l₀, hgone ▸ opened?_ranked rfl bound, hs₀⟩
  | settled schema o =>
    obtain ⟨hgone, l₀, hs₀⟩ := stores_reopen o l bound
    exact ⟨o, _, l₀, hgone ▸ opened?_settled rfl bound, hs₀⟩

/-- A merge under an order that succeeds keeps as many of the rows as it may. -/
theorem Stores.mergeOrdered {bound : Nat} {tally : MergeTally} {b' : Block} (h : b.Stores l)
    (hmerge : b.mergeOrdered source bound = (.ok tally, b')) :
    b.schema.cover? source.schema = some b'.schema ∧
      ∃ l', b'.Stores l' ∧ l'.Subperm (l ++ source.output) ∧
        l'.length = min bound (l.length + source.output.length) := by
  obtain ⟨hb, hc⟩ := of_mergeOrdered_ok hmerge
  obtain ⟨c, hcov⟩ := Schema.exists_cover? hc
  obtain ⟨o, s, l₀, hopen, hs₀, hsub₀, hcap₀, hlen₀⟩ := h.exists_opened hb bound
  rw [mergeOrdered_eq hopen hc hcov] at hmerge
  obtain ⟨-, rfl⟩ := Prod.mk.inj hmerge
  obtain ⟨l', hs', hsub', hlen', hcap'⟩ := hs₀.offerAll (by omega) source.output
  refine ⟨hcov, l', .ranked c hs' (by omega), ?_, by omega⟩
  exact hsub'.trans ((List.subperm_append_right _).mpr hsub₀)

end Block

end SelectMerge

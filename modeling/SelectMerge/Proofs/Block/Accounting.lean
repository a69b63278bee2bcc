import SelectMerge.Proofs.Block.Folding

/-!
# What a merge counts

`MergeTally.Accounts` says what a tally has to tell of a merge: rows held before and offered are
rows held afterwards and discarded, no more are kept than were offered, the schema is said to have
changed exactly if it has. `Stores.accounts` proves it of every merge that succeeds, whatever the
order of the target and the state of its selection: both kinds of merges know how many rows went
(`Block.Stores`), and a row that is admitted and evicted again by a later one counts as kept and as
discarded.
-/

namespace SelectMerge

open Merging

/-- Whether a tally accounts for a merge that made `b'` of the target `b`. -/
structure MergeTally.Accounts (tally : MergeTally) (source b b' : Block) : Prop where
  rowsIn : tally.rowsIn = source.output.length
  balance : b.length + tally.rowsIn = b'.length + tally.rowsDiscarded
  rowsKept : tally.rowsKept ≤ tally.rowsIn
  rowsDiscarded : tally.rowsIn - tally.rowsKept ≤ tally.rowsDiscarded
  schemaUpgraded : tally.schemaUpgraded ↔ b'.schema ≠ b.schema

theorem MergeTally.Accounts.toNat_schemaUpgraded {tally : MergeTally} {source b b' : Block}
    (h : tally.Accounts source b b') :
    tally.schemaUpgraded.toNat = if b.schema = b'.schema then 0 else 1 := by
  have hiff := h.schemaUpgraded
  cases hupgraded : tally.schemaUpgraded with
  | false => simp_all
  | true => simp_all [Ne.symm]

namespace Block

variable {b b' source : Block} {l : List Row} {bound : Nat} {tally : MergeTally}

theorem Stores.accounts_mergeUnordered (h : b.Stores l)
    (hmerge : b.mergeUnordered source bound = (.ok tally, b')) : tally.Accounts source b b' := by
  obtain ⟨hb, hc⟩ := of_mergeUnordered_ok hmerge
  obtain ⟨c, hcov⟩ := Schema.exists_cover? hc
  have hlength := h.length_eq
  have hlength' := (h.mergeUnordered hmerge).2.length_eq
  rw [List.length_append, List.length_take] at hlength'
  cases h with
  | arrived schema =>
    rw [mergeUnordered_eq rfl hc hcov] at hmerge
    obtain ⟨htally, rfl⟩ := Prod.mk.inj hmerge
    obtain rfl := Except.ok.inj htally
    refine ⟨rfl, ?_, Nat.min_le_right _ _, ?_, by simp⟩
    · show _ + source.output.length = _ + (source.output.length - _)
      omega
    · exact Nat.le_refl _
  | ranked | settled => exact absurd rfl hb

theorem Stores.accounts_mergeOrdered (h : b.Stores l)
    (hmerge : b.mergeOrdered source bound = (.ok tally, b')) : tally.Accounts source b b' := by
  obtain ⟨hb, hc⟩ := of_mergeOrdered_ok hmerge
  obtain ⟨c, hcov⟩ := Schema.exists_cover? hc
  obtain ⟨o, s, l₀, hopen, hs₀, -, hcap₀, hlen₀⟩ := h.exists_opened hb bound
  have hlength := h.length_eq
  have hcount := hs₀.size_offerAll (by omega) source.output
  have hrejected := rejections_le_discards (TopK.offerAll source.output s).1
  rw [mergeOrdered_eq hopen hc hcov] at hmerge
  obtain ⟨htally, rfl⟩ := Prod.mk.inj hmerge
  obtain rfl := Except.ok.inj htally
  refine ⟨rfl, ?_, Nat.sub_le _ _, ?_, by simp⟩
  · show _ + source.output.length = (TopK.offerAll source.output s).2.size + (_ + _)
    rw [hs₀.size_eq] at hcount
    omega
  · show source.output.length - (source.output.length - _) ≤ _ + _
    omega

/-- Every merge that succeeds accounts for its rows. -/
theorem Stores.accounts {action : Action} (h : b.Stores l)
    (hperform : b.perform action = (.ok (some tally), b')) :
    ∃ source, action.source? = some source ∧ tally.Accounts source b b' := by
  cases action with
  | mergeUnordered source bound =>
    rcases hmerge : b.mergeUnordered source bound with ⟨answer, b''⟩
    simp only [Block.perform, hmerge, Prod.mk.injEq, map_eq_ok_iff, Option.some.injEq] at hperform
    obtain ⟨⟨_, rfl, rfl⟩, rfl⟩ := hperform
    exact ⟨source, rfl, h.accounts_mergeUnordered hmerge⟩
  | mergeOrdered source bound =>
    rcases hmerge : b.mergeOrdered source bound with ⟨answer, b''⟩
    simp only [Block.perform, hmerge, Prod.mk.injEq, map_eq_ok_iff, Option.some.injEq] at hperform
    obtain ⟨⟨_, rfl, rfl⟩, rfl⟩ := hperform
    exact ⟨source, rfl, h.accounts_mergeOrdered hmerge⟩
  | settle => cases hperform

end Block

end SelectMerge

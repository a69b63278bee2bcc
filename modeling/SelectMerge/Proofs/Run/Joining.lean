import SelectMerge.Proofs.Run.Ledger
import SelectMerge.Proofs.Schema.LeastCover

/-!
# Blocks that can be joined

A run in time succeeds exactly if the blocks with rows are pairwise compatible and the order of the
query is valid for them, whatever their columns are called (`Joinable`). It then ends with the cover
of their schemas and the rows that the combiner keeps of all that they hold (`reduce_eq_ok_iff`).

The proof is about ledgers: `total` is the ledger of blocks that were joined, and the next block is
noted in it if it can be joined with those before, and refused otherwise (`enter_total`).
-/

namespace SelectMerge

/-! ## Joinable blocks -/

theorem RowOrder.validate_of_isCompatible {o : RowOrder} {s u : Schema} (hs : s.Aligned)
    (hu : u.Aligned) (hcompat : s.isCompatible u) (hvalid : o.validate s = .ok ()) :
    o.validate u = .ok () :=
  validate_of_compatible (Schema.length_eq_of_isCompatible hcompat)
    ((Schema.isCompatible_iff hs hu).mp hcompat) hvalid

/-- Whether blocks can be joined by a combiner: their types are compatible, whatever the columns are
called, and its order is valid for them. -/
structure Joinable (c : Combiner) (bs : List Block) : Prop where
  compatible : ∀ a ∈ bs, ∀ b ∈ bs, a.schema.isCompatible b.schema
  valid : ∀ o, c.order? = some o → ∀ b ∈ bs, o.validate b.schema = .ok ()

namespace Joinable

variable {c : Combiner} {bs bs' : List Block} {b : Block} {u : Schema}

theorem nil (c : Combiner) : Joinable c [] := ⟨by simp, by simp⟩

theorem mono (h : Joinable c bs) (hsub : bs' ⊆ bs) : Joinable c bs' where
  compatible a ha b hb := h.compatible a (hsub ha) b (hsub hb)
  valid o ho b hb := h.valid o ho b (hsub hb)

theorem singleton_iff : Joinable c [b] ↔ ∀ o, c.order? = some o → o.validate b.schema = .ok () := by
  constructor
  · intro h o ho
    exact h.valid o ho b (by simp)
  · intro h
    refine ⟨?_, ?_⟩
    · intro a ha a' ha'
      rw [List.mem_singleton.mp ha, List.mem_singleton.mp ha']
      exact Schema.isCompatible_self b.schema
    · intro o ho a ha
      rw [List.mem_singleton.mp ha]
      exact h o ho

theorem exists_coverAll?_iff (hne : bs ≠ []) (haligned : ∀ b ∈ bs, b.schema.Aligned) :
    (∃ u, Schema.coverAll? (bs.map (·.schema)) = some u) ↔
      ∀ a ∈ bs, ∀ b ∈ bs, a.schema.isCompatible b.schema := by
  rw [Schema.exists_coverAll?_iff (by simpa using hne) (List.forall_mem_map.mpr haligned),
    List.forall_mem_map]
  exact forall₂_congr fun a _ => List.forall_mem_map

theorem exists_coverAll? (h : Joinable c bs) (hne : bs ≠ [])
    (haligned : ∀ b ∈ bs, b.schema.Aligned) :
    ∃ u, Schema.coverAll? (bs.map (·.schema)) = some u :=
  (exists_coverAll?_iff hne haligned).mpr h.compatible

theorem of_coverAll? (haligned : ∀ b ∈ bs, b.schema.Aligned)
    (hu : Schema.coverAll? (bs.map (·.schema)) = some u)
    (hvalid : ∀ o, c.order? = some o → ∃ b ∈ bs, o.validate b.schema = .ok ()) :
    Joinable c bs := by
  have hne : bs ≠ [] := by
    rintro rfl
    cases hu
  have hcompat := (exists_coverAll?_iff hne haligned).mp ⟨u, hu⟩
  refine ⟨hcompat, ?_⟩
  intro o ho b hb
  obtain ⟨a, ha, hvalid⟩ := hvalid o ho
  exact RowOrder.validate_of_isCompatible (haligned a ha) (haligned b hb) (hcompat a ha b hb) hvalid

theorem concat_iff (h : Joinable c bs) (hne : bs ≠ [])
    (haligned : ∀ a ∈ bs ++ [b], a.schema.Aligned)
    (hu : Schema.coverAll? (bs.map (·.schema)) = some u) :
    Joinable c (bs ++ [b]) ↔ u.isCompatible b.schema := by
  have hconcat : Schema.coverAll? ((bs ++ [b]).map (·.schema)) = u.cover? b.schema := by
    rw [List.map_append, List.map_singleton, Schema.coverAll?_concat (by simpa using hne), hu,
      Option.bind_some]
  rw [← Schema.exists_cover?_iff, ← hconcat]
  constructor
  · intro h'
    exact (exists_coverAll?_iff (by simp) haligned).mpr h'.compatible
  · rintro ⟨v, hv⟩
    obtain ⟨a, ha⟩ := List.exists_mem_of_ne_nil bs hne
    exact .of_coverAll? haligned hv fun o ho => ⟨a, by simp [ha], h.valid o ho a ha⟩

end Joinable

/-! ## Ledgers of blocks that can be joined -/

/-- Whether a reading of the clock comes before the deadline. -/
def InTime (deadline : Option Nat) (now : Nat) : Prop := ∀ d, deadline = some d → now < d

theorem inTime_none (now : Nat) : InTime none now := by
  intro d hd
  cases hd

theorem InTime.any_eq_false {deadline : Option Nat} {now : Nat} (h : InTime deadline now) :
    deadline.any (· ≤ now) = false := by
  cases deadline with
  | none => rfl
  | some d => simpa using h d rfl

theorem inTime_of_any_eq_false {deadline : Option Nat} {now : Nat}
    (h : deadline.any (· ≤ now) = false) : InTime deadline now := by
  rintro d rfl
  simpa using h

section Nonempty

variable {bs : List Block} {b : Block}

theorem nonempty_concat_of_isEmpty (hb : b.isEmpty) : nonempty (bs ++ [b]) = nonempty bs := by
  simp [nonempty, hb]

theorem nonempty_concat (hb : b.isEmpty = false) : nonempty (bs ++ [b]) = nonempty bs ++ [b] := by
  simp [nonempty, hb]

theorem nonempty_subset (bs : List Block) : nonempty bs ⊆ bs := List.filter_sublist.subset

end Nonempty

namespace Ledger

variable {c : Combiner} {seen : List Block} {b : Block} {sel : Selection}

/-- The ledger of a run that has joined some blocks. -/
def total (bs : List Block) : Ledger :=
  ⟨Schema.coverAll? ((nonempty bs).map (·.schema)), bs.flatMap (·.output), bs.findSome? (·.lent?),
    (nonempty bs).length⟩

theorem enter_total_of_isEmpty (c : Combiner) (seen : List Block) (hb : b.isEmpty) :
    (total seen).enter c b = .ok (total (seen ++ [b])) := by
  rw [enter_of_isEmpty hb, total, total, nonempty_concat_of_isEmpty hb, List.flatMap_append,
    List.flatMap_singleton, Block.output_eq_nil hb, List.append_nil, List.findSome?_append,
    List.findSome?_singleton]

theorem total_concat (hb : b.isEmpty = false) : total (seen ++ [b]) =
    ⟨Schema.coverAll? ((nonempty seen ++ [b]).map (·.schema)), (total seen).rows ++ b.output,
      (total seen).fallback, (total seen).merged + 1⟩ := by
  have hlent : b.lent? = none := by simp [Block.lent?, hb]
  rw [total, nonempty_concat hb, List.flatMap_append, List.flatMap_singleton,
    List.findSome?_append, List.findSome?_singleton, hlent, Option.or_none, List.length_append]
  rfl

theorem enter_total_first (hnil : nonempty seen = []) (hb : b.isEmpty = false) :
    (Joinable c [b] ∧ (total seen).enter c b = .ok (total (seen ++ [b]))) ∨
      (¬ Joinable c [b] ∧ ∃ e, (total seen).enter c b = .error e) := by
  have hbase : (total seen).base c b.schema = (c.create b.schema).map (·.schema) := by
    rw [base, total, hnil]
    rfl
  rw [Joinable.singleton_iff, ← Combiner.exists_create_iff, enter_of_not_isEmpty hb, hbase,
    total_concat hb, hnil]
  cases hcreate : c.create b.schema with
  | error e => exact .inr ⟨by simp, e, rfl⟩
  | ok t =>
    have hself : b.schema.cover b.schema = .ok b.schema :=
      Schema.cover_eq_ok_iff.mpr (Schema.cover?_self b.schema)
    refine .inl ⟨⟨t, rfl⟩, ?_⟩
    simp only [Except.map, Except.bind, (Combiner.combined_of_create hcreate).1, hself]
    rfl

theorem enter_total_later {u : Schema} (hb : b.isEmpty = false) (hne : nonempty seen ≠ [])
    (hu : Schema.coverAll? ((nonempty seen).map (·.schema)) = some u) :
    (u.isCompatible b.schema ∧ (total seen).enter c b = .ok (total (seen ++ [b]))) ∨
      (¬ u.isCompatible b.schema ∧ ∃ e, (total seen).enter c b = .error e) := by
  have hbase : (total seen).base c b.schema = .ok u := by
    rw [base, total, hu]
  rw [enter_of_not_isEmpty hb, hbase, total_concat hb, List.map_append, List.map_singleton,
    Schema.coverAll?_concat (by simpa using hne), hu, Option.bind_some]
  by_cases hcompat : u.isCompatible b.schema
  · obtain ⟨v, hv⟩ := Schema.exists_cover? hcompat
    refine .inl ⟨hcompat, ?_⟩
    simp only [Except.bind, Schema.cover_eq_ok_iff.mpr hv, Except.map, hv]
  · refine .inr ⟨hcompat, .schemaMismatch u.text b.schema.text, ?_⟩
    simp only [Except.bind, Schema.cover_of_not_isCompatible hcompat, Except.map]

/-- The next block is noted if it can be joined with those before, and refused otherwise. -/
theorem enter_total (hseen : Joinable c (nonempty seen))
    (haligned : ∀ a ∈ seen ++ [b], a.schema.Aligned) :
    (Joinable c (nonempty (seen ++ [b])) ∧ (total seen).enter c b = .ok (total (seen ++ [b]))) ∨
      (¬ Joinable c (nonempty (seen ++ [b])) ∧ ∃ e, (total seen).enter c b = .error e) := by
  cases hb : b.isEmpty with
  | true =>
    rw [nonempty_concat_of_isEmpty hb]
    exact .inl ⟨hseen, enter_total_of_isEmpty c seen hb⟩
  | false =>
    rw [nonempty_concat hb]
    by_cases hnil : nonempty seen = []
    · rw [hnil, List.nil_append]
      exact enter_total_first hnil hb
    · have haligned' : ∀ a ∈ nonempty seen ++ [b], a.schema.Aligned := by
        rw [← nonempty_concat hb]
        exact fun a ha => haligned a (nonempty_subset _ ha)
      obtain ⟨u, hu⟩ := hseen.exists_coverAll? hnil
        fun a ha => haligned' a (List.mem_append_left _ ha)
      rw [hseen.concat_iff hnil haligned' hu]
      exact enter_total_later hb hnil hu

theorem run_total_eq_ok_iff {deadline : Option Nat} {bs : List (Timed Block)}
    (hclock : ∀ b ∈ bs, InTime deadline b.now)
    (haligned : ∀ a ∈ seen ++ bs.map (·.item), a.schema.Aligned)
    (hseen : Joinable c (nonempty seen)) :
    run c deadline bs (total seen) = .ok sel ↔
      Joinable c (nonempty (seen ++ bs.map (·.item))) ∧
        sel = (total (seen ++ bs.map (·.item))).selection c := by
  induction bs generalizing seen with
  | nil =>
    rw [run, List.map_nil, List.append_nil, Except.ok.injEq, eq_comm, and_iff_right hseen]
  | cons b bs ih =>
    have hlate : deadline.any (· ≤ b.now) = false := (hclock b (by simp)).any_eq_false
    rw [List.map_cons, List.append_cons] at haligned ⊢
    have hwith : ∀ a ∈ seen ++ [b.item], a.schema.Aligned :=
      fun a ha => haligned a (List.mem_append_left _ ha)
    rw [run, hlate]
    rcases enter_total hseen hwith with ⟨hjoin, henter⟩ | ⟨hnot, e, henter⟩
    · rw [henter]
      exact ih (fun b hb => hclock b (by simp [hb])) haligned hjoin
    · rw [henter]
      have hall : ¬ Joinable c (nonempty (seen ++ [b.item] ++ bs.map (·.item))) := fun hall =>
        hnot (hall.mono (List.filter_subset _ (List.subset_append_left _ _)))
      refine ⟨?_, fun h => absurd h.1 hall⟩
      intro h
      cases h

end Ledger

/-! ## Reductions -/

namespace Reducer

variable {r : Reducer} {bs : List (Timed Block)} {sel : Selection}

/-- A reduction in time succeeds exactly if the blocks with rows can be joined, and ends with what
the ledger of all blocks tells. -/
theorem reduce_eq_ok_iff (hclock : ∀ b ∈ bs, InTime r.settings.timeoutMs b.now)
    (haligned : ∀ b ∈ bs, b.item.schema.Aligned)
    (hcons : r.combiner.Consistent (bs.flatMap (·.item.output))) :
    (r.reduce bs).1 = .ok sel ↔ Joinable r.combiner (nonempty (bs.map (·.item))) ∧
      sel = (Ledger.total (bs.map (·.item))).selection r.combiner := by
  rw [← mapError_eq_ok_iff (f := Halt.settle), reduce_eq_run hcons]
  have haligned' : ∀ b ∈ [] ++ bs.map (·.item), b.schema.Aligned := List.forall_mem_map.mpr haligned
  exact Ledger.run_total_eq_ok_iff hclock haligned' (.nil r.combiner)

end Reducer

end SelectMerge

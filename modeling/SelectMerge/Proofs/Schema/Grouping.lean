import SelectMerge.Proofs.Outcome
import SelectMerge.Proofs.Schema.LeastCover

/-!
# Covers in any grouping

Partial results meet in whatever order and grouping they come, so the covers of their schemas are
taken along a tree (`Grouping`). There is a cover at its root exactly if the schemas at its leaves
are pairwise compatible (`exists_cover_iff`), and its types are the same for every tree with these
leaves (`cover_perm`). By induction over the tree its cover is a least one of all leaves
(`isCover_of_cover`), and least covers are unique but for their names.
-/

namespace SelectMerge

/-- Schemas put together in pairs. -/
inductive Grouping where
  | one (s : Schema)
  | pair (left right : Grouping)

namespace Grouping

/-- The schemas from left to right. -/
def leaves : Grouping → List Schema
  | one s => [s]
  | pair l r => l.leaves ++ r.leaves

def leftmost : Grouping → Schema
  | one s => s
  | pair l _ => l.leftmost

/-- The cover of the covers of the two sides. -/
def cover : Grouping → Except MergeError Schema
  | one s => .ok s
  | pair l r => do (← l.cover).cover (← r.cover)

variable {g g' l r : Grouping} {c : Schema}

theorem leaves_ne_nil (g : Grouping) : g.leaves ≠ [] := by
  induction g with
  | one s => simp [leaves]
  | pair l r hl _ => simp [leaves, hl]

theorem cover_pair_eq_ok_iff : (pair l r).cover = .ok c ↔
    ∃ a b, l.cover = .ok a ∧ r.cover = .ok b ∧ a.cover? b = some c := by
  rw [cover, bind_eq_ok_iff]
  simp only [bind_eq_ok_iff, Schema.cover_eq_ok_iff, exists_and_left]

theorem isCover_of_cover (haligned : ∀ s ∈ g.leaves, s.Aligned) (h : g.cover = .ok c) :
    Schema.IsCover g.leaves c ∧ c.names = g.leftmost.names := by
  induction g generalizing c with
  | one s =>
    obtain rfl := Except.ok.inj h
    exact ⟨.singleton (haligned s (by simp [leaves])), rfl⟩
  | pair l r hl hr =>
    obtain ⟨a, b, ha, hb, hc⟩ := cover_pair_eq_ok_iff.mp h
    obtain ⟨hleft, hright⟩ := List.forall_mem_append.mp haligned
    obtain ⟨hla, hnames⟩ := hl hleft ha
    obtain ⟨hrb, -⟩ := hr hright hb
    exact ⟨hla.append hrb hc, (Schema.cover?_eq_some_iff.mp hc).2.2.trans hnames⟩

theorem exists_cover (haligned : ∀ s ∈ g.leaves, s.Aligned)
    (h : ∀ a ∈ g.leaves, ∀ b ∈ g.leaves, a.isCompatible b) : ∃ c, g.cover = .ok c := by
  induction g with
  | one s => exact ⟨s, rfl⟩
  | pair l r hl hr =>
    obtain ⟨hleft, hright⟩ := List.forall_mem_append.mp haligned
    obtain ⟨a, ha⟩ := hl hleft fun s hs t ht => h s (by simp [leaves, hs]) t (by simp [leaves, ht])
    obtain ⟨b, hb⟩ := hr hright fun s hs t ht => h s (by simp [leaves, hs]) t (by simp [leaves, ht])
    obtain ⟨hla, -⟩ := isCover_of_cover hleft ha
    obtain ⟨hrb, -⟩ := isCover_of_cover hright hb
    -- the covers of the two sides are compatible because a leaf of each is
    obtain ⟨s, hs⟩ := List.exists_mem_of_ne_nil _ l.leaves_ne_nil
    obtain ⟨t, ht⟩ := List.exists_mem_of_ne_nil _ r.leaves_ne_nil
    have hst : s.isCompatible t := h s (by simp [leaves, hs]) t (by simp [leaves, ht])
    have hat : a.isCompatible t :=
      Schema.isCompatible_trans hla.aligned (hleft s hs) (hright t ht) (hla.isCompatible hs) hst
    have htb : t.isCompatible b :=
      Schema.isCompatible_symm hrb.aligned (hright t ht) (hrb.isCompatible ht)
    obtain ⟨c, hc⟩ := Schema.exists_cover?
      (Schema.isCompatible_trans hla.aligned (hright t ht) hrb.aligned hat htb)
    exact ⟨c, cover_pair_eq_ok_iff.mpr ⟨a, b, ha, hb, hc⟩⟩

theorem exists_cover_iff (haligned : ∀ s ∈ g.leaves, s.Aligned) :
    (∃ c, g.cover = .ok c) ↔ ∀ a ∈ g.leaves, ∀ b ∈ g.leaves, a.isCompatible b := by
  refine ⟨?_, exists_cover haligned⟩
  rintro ⟨c, hc⟩
  exact (isCover_of_cover haligned hc).1.pairwise

/-- Compatibility is an equivalence, and two schemas have a cover exactly if they are compatible.
Schemas in any grouping have one exactly if they are pairwise compatible; it has the names of the
leftmost, all columns widen to its columns, and every other grouping of the same schemas, in any
order, has a cover of the same types. -/
theorem cover_perm :
    Equivalence (fun a b : { s : Schema // s.Aligned } => a.1.isCompatible b.1 = true) ∧
      (∀ a b : Schema, a.Aligned → b.Aligned →
        ((∃ c, a.cover b = .ok c) ↔ a.isCompatible b = true)) ∧
      ∀ g : Grouping, (∀ s ∈ g.leaves, s.Aligned) →
        ((∃ c, g.cover = .ok c) ↔ ∀ a ∈ g.leaves, ∀ b ∈ g.leaves, a.isCompatible b = true) ∧
        ∀ c, g.cover = .ok c → c.names = g.leftmost.names ∧
          (∀ s ∈ g.leaves, List.Forall₂ (fun t u => t.widensTo u = true) s.types c.types) ∧
          ∀ g' : Grouping, g.leaves.Perm g'.leaves →
            ∃ c', g'.cover = .ok c' ∧ c'.types = c.types := by
  refine ⟨⟨?_, ?_, ?_⟩, ?_, ?_⟩
  · exact fun a => Schema.isCompatible_self a.1
  · exact fun {a b} hab => Schema.isCompatible_symm a.2 b.2 hab
  · exact fun {a b c} hab hbc => Schema.isCompatible_trans a.2 b.2 c.2 hab hbc
  · intro a b _ _
    simp only [Schema.cover_eq_ok_iff]
    exact Schema.exists_cover?_iff
  intro g haligned
  refine ⟨exists_cover_iff haligned, ?_⟩
  intro c hc
  obtain ⟨hcover, hnames⟩ := isCover_of_cover haligned hc
  refine ⟨hnames, fun s hs => hcover.widensTo hs, ?_⟩
  intro g' hperm
  have haligned' : ∀ s ∈ g'.leaves, s.Aligned := fun s hs => haligned s (hperm.mem_iff.mpr hs)
  obtain ⟨c', hc'⟩ := exists_cover haligned' fun a ha b hb =>
    hcover.pairwise a (hperm.mem_iff.mpr ha) b (hperm.mem_iff.mpr hb)
  obtain ⟨hcover', -⟩ := isCover_of_cover haligned' hc'
  exact ⟨c', hc', (hcover.types_eq hcover' (fun s => hperm.mem_iff) g.leaves_ne_nil).symm⟩

/-! ### Measures -/

/-- A schema of one measure and a mark. -/
def measure (name : String) (t : Scalar) : Grouping :=
  one (.ofColumns [(name, .one t), ("mark", .many .int)])

/-- Whole numbers meet at LONG and the weights then at DOUBLE; the other way round, INT and FLOAT
meet at DOUBLE at once. -/
theorem cover_perm_measures :
    let g := pair (pair (measure "tally" .int) (measure "total" .long)) (measure "weight" .float)
    let g' := pair (pair (measure "weight" .float) (measure "tally" .int)) (measure "total" .long)
    (∀ s ∈ g.leaves, s.Aligned) ∧ g.leaves.Perm g'.leaves ∧
      g.cover = .ok (.ofColumns [("tally", .one .double), ("mark", .many .int)]) ∧
      ∃ c', g'.cover = .ok c' ∧ c'.types = [.one .double, .many .int] := by
  intro g g'
  have haligned : ∀ s ∈ g.leaves, s.Aligned := by
    intro s hs
    simp only [g, leaves, measure, List.cons_append, List.nil_append, List.mem_cons,
      List.not_mem_nil, or_false] at hs
    rcases hs with rfl | rfl | rfl <;> rfl
  have hperm : g.leaves.Perm g'.leaves := by
    have hswap (l l' : List Schema) : (l ++ l').Perm (l' ++ l) := List.perm_append_comm
    exact hswap (pair (measure "tally" .int) (measure "total" .long)).leaves _
  have hcover : g.cover = .ok (.ofColumns [("tally", .one .double), ("mark", .many .int)]) := rfl
  obtain ⟨-, -, hall⟩ := (cover_perm.2.2 g haligned).2 _ hcover
  exact ⟨haligned, hperm, hcover, hall g' hperm⟩

end Grouping

end SelectMerge

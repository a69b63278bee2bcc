import Mathlib.Data.List.Forall2
import Mathlib.Data.List.Pairwise
import SelectMerge.Proofs.Rank.StableSort

/-!
# Sorting the same items from another order

Two sorted lists of the same items tie place by place (`forall₂_tie_stableSort`), and where no items
tie they are one list (`stableSort_eq_of_perm`). The first rests on a count: sorted lists with as
many items up to any bound tie at every place (`forall₂_tie_of_countP`).
-/

namespace SelectMerge

variable {α : Type} {cmp : α → α → Ordering} {S : α → Prop} {xs ys l l' : List α}

/-- Sorted lists with as many items up to any bound tie place by place. -/
theorem forall₂_tie_of_countP (h : TotalPreorderOn cmp S) (hxs : ∀ x ∈ xs, S x)
    (hys : ∀ y ∈ ys, S y) (hx : Listed cmp xs) (hy : Listed cmp ys)
    (hlen : xs.length = ys.length)
    (hcount : ∀ r, S r → xs.countP (fun x => cmp x r ≠ .gt) = ys.countP fun y => cmp y r ≠ .gt) :
    List.Forall₂ (fun x y => cmp x y = .eq) xs ys := by
  induction xs generalizing ys with
  | nil =>
    obtain rfl := List.length_eq_zero_iff.mp hlen.symm
    exact .nil
  | cons x xs ih =>
    cases ys with
    | nil => cases hlen
    | cons y ys =>
      have hSx : S x := hxs x (by simp)
      have hSy : S y := hys y (by simp)
      obtain ⟨hxle, hx⟩ := List.pairwise_cons.mp hx
      obtain ⟨hyle, hy⟩ := List.pairwise_cons.mp hy
      -- one of the `ys` is not after `x`, so the first of them is not either, and the converse
      have hfirst : ∀ {x y : α} {xs ys : List α}, S x → S y → (∀ y ∈ ys, S y) →
          (∀ z ∈ ys, cmp y z ≠ .gt) →
          (x :: xs).countP (fun z => cmp z x ≠ .gt) =
            (y :: ys).countP (fun z => cmp z x ≠ .gt) → cmp y x ≠ .gt := by
        intro x y xs ys hSx hSy hys hyle hcount
        have hself : cmp x x ≠ .gt := by simp [h.self hSx]
        have hpos : 0 < (y :: ys).countP fun z => cmp z x ≠ .gt := by
          rw [← hcount, List.countP_cons_of_pos (by simpa using hself)]
          omega
        obtain ⟨z, hz, hzx⟩ := List.countP_pos_iff.mp hpos
        have hzx : cmp z x ≠ .gt := by simpa using hzx
        rcases List.mem_cons.mp hz with rfl | hz
        · exact hzx
        · exact h.trans y z x hSy (hys z hz) hSx (hyle z hz) hzx
      have hyx : cmp y x ≠ .gt :=
        hfirst hSx hSy (fun z hz => hys z (by simp [hz])) hyle (hcount x hSx)
      have hxy : cmp x y ≠ .gt :=
        hfirst hSy hSx (fun z hz => hxs z (by simp [hz])) hxle (hcount y hSy).symm
      have htie : cmp x y = .eq := by
        cases hcmp : cmp x y with
        | eq => rfl
        | gt => exact absurd hcmp hxy
        | lt => exact absurd ((h.lt_iff_gt hSx hSy).mp hcmp) hyx
      refine .cons htie (ih (fun z hz => hxs z (by simp [hz])) (fun z hz => hys z (by simp [hz]))
        hx hy (by simpa using hlen) ?_)
      intro r hr
      have hall := hcount r hr
      rw [List.countP_cons, List.countP_cons, h.eq_of_tie hSx hSy hr htie] at hall
      omega

theorem forall₂_tie_stableSort (h : TotalPreorderOn cmp (· ∈ l)) (hperm : l.Perm l') :
    List.Forall₂ (fun x y => cmp x y = .eq) (stableSort cmp l) (stableSort cmp l') := by
  have hmem : ∀ x ∈ l', x ∈ l := fun x hx => hperm.mem_iff.mpr hx
  have hsorted : (stableSort cmp l).Perm (stableSort cmp l') :=
    (stableSort_perm l).trans (hperm.trans (stableSort_perm l').symm)
  exact forall₂_tie_of_countP h (fun x hx => mem_stableSort.mp hx)
    (fun x hx => hmem x (mem_stableSort.mp hx)) (listed_stableSort h fun x hx => hx)
    (listed_stableSort h hmem) hsorted.length_eq fun r _ => hsorted.countP_eq _

theorem stableSort_eq_of_perm (h : TotalPreorderOn cmp (· ∈ l)) (hperm : l.Perm l')
    (hne : l.Pairwise fun x y => cmp x y ≠ .eq) : stableSort cmp l = stableSort cmp l' := by
  have hapart : l.Pairwise fun x y => cmp x y ≠ .eq ∧ cmp y x ≠ .eq := by
    refine hne.imp_of_mem ?_
    intro x y hx hy hxy
    exact ⟨hxy, fun hyx => hxy ((h.eq_iff_eq hx hy).mpr hyx)⟩
  have hsymm : Std.Symm fun x y => cmp x y ≠ .eq ∧ cmp y x ≠ .eq := ⟨fun _ _ => And.symm⟩
  have hone : ∀ x ∈ l, ∀ y ∈ l, cmp x y = .eq → x = y := by
    intro x hx y hy hxy
    by_contra hdiff
    exact (hapart.forall hx hy hdiff).1 hxy
  have hties := List.forall₂_iff_zip.mp (forall₂_tie_stableSort h hperm)
  refine List.forall₂_eq_eq_eq ▸ List.forall₂_iff_zip.mpr ⟨hties.1, ?_⟩
  intro x y hxy
  have hx := mem_stableSort.mp (List.of_mem_zip hxy).1
  have hy := hperm.mem_iff.mpr (mem_stableSort.mp (List.of_mem_zip hxy).2)
  exact hone x hx y hy (hties.2 hxy)

end SelectMerge

import Mathlib.Order.Defs.LinearOrder

/-!
# Total preorders on some of the items

Cells of mixed types are not always in a consistent order, so that a comparison is a total preorder
is said of the items at hand (`TotalPreorderOn`) and not of their type. A selection only ever
compares items that it was offered, and the laws of selections and merges ask no more than this.
Here are the rules for such comparisons: turned around (`lt_iff_gt`), chained (`lt_of_lt_of_le`),
and for ties, which compare alike to every third item (`eq_of_tie`).
-/

namespace SelectMerge

variable {α : Type}

/-- The comparison is a total preorder on the items in `S`: turning it around reverses it, and what
is not after another is not after anything that this is not after. -/
structure TotalPreorderOn (cmp : α → α → Ordering) (S : α → Prop) : Prop where
  swap : ∀ a b, S a → S b → cmp a b = (cmp b a).swap
  trans : ∀ a b c, S a → S b → S c → cmp a b ≠ .gt → cmp b c ≠ .gt → cmp a c ≠ .gt

/-- The comparison is a total preorder. -/
abbrev TotalPreorder (cmp : α → α → Ordering) : Prop := TotalPreorderOn cmp fun _ => True

theorem totalPreorder_of_transCmp (cmp : α → α → Ordering) [Std.TransCmp cmp] :
    TotalPreorder cmp where
  swap _ _ _ _ := Std.OrientedCmp.eq_swap
  trans _ _ _ _ _ _ hab hbc := by
    rw [ne_eq, Ordering.ne_gt_iff_isLE] at hab hbc ⊢
    exact Std.TransCmp.isLE_trans hab hbc

namespace TotalPreorderOn

variable {cmp : α → α → Ordering} {S T : α → Prop} {a b c : α}

theorem mono (h : TotalPreorderOn cmp S) (hT : ∀ a, T a → S a) : TotalPreorderOn cmp T where
  swap a b ha hb := h.swap a b (hT a ha) (hT b hb)
  trans a b c ha hb hc := h.trans a b c (hT a ha) (hT b hb) (hT c hc)

theorem append_left {xs ys : List α} (h : TotalPreorderOn cmp (· ∈ xs ++ ys)) :
    TotalPreorderOn cmp (· ∈ xs) := h.mono fun _ => List.mem_append_left _

theorem self (h : TotalPreorderOn cmp S) (ha : S a) : cmp a a = .eq := by
  have hs := h.swap a a ha ha
  cases hc : cmp a a <;> simp [hc] at hs ⊢

theorem lt_iff_gt (h : TotalPreorderOn cmp S) (ha : S a) (hb : S b) :
    cmp a b = .lt ↔ cmp b a = .gt := by
  rw [h.swap a b ha hb, Ordering.swap_eq_lt]

theorem eq_iff_eq (h : TotalPreorderOn cmp S) (ha : S a) (hb : S b) :
    cmp a b = .eq ↔ cmp b a = .eq := by
  rw [h.swap a b ha hb, Ordering.swap_eq_eq]

theorem le_of_not_lt (h : TotalPreorderOn cmp S) (ha : S a) (hb : S b) (hab : cmp a b ≠ .lt) :
    cmp b a ≠ .gt := fun hba => hab ((h.lt_iff_gt ha hb).mpr hba)

theorem le_of_gt (h : TotalPreorderOn cmp S) (ha : S a) (hb : S b) (hab : cmp a b = .gt) :
    cmp b a ≠ .gt := by simp [(h.lt_iff_gt hb ha).mpr hab]

theorem lt_of_lt_of_le (h : TotalPreorderOn cmp S) (ha : S a) (hb : S b) (hc : S c)
    (hab : cmp a b = .lt) (hbc : cmp b c ≠ .gt) : cmp a c = .lt := by
  by_contra hac
  have hba : cmp b a ≠ .gt := h.trans b c a hb hc ha hbc (h.le_of_not_lt ha hc hac)
  exact hba ((h.lt_iff_gt ha hb).mp hab)

theorem lt_of_le_of_lt (h : TotalPreorderOn cmp S) (ha : S a) (hb : S b) (hc : S c)
    (hab : cmp a b ≠ .gt) (hbc : cmp b c = .lt) : cmp a c = .lt := by
  by_contra hac
  have hcb : cmp c b ≠ .gt := h.trans c a b hc ha hb (h.le_of_not_lt ha hc hac) hab
  exact hcb ((h.lt_iff_gt hb hc).mp hbc)

theorem eq_or_lt (h : TotalPreorderOn cmp S) (ha : S a) (hb : S b) (hc : S c) (hab : cmp a b ≠ .gt)
    (hbc : cmp b c ≠ .gt) : (cmp a b = .eq ∧ cmp b c = .eq ∧ cmp a c = .eq) ∨ cmp a c = .lt := by
  cases hab' : cmp a b with
  | gt => exact absurd hab' hab
  | lt => exact .inr (h.lt_of_lt_of_le ha hb hc hab' hbc)
  | eq =>
    cases hbc' : cmp b c with
    | gt => exact absurd hbc' hbc
    | lt => exact .inr (h.lt_of_le_of_lt ha hb hc hab hbc')
    | eq =>
      cases hac : cmp a c with
      | lt => exact .inr rfl
      | eq => exact .inl ⟨rfl, rfl, rfl⟩
      | gt => exact absurd hac (h.trans a b c ha hb hc hab hbc)

theorem eq_of_tie (h : TotalPreorderOn cmp S) (ha : S a) (hb : S b) (hc : S c)
    (hab : cmp a b = .eq) : cmp a c = cmp b c := by
  have hle : cmp a b ≠ .gt := by simp [hab]
  have hge : cmp b a ≠ .gt := by simp [(h.eq_iff_eq ha hb).mp hab]
  cases hbc : cmp b c with
  | lt => exact h.lt_of_le_of_lt ha hb hc hle hbc
  | gt =>
    have hcb : cmp c b = .lt := (h.lt_iff_gt hc hb).mpr hbc
    exact (h.lt_iff_gt hc ha).mp (h.lt_of_lt_of_le hc hb ha hcb hge)
  | eq =>
    have hac : cmp a c ≠ .gt := h.trans a b c ha hb hc hle (by simp [hbc])
    have hca : cmp c a ≠ .gt :=
      h.trans c b a hc hb ha (by simp [(h.eq_iff_eq hb hc).mp hbc]) hge
    cases hac' : cmp a c with
    | lt => exact absurd ((h.lt_iff_gt ha hc).mp hac') hca
    | eq => rfl
    | gt => exact absurd hac' hac

end TotalPreorderOn

end SelectMerge

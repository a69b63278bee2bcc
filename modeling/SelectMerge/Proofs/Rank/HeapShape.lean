import Mathlib.Algebra.Group.Nat.Defs
import Mathlib.Data.List.Basic
import SelectMerge.Rank.Heap

/-!
# The shape of heaps

A heap of `n` items has its nodes at the places `1` to `n` (`Fills`), where the children of place
`p` are `2 * p` and `2 * p + 1`. The digits of a place lead to it (`div_two_pow_succ`) and through
no other place on a level (`div_two_pow_ne`), so an item goes in at the first free place
(`insertAt_spec`) and comes out of the last one (`takeAt?_spec`), and every other operation leaves
the shape as it was. All of them keep the items but for the one that goes in or out. Nothing here
depends on the comparison.
-/

namespace SelectMerge

namespace HeapTree

variable {α : Type} {cmp : α → α → Ordering}

/-! ## Items -/

theorem size_eq_length (t : HeapTree α) : t.size = t.toList.length := by
  induction t with
  | leaf => rfl
  | node l x r ihl ihr => simp [size, toList, ihl, ihr]

@[simp] theorem toList_leaf : (leaf : HeapTree α).toList = [] := rfl

@[simp] theorem toList_node (l : HeapTree α) (x : α) (r : HeapTree α) :
    (node l x r).toList = x :: (l.toList ++ r.toList) := rfl

theorem node_perm_left {x : α} {items : List α} {l : HeapTree α} (hperm : l.toList.Perm (x :: items))
    (y : α) (r : HeapTree α) : (node l y r).toList.Perm (x :: y :: (items ++ r.toList)) :=
  (List.Perm.cons y (hperm.append_right _)).trans (List.Perm.swap x y _)

theorem node_perm_right {x : α} {items : List α} {r : HeapTree α}
    (hperm : r.toList.Perm (x :: items)) (y : α) (l : HeapTree α) :
    (node l y r).toList.Perm (x :: y :: (l.toList ++ items)) :=
  (List.Perm.cons y ((hperm.append_left _).trans List.perm_middle)).trans (List.Perm.swap x y _)

theorem mem_of_top? {x : α} {t : HeapTree α} (h : t.top? = some x) : x ∈ t.toList := by
  cases t with
  | leaf => cases h
  | node l y r => simp_all [top?]

theorem setTop_perm {x : α} {items : List α} {t : HeapTree α} (hx : t.top? = some x)
    (hperm : t.toList.Perm (x :: items)) (y : α) : (t.setTop y).toList.Perm (y :: items) := by
  cases t with
  | leaf => cases hx
  | node l z r =>
    obtain rfl : z = x := by simpa [top?] using hx
    exact hperm.cons_inv.cons y

/-! ## Shape -/

/-- Whether the tree, put at place `p`, has a node at every place up to `n` and at no other. -/
def Fills (n : Nat) : Nat → HeapTree α → Prop
  | p, leaf => n < p
  | p, node l _ r => p ≤ n ∧ l.Fills n (2 * p) ∧ r.Fills n (2 * p + 1)

@[simp] theorem fills_leaf {n p : Nat} : (leaf : HeapTree α).Fills n p ↔ n < p := Iff.rfl

@[simp] theorem fills_node {n p : Nat} {l : HeapTree α} {x : α} {r : HeapTree α} :
    (node l x r).Fills n p ↔ p ≤ n ∧ l.Fills n (2 * p) ∧ r.Fills n (2 * p + 1) := Iff.rfl

theorem Fills.eq_leaf {n p : Nat} {t : HeapTree α} (h : t.Fills n p) (hn : n < p) : t = leaf := by
  cases t with
  | leaf => rfl
  | node l x r => exact absurd h.1 (by omega)

theorem eq_leaf_of_left {n p : Nat} {x : α} {r : HeapTree α} (h : (node leaf x r).Fills n p) :
    r = leaf := by
  obtain ⟨-, hl, hr⟩ := fills_node.mp h
  have hn : n < 2 * p := fills_leaf.mp hl
  exact hr.eq_leaf (by omega)

@[simp] theorem fills_setTop {n p : Nat} {x : α} {t : HeapTree α} :
    (t.setTop x).Fills n p ↔ t.Fills n p := by
  cases t <;> rfl

theorem fills_succ_iff {n p : Nat} {t : HeapTree α} (hp : ∀ e, (n + 1) / 2 ^ e ≠ p) :
    t.Fills (n + 1) p ↔ t.Fills n p := by
  induction t generalizing p with
  | leaf =>
    have hne : n + 1 ≠ p := by simpa using hp 0
    simp only [fills_leaf]
    omega
  | node l x r ihl ihr =>
    have hne : n + 1 ≠ p := by simpa using hp 0
    have hchild : ∀ q, q / 2 = p → ∀ e, (n + 1) / 2 ^ e ≠ q := by
      rintro q rfl e rfl
      exact hp (e + 1) (by rw [Nat.pow_succ, Nat.div_div_eq_div_mul])
    rw [fills_node, fills_node, ihl (hchild (2 * p) (by omega)),
      ihr (hchild (2 * p + 1) (by omega))]
    refine and_congr_left fun _ => ?_
    omega

/-! ## The way to a place -/

theorem div_two_pow_succ (n d : Nat) :
    n / 2 ^ d = 2 * (n / 2 ^ (d + 1)) + if n.testBit d then 1 else 0 := by
  rw [Nat.pow_succ, ← Nat.div_div_eq_div_mul, Nat.testBit_eq_decide_div_mod_eq]
  split <;> simp_all <;> omega

theorem div_two_pow_lt (n d : Nat) : (n + 1) / 2 ^ (d + 1) < n + 1 :=
  Nat.div_lt_self (by omega) (Nat.one_lt_two_pow (by omega))

theorem div_two_pow_ne {n d p q : Nat} (hp : n / 2 ^ d = p) (hpq : p ≠ q) (h₁ : p < 2 * q)
    (h₂ : q < 2 * p) (e : Nat) : n / 2 ^ e ≠ q := by
  have key : ∀ a k, 0 < k → a / 2 ^ k ≤ a / 2 := by
    intro a k hk
    exact Nat.div_le_div_left (Nat.le_self_pow (by omega) 2) (by omega)
  rintro rfl
  subst hp
  rcases Nat.lt_trichotomy d e with hde | rfl | hde
  · obtain ⟨k, rfl⟩ := Nat.exists_eq_add_of_lt hde
    have := key (n / 2 ^ d) (k + 1) (by omega)
    rw [Nat.div_div_eq_div_mul, ← Nat.pow_add, ← Nat.add_assoc] at this
    omega
  · exact hpq rfl
  · obtain ⟨k, rfl⟩ := Nat.exists_eq_add_of_lt hde
    have := key (n / 2 ^ e) (k + 1) (by omega)
    rw [Nat.div_div_eq_div_mul, ← Nat.pow_add, ← Nat.add_assoc] at this
    omega

/-! ## Putting in -/

section Steps

variable {n d p : Nat} {x y : α} {l r t : HeapTree α}

theorem insertAt_right (hb : n.testBit d = true) :
    insertAt cmp n x (d + 1) (node l y r) =
      if (insertAt cmp n x d r).2 && cmp x y == .gt then
        (node l x ((insertAt cmp n x d r).1.setTop y), true)
      else (node l y (insertAt cmp n x d r).1, false) := by
  rw [insertAt, if_pos hb]

theorem insertAt_left (hb : ¬ n.testBit d = true) :
    insertAt cmp n x (d + 1) (node l y r) =
      if (insertAt cmp n x d l).2 && cmp x y == .gt then
        (node ((insertAt cmp n x d l).1.setTop y) x r, true)
      else (node (insertAt cmp n x d l).1 y r, false) := by
  rw [insertAt, if_neg hb]

theorem insertAt_top (cmp : α → α → Ordering) (n : Nat) (x : α) (d : Nat) (t : HeapTree α) :
    (insertAt cmp n x d t).2 = true ∧ (insertAt cmp n x d t).1.top? = some x ∨
      (insertAt cmp n x d t).2 = false ∧
        ∃ z ∈ t.toList, (insertAt cmp n x d t).1.top? = some z := by
  cases d with
  | zero => exact .inl ⟨rfl, rfl⟩
  | succ d =>
    cases t with
    | leaf => exact .inl ⟨rfl, rfl⟩
    | node l y r =>
      by_cases hb : n.testBit d = true
      · rw [insertAt_right hb]
        split
        · exact .inl ⟨rfl, rfl⟩
        · exact .inr ⟨rfl, y, by simp, rfl⟩
      · rw [insertAt_left hb]
        split
        · exact .inl ⟨rfl, rfl⟩
        · exact .inr ⟨rfl, y, by simp, rfl⟩

theorem insertAt_top_of_rose (h : (insertAt cmp n x d t).2 = true) :
    (insertAt cmp n x d t).1.top? = some x := by
  rcases insertAt_top cmp n x d t with ⟨-, ht⟩ | ⟨hf, -⟩
  · exact ht
  · rw [h] at hf
    cases hf

theorem insertAt_spec (cmp : α → α → Ordering) (x : α) (hp : (n + 1) / 2 ^ d = p) (hpos : 0 < p)
    (h : t.Fills n p) :
    (insertAt cmp (n + 1) x d t).1.Fills (n + 1) p ∧
      (insertAt cmp (n + 1) x d t).1.toList.Perm (x :: t.toList) := by
  -- `d` steps are left from place `p` to place `n + 1`
  induction d generalizing p t with
  | zero =>
    obtain rfl : n + 1 = p := by simpa using hp
    obtain rfl := h.eq_leaf (by omega)
    exact ⟨⟨Nat.le_refl _, by rw [fills_leaf]; omega, by rw [fills_leaf]; omega⟩, .refl _⟩
  | succ d ih =>
    have hstep := div_two_pow_succ (n + 1) d
    have hle : p ≤ n + 1 := hp ▸ Nat.div_le_self _ _
    rw [hp] at hstep
    cases t with
    | leaf =>
      obtain rfl : n + 1 = p := by have := fills_leaf.mp h; omega
      -- place `n + 1` cannot lie below itself
      exact absurd hp (Nat.ne_of_lt (div_two_pow_lt n d))
    | node l y r =>
      obtain ⟨-, hl, hr⟩ := fills_node.mp h
      by_cases hb : (n + 1).testBit d = true
      · rw [if_pos hb] at hstep
        obtain ⟨hfill, hperm⟩ := ih hstep (by omega) hr
        have hsib := div_two_pow_ne hstep (q := 2 * p) (by omega) (by omega) (by omega)
        rw [insertAt_right hb]
        -- a newcomer that rose as far as the top of the subtree may change places with `y`
        split
        · rename_i hrise
          have hset := setTop_perm (insertAt_top_of_rose (Bool.and_eq_true_iff.mp hrise).1) hperm y
          refine ⟨⟨hle, (fills_succ_iff hsib).mpr hl, fills_setTop.mpr hfill⟩, ?_⟩
          exact .cons x ((hset.append_left _).trans List.perm_middle)
        · refine ⟨⟨hle, (fills_succ_iff hsib).mpr hl, hfill⟩, ?_⟩
          exact node_perm_right hperm y l
      · rw [if_neg hb] at hstep
        obtain ⟨hfill, hperm⟩ := ih hstep (by omega) hl
        have hsib := div_two_pow_ne hstep (q := 2 * p + 1) (by omega) (by omega) (by omega)
        rw [insertAt_left hb]
        split
        · rename_i hrise
          have hset := setTop_perm (insertAt_top_of_rose (Bool.and_eq_true_iff.mp hrise).1) hperm y
          refine ⟨⟨hle, fills_setTop.mpr hfill, (fills_succ_iff hsib).mpr hr⟩, ?_⟩
          exact .cons x (hset.append_right _)
        · refine ⟨⟨hle, hfill, (fills_succ_iff hsib).mpr hr⟩, ?_⟩
          exact node_perm_left hperm y r

/-! ## Taking out -/

theorem takeAt?_right (hb : n.testBit d = true) :
    takeAt? n (d + 1) (node l y r) = (takeAt? n d r).map fun (x, r) => (x, node l y r) := by
  rw [takeAt?, if_pos hb]

theorem takeAt?_left (hb : ¬ n.testBit d = true) :
    takeAt? n (d + 1) (node l y r) = (takeAt? n d l).map fun (x, l) => (x, node l y r) := by
  rw [takeAt?, if_neg hb]

theorem takeAt?_spec (hp : (n + 1) / 2 ^ d = p) (hpos : 0 < p) (h : t.Fills (n + 1) p) :
    ∃ x rest, takeAt? (n + 1) d t = some (x, rest) ∧ rest.Fills n p ∧
      t.toList.Perm (x :: rest.toList) ∧ (0 < d → rest.top? = t.top?) := by
  have hle : p ≤ n + 1 := hp ▸ Nat.div_le_self _ _
  induction d generalizing p t with
  | zero =>
    obtain rfl : n + 1 = p := by simpa using hp
    cases t with
    | leaf => exact absurd (fills_leaf.mp h) (by omega)
    | node l y r =>
      obtain ⟨-, hl, hr⟩ := fills_node.mp h
      obtain rfl := hl.eq_leaf (by omega)
      obtain rfl := hr.eq_leaf (by omega)
      exact ⟨y, leaf, rfl, by simp, .refl _, by omega⟩
  | succ d ih =>
    have hstep := div_two_pow_succ (n + 1) d
    rw [hp] at hstep
    cases t with
    | leaf => exact absurd (fills_leaf.mp h) (by omega)
    | node l y r =>
      obtain ⟨-, hl, hr⟩ := fills_node.mp h
      have hpn : p ≤ n := Nat.le_of_lt_succ (hp ▸ div_two_pow_lt n d)
      by_cases hb : (n + 1).testBit d = true
      · rw [if_pos hb] at hstep
        obtain ⟨x, rest, htake, hfill, hperm, -⟩ :=
          ih hstep (by omega) hr (hstep ▸ Nat.div_le_self _ _)
        have hsib := div_two_pow_ne hstep (q := 2 * p) (by omega) (by omega) (by omega)
        refine ⟨x, node l y rest, by rw [takeAt?_right hb, htake]; rfl,
          ⟨hpn, (fills_succ_iff hsib).mp hl, hfill⟩, node_perm_right hperm y l, fun _ => rfl⟩
      · rw [if_neg hb] at hstep
        obtain ⟨x, rest, htake, hfill, hperm, -⟩ :=
          ih hstep (by omega) hl (hstep ▸ Nat.div_le_self _ _)
        have hsib := div_two_pow_ne hstep (q := 2 * p + 1) (by omega) (by omega) (by omega)
        refine ⟨x, node rest y r, by rw [takeAt?_left hb, htake]; rfl,
          ⟨hpn, hfill, (fills_succ_iff hsib).mp hr⟩, node_perm_left hperm y r, fun _ => rfl⟩

/-! ## Sinking and replacing -/

theorem sink_perm (x : α) (t : HeapTree α) :
    (sink cmp x t).toList.Perm (t.setTop x).toList := by
  fun_induction sink cmp x t with
  | case1 | case2 | case4 | case6 | case8 => exact .refl _
  | case3 ll a lr _ _ ih => exact node_perm_left ih a leaf
  | case5 ll a lr _ rl b rr _ _ ih => exact node_perm_left ih a (node rl b rr)
  | case7 ll a lr _ rl b rr _ _ ih =>
    exact (node_perm_right ih b (node ll a lr)).trans (.cons x List.perm_middle.symm)

@[simp] theorem fills_sink {p : Nat} : (sink cmp x t).Fills n p ↔ t.Fills n p := by
  fun_induction sink cmp x t generalizing p with
  | case1 | case2 | case4 | case6 | case8 => exact Iff.rfl
  | case3 ll a lr y _ ih => exact and_congr_right fun _ => and_congr_left fun _ => ih
  | case5 ll a lr y rl b rr _ _ ih => exact and_congr_right fun _ => and_congr_left fun _ => ih
  | case7 ll a lr y rl b rr _ _ ih => exact and_congr_right fun _ => and_congr_right fun _ => ih

/-- Either the newcomer rose to the top again or an item from below is there. -/
theorem replaceFromBottom_top (cmp : α → α → Ordering) (x : α) (ht : t ≠ leaf) :
    (replaceFromBottom cmp x t).2 = true ∧ (replaceFromBottom cmp x t).1.top? = some x ∨
      (replaceFromBottom cmp x t).2 = false ∧
        ∃ z ∈ t.toList.tail, (replaceFromBottom cmp x t).1.top? = some z := by
  fun_cases replaceFromBottom cmp x t with
  | case1 => exact absurd rfl ht
  | case2 | case3 | case5 | case7 => exact .inl ⟨rfl, rfl⟩
  | case4 ll a | case6 ll a => exact .inr ⟨rfl, a, by simp, rfl⟩
  | case8 ll a lr y rl b => exact .inr ⟨rfl, b, by simp, rfl⟩

theorem replaceFromBottom_top_of_rose (cmp : α → α → Ordering) (x : α) (ht : t ≠ leaf)
    (h : (replaceFromBottom cmp x t).2 = true) : (replaceFromBottom cmp x t).1.top? = some x := by
  rcases replaceFromBottom_top cmp x ht with ⟨-, htop⟩ | ⟨hf, -⟩
  · exact htop
  · rw [h] at hf
    cases hf

theorem replaceFromBottom_perm (cmp : α → α → Ordering) (x : α) (t : HeapTree α) :
    (replaceFromBottom cmp x t).1.toList.Perm (t.setTop x).toList := by
  fun_induction replaceFromBottom cmp x t with
  | case1 | case2 => exact .refl _
  | case3 ll a lr y l onTop hl hrise ih | case5 ll a lr y rl b rr hgt l onTop hl hrise ih =>
    have htop := replaceFromBottom_top_of_rose cmp x (t := node ll a lr) (by simp)
    rw [hl] at ih htop
    have hset := setTop_perm (htop (Bool.and_eq_true_iff.mp hrise).1) ih a
    exact .cons x (hset.append_right _)
  | case4 ll a lr y l onTop hl hstay ih | case6 ll a lr y rl b rr hgt l onTop hl hstay ih =>
    rw [hl] at ih
    exact node_perm_left ih a _
  | case7 ll a lr y rl b rr hgt r onTop hr hrise ih =>
    have htop := replaceFromBottom_top_of_rose cmp x (t := node rl b rr) (by simp)
    rw [hr] at ih htop
    have hset := setTop_perm (htop (Bool.and_eq_true_iff.mp hrise).1) ih b
    exact .cons x (hset.append_left _)
  | case8 ll a lr y rl b rr hgt r onTop hr hstay ih =>
    rw [hr] at ih
    exact (node_perm_right ih b (node ll a lr)).trans (.cons x List.perm_middle.symm)

@[simp] theorem fills_replaceFromBottom {p : Nat} :
    (replaceFromBottom cmp x t).1.Fills n p ↔ t.Fills n p := by
  fun_induction replaceFromBottom cmp x t generalizing p with
  | case1 | case2 => exact Iff.rfl
  | case3 ll a lr y l onTop hl hrise ih | case5 ll a lr y rl b rr hgt l onTop hl hrise ih =>
    rw [hl] at ih
    exact and_congr_right fun _ => and_congr_left fun _ => fills_setTop.trans ih
  | case4 ll a lr y l onTop hl hstay ih | case6 ll a lr y rl b rr hgt l onTop hl hstay ih =>
    rw [hl] at ih
    exact and_congr_right fun _ => and_congr_left fun _ => ih
  | case7 ll a lr y rl b rr hgt r onTop hr hrise ih =>
    rw [hr] at ih
    exact and_congr_right fun _ => and_congr_right fun _ => fills_setTop.trans ih
  | case8 ll a lr y rl b rr hgt r onTop hr hstay ih =>
    rw [hr] at ih
    exact and_congr_right fun _ => and_congr_right fun _ => ih

end Steps

end HeapTree

end SelectMerge

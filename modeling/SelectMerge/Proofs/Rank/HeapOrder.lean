import SelectMerge.Proofs.Rank.HeapShape
import SelectMerge.Proofs.Rank.Preorder

/-!
# The order in heaps

No item of a heap is after one above it (`Heaped`). Putting an item in (`heaped_insertAt`), letting
one sink from the top (`heaped_sink`) and replacing the top from the bottom
(`heaped_replaceFromBottom`) keep this, given a comparison that is a total preorder on the items at
hand and a tree whose places are filled from the left.

`Below x t` says that no item of `t` is after `x`. A newcomer that rises changes places with the
item above it (`heaped_setTop`). Going down first and up again needs to know where the newcomer
stopped: at the top, or below an item that may go further up (`replaceFromBottom_rise`,
`replaceFromBottom_stay`).
-/

namespace SelectMerge

namespace HeapTree

variable {α : Type} {cmp : α → α → Ordering} {S : α → Prop} {n d p : Nat} {x y : α}
  {l r t u : HeapTree α}

/-- Whether no item of the tree is after `x`. -/
def Below (cmp : α → α → Ordering) (x : α) (t : HeapTree α) : Prop :=
  ∀ y ∈ t.toList, cmp y x ≠ .gt

/-- Whether no item is after one above it. -/
def Heaped (cmp : α → α → Ordering) : HeapTree α → Prop
  | leaf => True
  | node l x r => l.Below cmp x ∧ r.Below cmp x ∧ l.Heaped cmp ∧ r.Heaped cmp

@[simp] theorem below_leaf : (leaf : HeapTree α).Below cmp x := by simp [Below]

@[simp] theorem heaped_leaf : (leaf : HeapTree α).Heaped cmp := trivial

theorem heaped_node : (node l x r).Heaped cmp ↔
    l.Below cmp x ∧ r.Below cmp x ∧ l.Heaped cmp ∧ r.Heaped cmp := Iff.rfl

theorem forall_mem_node : (∀ z ∈ (node l x r).toList, S z) ↔
    S x ∧ (∀ z ∈ l.toList, S z) ∧ ∀ z ∈ r.toList, S z := by
  simp only [toList_node, List.forall_mem_cons, List.forall_mem_append]

theorem Below.trans (h : TotalPreorderOn cmp S) (hS : ∀ z ∈ t.toList, S z) (hx : S x) (hy : S y)
    (ht : t.Below cmp x) (hxy : cmp x y ≠ .gt) : t.Below cmp y :=
  fun z hz => h.trans z x y (hS z hz) hx hy (ht z hz) hxy

theorem Heaped.below_top (h : TotalPreorderOn cmp S) (hS : ∀ z ∈ t.toList, S z)
    (ht : t.Heaped cmp) (hx : t.top? = some x) : t.Below cmp x := by
  cases t with
  | leaf => cases hx
  | node l y r =>
    obtain rfl : y = x := by simpa [top?] using hx
    obtain ⟨hl, hr, -, -⟩ := ht
    intro z hz
    rcases List.mem_cons.mp hz with rfl | hz
    · simp [h.self (hS z (by simp))]
    · rcases List.mem_append.mp hz with hz | hz
      · exact hl z hz
      · exact hr z hz

theorem Heaped.below (h : TotalPreorderOn cmp S) (hS : ∀ z ∈ t.toList, S z) (hy : S y)
    (ht : t.Heaped cmp) (hx : t.top? = some x) (hxy : cmp x y ≠ .gt) : t.Below cmp y :=
  (ht.below_top h hS hx).trans h hS (hS x (mem_of_top? hx)) hy hxy

/-! ## A newcomer in a subtree

A newcomer `x` has come into the heap `t` below `y`, whose other items are not after `y`. -/

/-- If `x` is on top of `t` and not before `y`, the two change places. -/
theorem heaped_setTop {items : List α} (hx : t.top? = some x) (hperm : t.toList.Perm (x :: items))
    (ht : t.Heaped cmp) (hy : ∀ z ∈ items, cmp z y ≠ .gt) : (t.setTop y).Heaped cmp := by
  cases t with
  | leaf => cases hx
  | node l z r =>
    obtain rfl : z = x := by simpa [top?] using hx
    have hbelow := hperm.cons_inv
    refine ⟨fun w hw => hy w ?_, fun w hw => hy w ?_, ht.2.2⟩
    · exact hbelow.mem_iff.mp (List.mem_append_left _ hw)
    · exact hbelow.mem_iff.mp (List.mem_append_right _ hw)

theorem below_setTop (h : TotalPreorderOn cmp S) {items : List α} (hxS : S x) (hyS : S y)
    (hS : ∀ z ∈ items, S z) (hx : t.top? = some x) (hperm : t.toList.Perm (x :: items))
    (hy : ∀ z ∈ items, cmp z y ≠ .gt) (hyx : cmp y x ≠ .gt) : (t.setTop y).Below cmp x := by
  intro z hz
  rcases List.mem_cons.mp ((setTop_perm hx hperm y).mem_iff.mp hz) with rfl | hz
  · exact hyx
  · exact h.trans z y x (hS z hz) hyS hxS (hy z hz) hyx

theorem below_of_stay (h : TotalPreorderOn cmp S) {items : List α} (hxS : S x) (hyS : S y)
    (hS : ∀ z ∈ items, S z) (hperm : t.toList.Perm (x :: items)) (ht : t.Heaped cmp)
    (hy : ∀ z ∈ items, cmp z y ≠ .gt)
    (hstay : cmp x y ≠ .gt ∨ ∃ z ∈ items, t.top? = some z) : t.Below cmp y := by
  have hSt : ∀ z ∈ t.toList, S z := by
    intro z hz
    rcases List.mem_cons.mp (hperm.mem_iff.mp hz) with rfl | hz
    · exact hxS
    · exact hS z hz
  intro z hz
  rcases List.mem_cons.mp (hperm.mem_iff.mp hz) with rfl | hzi
  · rcases hstay with hxy | ⟨w, hw, htop⟩
    · exact hxy
    · exact ht.below h hSt hyS htop (hy w hw) z hz
  · exact hy z hzi

theorem le_of_rise (h : TotalPreorderOn cmp S) (hx : S x) (hy : S y) {rose : Bool}
    (hrise : (rose && cmp x y == .gt) = true) : rose = true ∧ cmp y x ≠ .gt := by
  obtain ⟨hrose, hxy⟩ := Bool.and_eq_true_iff.mp hrise
  exact ⟨hrose, h.le_of_gt hx hy (by simpa using hxy)⟩

/-! ## Putting in -/

theorem insertAt_stay {c : HeapTree α}
    (hstay : ¬ ((insertAt cmp n x d c).2 && cmp x y == .gt) = true) :
    cmp x y ≠ .gt ∨ ∃ z ∈ c.toList, (insertAt cmp n x d c).1.top? = some z := by
  rcases insertAt_top cmp n x d c with ⟨hrose, -⟩ | ⟨-, htop⟩
  · left
    simpa [hrose] using hstay
  · exact .inr htop

theorem heaped_insertAt (h : TotalPreorderOn cmp S) (hx : S x) (hS : ∀ z ∈ t.toList, S z)
    (hp : (n + 1) / 2 ^ d = p) (hpos : 0 < p) (hfill : t.Fills n p) (ht : t.Heaped cmp) :
    (insertAt cmp (n + 1) x d t).1.Heaped cmp := by
  induction d generalizing p t with
  | zero => exact ⟨below_leaf, below_leaf, trivial, trivial⟩
  | succ d ih =>
    have hstep := div_two_pow_succ (n + 1) d
    rw [hp] at hstep
    cases t with
    | leaf => exact ⟨below_leaf, below_leaf, trivial, trivial⟩
    | node l y r =>
      obtain ⟨hy, hSl, hSr⟩ := forall_mem_node.mp hS
      obtain ⟨-, hfl, hfr⟩ := fills_node.mp hfill
      obtain ⟨hl, hr, hhl, hhr⟩ := heaped_node.mp ht
      by_cases hb : (n + 1).testBit d = true
      · rw [if_pos hb] at hstep
        have hperm := (insertAt_spec cmp x hstep (by omega) hfr).2
        have hheap := ih hSr hstep (by omega) hfr hhr
        rw [insertAt_right hb]
        split
        · rename_i hrise
          obtain ⟨hrose, hyx⟩ := le_of_rise h hx hy hrise
          have htop := insertAt_top_of_rose hrose
          exact ⟨hl.trans h hSl hy hx hyx, below_setTop h hx hy hSr htop hperm hr hyx, hhl,
            heaped_setTop htop hperm hheap hr⟩
        · rename_i hstay
          exact ⟨hl, below_of_stay h hx hy hSr hperm hheap hr (insertAt_stay hstay), hhl, hheap⟩
      · rw [if_neg hb] at hstep
        have hperm := (insertAt_spec cmp x hstep (by omega) hfl).2
        have hheap := ih hSl hstep (by omega) hfl hhl
        rw [insertAt_left hb]
        split
        · rename_i hrise
          obtain ⟨hrose, hyx⟩ := le_of_rise h hx hy hrise
          have htop := insertAt_top_of_rose hrose
          exact ⟨below_setTop h hx hy hSl htop hperm hl hyx, hr.trans h hSr hy hx hyx,
            heaped_setTop htop hperm hheap hl, hhr⟩
        · rename_i hstay
          exact ⟨below_of_stay h hx hy hSl hperm hheap hl (insertAt_stay hstay), hr, hheap, hhr⟩

/-! ## Taking out -/

theorem heaped_takeAt? (htake : takeAt? n d t = some (x, u)) (ht : t.Heaped cmp) :
    u.Heaped cmp ∧ ∀ z ∈ u.toList, z ∈ t.toList := by
  induction d generalizing t u with
  | zero =>
    cases t with
    | leaf => cases htake
    | node l y r =>
      obtain ⟨rfl, rfl⟩ : y = x ∧ leaf = u := by simpa [takeAt?] using htake
      simp
  | succ d ih =>
    cases t with
    | leaf => cases htake
    | node l y r =>
      obtain ⟨hl, hr, hhl, hhr⟩ := heaped_node.mp ht
      by_cases hb : n.testBit d = true
      · rw [takeAt?_right hb, Option.map_eq_some_iff] at htake
        obtain ⟨⟨w, c⟩, hc, heq⟩ := htake
        obtain ⟨rfl, rfl⟩ : w = x ∧ node l y c = u := by simpa using heq
        obtain ⟨hheap, hmem⟩ := ih hc hhr
        refine ⟨⟨hl, fun z hz => hr z (hmem z hz), hhl, hheap⟩, ?_⟩
        intro z hz
        simp only [toList_node, List.mem_cons, List.mem_append] at hz ⊢
        exact hz.imp_right (.imp_right (hmem z))
      · rw [takeAt?_left hb, Option.map_eq_some_iff] at htake
        obtain ⟨⟨w, c⟩, hc, heq⟩ := htake
        obtain ⟨rfl, rfl⟩ : w = x ∧ node c y r = u := by simpa using heq
        obtain ⟨hheap, hmem⟩ := ih hc hhl
        refine ⟨⟨fun z hz => hl z (hmem z hz), hr, hheap, hhr⟩, ?_⟩
        intro z hz
        simp only [toList_node, List.mem_cons, List.mem_append] at hz ⊢
        exact hz.imp_right (.imp_left (hmem z))

/-! ## Sinking -/

theorem mem_sink {z : α} (hz : z ∈ (sink cmp x t).toList) : z = x ∨ z ∈ t.toList := by
  have hz := (sink_perm x t).mem_iff.mp hz
  cases t with
  | leaf => exact absurd hz (by simp [setTop])
  | node l y r => exact (List.mem_cons.mp hz).imp_right (List.mem_cons_of_mem y)

theorem Below.sink (hxy : cmp x y ≠ .gt) (ht : t.Below cmp y) : (sink cmp x t).Below cmp y := by
  intro z hz
  rcases mem_sink hz with rfl | hz
  · exact hxy
  · exact ht z hz

theorem heaped_sink (h : TotalPreorderOn cmp S) (hx : S x) (hS : ∀ z ∈ t.toList, S z)
    (hfill : t.Fills n p) (ht : t.Heaped cmp) : (sink cmp x t).Heaped cmp := by
  fun_induction sink cmp x t generalizing p with
  | case1 => trivial
  | case2 y r =>
    obtain rfl := eq_leaf_of_left hfill
    exact ⟨below_leaf, below_leaf, trivial, trivial⟩
  | case3 ll a lr y hxa ih =>
    obtain ⟨-, hSl, -⟩ := forall_mem_node.mp hS
    obtain ⟨-, -, hhl, -⟩ := heaped_node.mp ht
    have hxa : cmp x a ≠ .gt := by simp_all
    exact ⟨(hhl.below_top h hSl rfl).sink hxa, below_leaf, ih hSl hfill.2.1 hhl, trivial⟩
  | case4 ll a lr y hxa =>
    obtain ⟨-, hSl, -⟩ := forall_mem_node.mp hS
    obtain ⟨-, -, hhl, -⟩ := heaped_node.mp ht
    have ha : S a := hSl a (by simp)
    have hax : cmp a x ≠ .gt := h.le_of_not_lt hx ha (by simpa using hxa)
    exact ⟨hhl.below h hSl hx rfl hax, below_leaf, hhl, trivial⟩
  | case5 ll a lr y rl b rr hab hxa ih =>
    obtain ⟨-, hSl, hSr⟩ := forall_mem_node.mp hS
    obtain ⟨-, -, hhl, hhr⟩ := heaped_node.mp ht
    have ha : S a := hSl a (by simp)
    have hb : S b := hSr b (by simp)
    have hba : cmp b a ≠ .gt := h.le_of_gt ha hb (by simpa using hab)
    have hxa : cmp x a ≠ .gt := by simp_all
    exact ⟨(hhl.below_top h hSl rfl).sink hxa, hhr.below h hSr ha rfl hba, ih hSl hfill.2.1 hhl,
      hhr⟩
  | case6 ll a lr y rl b rr hab hxa =>
    obtain ⟨-, hSl, hSr⟩ := forall_mem_node.mp hS
    obtain ⟨-, -, hhl, hhr⟩ := heaped_node.mp ht
    have ha : S a := hSl a (by simp)
    have hb : S b := hSr b (by simp)
    have hba : cmp b a ≠ .gt := h.le_of_gt ha hb (by simpa using hab)
    have hax : cmp a x ≠ .gt := h.le_of_not_lt hx ha (by simpa using hxa)
    exact ⟨hhl.below h hSl hx rfl hax,
      hhr.below h hSr hx rfl (h.trans b a x hb ha hx hba hax), hhl, hhr⟩
  | case7 ll a lr y rl b rr hab hxb ih =>
    obtain ⟨-, hSl, hSr⟩ := forall_mem_node.mp hS
    obtain ⟨-, -, hhl, hhr⟩ := heaped_node.mp ht
    have hb : S b := hSr b (by simp)
    have hab : cmp a b ≠ .gt := by simpa using hab
    have hxb : cmp x b ≠ .gt := by simp_all
    exact ⟨hhl.below h hSl hb rfl hab, (hhr.below_top h hSr rfl).sink hxb, hhl,
      ih hSr hfill.2.2 hhr⟩
  | case8 ll a lr y rl b rr hab hxb =>
    obtain ⟨-, hSl, hSr⟩ := forall_mem_node.mp hS
    obtain ⟨-, -, hhl, hhr⟩ := heaped_node.mp ht
    have ha : S a := hSl a (by simp)
    have hb : S b := hSr b (by simp)
    have hab : cmp a b ≠ .gt := by simpa using hab
    have hbx : cmp b x ≠ .gt := h.le_of_not_lt hx hb (by simpa using hxb)
    exact ⟨hhl.below h hSl hx rfl (h.trans a b x ha hb hx hab hbx),
      hhr.below h hSr hx rfl hbx, hhl, hhr⟩

/-! ## Replacing from the bottom -/

section Replace

variable {a : α}

/-- A newcomer that rises above the old top `a` of a subtree leaves that to `a`. -/
theorem replaceFromBottom_rise (h : TotalPreorderOn cmp S) (hx : S x)
    (hS : ∀ z ∈ (node l a r).toList, S z) (ht : (node l a r).Heaped cmp)
    (hrep : (replaceFromBottom cmp x (node l a r)).1.Heaped cmp)
    (hrise : ((replaceFromBottom cmp x (node l a r)).2 && cmp x a == .gt) = true) :
    cmp a x ≠ .gt ∧ ((replaceFromBottom cmp x (node l a r)).1.setTop a).Heaped cmp ∧
      ((replaceFromBottom cmp x (node l a r)).1.setTop a).Below cmp x := by
  obtain ⟨ha, hSl, hSr⟩ := forall_mem_node.mp hS
  obtain ⟨hl, hr, -, -⟩ := heaped_node.mp ht
  obtain ⟨hrose, hax⟩ := le_of_rise h hx ha hrise
  have htop := replaceFromBottom_top_of_rose cmp x (by simp) hrose
  have hperm := replaceFromBottom_perm cmp x (node l a r)
  have hitems : ∀ z ∈ l.toList ++ r.toList, cmp z a ≠ .gt := List.forall_mem_append.mpr ⟨hl, hr⟩
  exact ⟨hax, heaped_setTop htop hperm hrep hitems,
    below_setTop h hx ha (List.forall_mem_append.mpr ⟨hSl, hSr⟩) htop hperm hitems hax⟩

/-- Unless the newcomer rises above it, the old top `a` of a subtree may go above the subtree. -/
theorem replaceFromBottom_stay (h : TotalPreorderOn cmp S) (hx : S x)
    (hS : ∀ z ∈ (node l a r).toList, S z) (ht : (node l a r).Heaped cmp)
    (hrep : (replaceFromBottom cmp x (node l a r)).1.Heaped cmp)
    (hstay : ¬ ((replaceFromBottom cmp x (node l a r)).2 && cmp x a == .gt) = true) :
    (replaceFromBottom cmp x (node l a r)).1.Below cmp a := by
  obtain ⟨ha, hSl, hSr⟩ := forall_mem_node.mp hS
  obtain ⟨hl, hr, -, -⟩ := heaped_node.mp ht
  refine below_of_stay h hx ha (List.forall_mem_append.mpr ⟨hSl, hSr⟩)
    (replaceFromBottom_perm cmp x (node l a r)) hrep (List.forall_mem_append.mpr ⟨hl, hr⟩) ?_
  rcases replaceFromBottom_top cmp x (t := node l a r) (by simp) with
    ⟨hrose, -⟩ | ⟨-, htop⟩
  · left
    simpa [hrose] using hstay
  · exact .inr htop

theorem heaped_replaceFromBottom (h : TotalPreorderOn cmp S) (hx : S x)
    (hS : ∀ z ∈ t.toList, S z) (hfill : t.Fills n p) (ht : t.Heaped cmp) :
    (replaceFromBottom cmp x t).1.Heaped cmp := by
  fun_induction replaceFromBottom cmp x t generalizing p with
  | case1 => trivial
  | case2 y r =>
    obtain rfl := eq_leaf_of_left hfill
    exact ⟨below_leaf, below_leaf, trivial, trivial⟩
  | case3 ll a lr y l rose hl hrise ih =>
    obtain ⟨-, hSl, -⟩ := forall_mem_node.mp hS
    obtain ⟨-, -, hhl, -⟩ := heaped_node.mp ht
    have hset := replaceFromBottom_rise h hx hSl hhl (ih hSl hfill.2.1 hhl)
    rw [hl] at hset
    obtain ⟨-, hheap, hbelow⟩ := hset hrise
    exact ⟨hbelow, below_leaf, hheap, trivial⟩
  | case4 ll a lr y l rose hl hstay ih =>
    obtain ⟨-, hSl, -⟩ := forall_mem_node.mp hS
    obtain ⟨-, -, hhl, -⟩ := heaped_node.mp ht
    have hheap := ih hSl hfill.2.1 hhl
    have hbelow := replaceFromBottom_stay h hx hSl hhl hheap
    rw [hl] at hheap hbelow
    exact ⟨hbelow hstay, below_leaf, hheap, trivial⟩
  | case5 ll a lr y rl b rr hab l rose hl hrise ih =>
    obtain ⟨-, hSl, hSr⟩ := forall_mem_node.mp hS
    obtain ⟨-, -, hhl, hhr⟩ := heaped_node.mp ht
    have ha : S a := hSl a (by simp)
    have hb : S b := hSr b (by simp)
    have hba : cmp b a ≠ .gt := h.le_of_gt ha hb (by simpa using hab)
    have hset := replaceFromBottom_rise h hx hSl hhl (ih hSl hfill.2.1 hhl)
    rw [hl] at hset
    obtain ⟨hax, hheap, hbelow⟩ := hset hrise
    exact ⟨hbelow, hhr.below h hSr hx rfl (h.trans b a x hb ha hx hba hax), hheap, hhr⟩
  | case6 ll a lr y rl b rr hab l rose hl hstay ih =>
    obtain ⟨-, hSl, hSr⟩ := forall_mem_node.mp hS
    obtain ⟨-, -, hhl, hhr⟩ := heaped_node.mp ht
    have ha : S a := hSl a (by simp)
    have hb : S b := hSr b (by simp)
    have hba : cmp b a ≠ .gt := h.le_of_gt ha hb (by simpa using hab)
    have hheap := ih hSl hfill.2.1 hhl
    have hbelow := replaceFromBottom_stay h hx hSl hhl hheap
    rw [hl] at hheap hbelow
    exact ⟨hbelow hstay, hhr.below h hSr ha rfl hba, hheap, hhr⟩
  | case7 ll a lr y rl b rr hab r rose hr hrise ih =>
    obtain ⟨-, hSl, hSr⟩ := forall_mem_node.mp hS
    obtain ⟨-, -, hhl, hhr⟩ := heaped_node.mp ht
    have ha : S a := hSl a (by simp)
    have hb : S b := hSr b (by simp)
    have hab : cmp a b ≠ .gt := by simpa using hab
    have hset := replaceFromBottom_rise h hx hSr hhr (ih hSr hfill.2.2 hhr)
    rw [hr] at hset
    obtain ⟨hbx, hheap, hbelow⟩ := hset hrise
    exact ⟨hhl.below h hSl hx rfl (h.trans a b x ha hb hx hab hbx), hbelow, hhl, hheap⟩
  | case8 ll a lr y rl b rr hab r rose hr hstay ih =>
    obtain ⟨-, hSl, hSr⟩ := forall_mem_node.mp hS
    obtain ⟨-, -, hhl, hhr⟩ := heaped_node.mp ht
    have hb : S b := hSr b (by simp)
    have hab : cmp a b ≠ .gt := by simpa using hab
    have hheap := ih hSr hfill.2.2 hhr
    have hbelow := replaceFromBottom_stay h hx hSr hhr hheap
    rw [hr] at hheap hbelow
    exact ⟨hhl.below h hSl hb rfl hab, hbelow hstay, hhl, hheap⟩

end Replace

end HeapTree

end SelectMerge

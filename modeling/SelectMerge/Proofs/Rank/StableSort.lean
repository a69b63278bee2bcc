import Mathlib.Data.List.Sort
import SelectMerge.Proofs.Rank.Preorder

/-!
# Stable sorting and the best of a list

`best cmp k l` is the first `k` items of the stable sort of `l`: what a bounded selection is to
keep. It can be had one newcomer at a time, each put behind its ties (`place`) and the list cut back
to `k` (`foldl_take_place`, `stableSort_append`), and the best of a list can stand for it when more
items follow (`best_append_best`) or came before (`best_append_best_right`).

The sort is defined by inserting from the end; that an earlier item and a later one may be put in
their places in either order (`place_orderedInsert`) turns it around. Items that tie keep their
order (`stableSort_filter_tie`).
-/

namespace SelectMerge

variable {α : Type}

/-- The list with a newcomer put in front of the first item that it comes strictly before. -/
def place (cmp : α → α → Ordering) (x : α) (l : List α) : List α :=
  l.orderedInsert (fun a b => cmp a b = .lt) x

/-- The stable sort of a list. -/
def stableSort (cmp : α → α → Ordering) (l : List α) : List α :=
  l.insertionSort fun a b => cmp a b ≠ .gt

/-- The first `k` items of the stable sort. -/
def best (cmp : α → α → Ordering) (k : Nat) (l : List α) : List α := (stableSort cmp l).take k

/-- Whether no item of the list is after a later one. -/
def Listed (cmp : α → α → Ordering) (l : List α) : Prop := l.Pairwise fun a b => cmp a b ≠ .gt

variable {cmp : α → α → Ordering} {S : α → Prop}

/-! ## Placing a newcomer -/

@[simp] theorem place_nil (x : α) : place cmp x [] = [x] := rfl

theorem place_cons (x y : α) (l : List α) :
    place cmp x (y :: l) = if cmp x y = .lt then x :: y :: l else y :: place cmp x l := rfl

theorem place_perm (x : α) (l : List α) : (place cmp x l).Perm (x :: l) :=
  List.perm_orderedInsert _ x l

@[simp] theorem mem_place {x y : α} {l : List α} : y ∈ place cmp x l ↔ y = x ∨ y ∈ l :=
  List.mem_orderedInsert _

theorem forall_mem_place {P : α → Prop} {x : α} {l : List α} :
    (∀ y ∈ place cmp x l, P y) ↔ P x ∧ ∀ y ∈ l, P y := by
  simp only [mem_place, forall_eq_or_imp]

@[simp] theorem length_place (x : α) (l : List α) : (place cmp x l).length = l.length + 1 :=
  List.orderedInsert_length _ l x

theorem place_eq_append {x : α} {l : List α} (hx : ∀ y ∈ l, cmp x y ≠ .lt) :
    place cmp x l = l ++ [x] := by
  induction l with
  | nil => rfl
  | cons y l ih =>
    rw [place_cons, if_neg (hx y (by simp)), ih fun z hz => hx z (by simp [hz])]
    rfl

theorem place_append_of_lt {x z : α} (l : List α) (hz : cmp x z = .lt) :
    place cmp x (l ++ [z]) = place cmp x l ++ [z] := by
  induction l with
  | nil => simp [place_cons, hz]
  | cons y l ih =>
    rw [List.cons_append, place_cons, place_cons, ih]
    split <;> rfl

theorem take_orderedInsert (r : α → α → Prop) [DecidableRel r] (k : Nat) (x : α) (l : List α) :
    ((l.take k).orderedInsert r x).take k = (l.orderedInsert r x).take k := by
  induction l generalizing k with
  | nil => simp
  | cons y l ih =>
    cases k with
    | zero => simp
    | succ k =>
      rw [List.take_succ_cons, List.orderedInsert_cons, List.orderedInsert_cons]
      split
      · cases k with
        | zero => simp
        | succ k => simp [List.take_take]
      · rw [List.take_succ_cons, List.take_succ_cons, ih]

theorem take_place (k : Nat) (x : α) (l : List α) :
    (place cmp x (l.take k)).take k = (place cmp x l).take k :=
  take_orderedInsert (fun a b => cmp a b = .lt) k x l

theorem foldl_take_place (k : Nat) (xs l : List α) :
    xs.foldl (fun l x => (place cmp x l).take k) (l.take k) =
      (xs.foldl (fun l x => place cmp x l) l).take k := by
  induction xs generalizing l with
  | nil => rfl
  | cons x xs ih => rw [List.foldl_cons, List.foldl_cons, take_place, ih]

/-- A newcomer keeps a relation between earlier and later items if it is related to what it comes
strictly before, together with all behind that, and the rest is related to it. -/
theorem pairwise_place {R : α → α → Prop} {x : α} {l : List α}
    (hbefore : ∀ y ∈ l, cmp x y = .lt → R x y ∧ ∀ z ∈ l, R y z → R x z)
    (hbehind : ∀ y ∈ l, cmp x y ≠ .lt → R y x) (hl : l.Pairwise R) :
    (place cmp x l).Pairwise R := by
  induction l with
  | nil => exact List.pairwise_singleton R x
  | cons y l ih =>
    obtain ⟨hy, hl'⟩ := List.pairwise_cons.mp hl
    rw [place_cons]
    split
    · rename_i hxy
      obtain ⟨hRxy, htrans⟩ := hbefore y (by simp) hxy
      refine List.pairwise_cons.mpr ⟨?_, hl⟩
      exact List.forall_mem_cons.mpr ⟨hRxy, fun z hz => htrans z (by simp [hz]) (hy z hz)⟩
    · rename_i hxy
      refine List.pairwise_cons.mpr ⟨?_, ih ?_ ?_ hl'⟩
      · exact forall_mem_place.mpr ⟨hbehind y (by simp) hxy, hy⟩
      · intro z hz hxz
        obtain ⟨hRxz, htrans⟩ := hbefore z (by simp [hz]) hxz
        exact ⟨hRxz, fun w hw => htrans w (by simp [hw])⟩
      · intro z hz
        exact hbehind z (by simp [hz])

theorem Listed.place (h : TotalPreorderOn cmp S) {x : α} {l : List α} (hx : S x)
    (hS : ∀ y ∈ l, S y) (hl : Listed cmp l) : Listed cmp (place cmp x l) := by
  apply pairwise_place _ _ hl
  · intro y hy hxy
    refine ⟨by simp [hxy], ?_⟩
    intro z hz hyz
    simp [h.lt_of_lt_of_le hx (hS y hy) (hS z hz) hxy hyz]
  · intro y hy hxy
    exact h.le_of_not_lt hx (hS y hy) hxy

theorem strict_place (h : TotalPreorderOn cmp S) {x : α} {l : List α} (hx : S x)
    (hS : ∀ a ∈ l, S a) (hne : ∀ a ∈ l, cmp x a ≠ .eq) (hl : l.Pairwise fun a b => cmp a b = .lt) :
    (place cmp x l).Pairwise fun a b => cmp a b = .lt := by
  apply pairwise_place _ _ hl
  · intro y hy hxy
    refine ⟨hxy, ?_⟩
    intro z hz hyz
    exact h.lt_of_lt_of_le hx (hS y hy) (hS z hz) hxy (by simp [hyz])
  · intro y hy hxy
    have htie := hne y hy
    rw [h.lt_iff_gt (hS y hy) hx]
    cases hc : cmp x y <;> simp_all

theorem take_place_of_lt {x z : α} (l : List α) (hz : cmp x z = .lt) :
    (place cmp x (l ++ [z])).take (l.length + 1) = place cmp x l := by
  rw [place_append_of_lt l hz, List.take_append_of_le_length (by simp),
    List.take_of_length_le (by simp)]

theorem take_place_of_not_lt (h : TotalPreorderOn cmp S) {x z : α} {l : List α} (hx : S x)
    (hS : ∀ y ∈ l ++ [z], S y) (hl : Listed cmp (l ++ [z])) (hz : cmp x z ≠ .lt) :
    (place cmp x (l ++ [z])).take (l.length + 1) = l ++ [z] := by
  have hlast : ∀ y ∈ l ++ [z], cmp x y ≠ .lt := by
    intro y hy hxy
    rcases List.mem_append.mp hy with hyl | hyz
    · have hle : cmp y z ≠ .gt := (List.pairwise_append.mp hl).2.2 y hyl z (by simp)
      exact hz (h.lt_of_lt_of_le hx (hS y hy) (hS z (by simp)) hxy hle)
    · exact hz (by rwa [List.mem_singleton.mp hyz] at hxy)
  rw [place_eq_append hlast, List.take_append_of_le_length (by simp),
    List.take_of_length_le (by simp)]

/-! ## The stable sort -/

@[simp] theorem stableSort_nil : stableSort cmp [] = [] := rfl

theorem stableSort_cons (x : α) (l : List α) :
    stableSort cmp (x :: l) =
      (stableSort cmp l).orderedInsert (fun a b => cmp a b ≠ .gt) x := rfl

theorem stableSort_perm (l : List α) : (stableSort cmp l).Perm l := List.perm_insertionSort _ l

@[simp] theorem mem_stableSort {x : α} {l : List α} : x ∈ stableSort cmp l ↔ x ∈ l :=
  List.mem_insertionSort _

theorem Listed.stableSort_eq {l : List α} (hl : Listed cmp l) : stableSort cmp l = l :=
  List.Pairwise.insertionSort_eq hl

theorem place_orderedInsert (h : TotalPreorderOn cmp S) {a x : α} {l : List α} (ha : S a)
    (hx : S x) (hS : ∀ y ∈ l, S y) :
    place cmp x (l.orderedInsert (fun a b => cmp a b ≠ .gt) a) =
      (place cmp x l).orderedInsert (fun a b => cmp a b ≠ .gt) a := by
  have hax : cmp x a = .lt ↔ ¬ cmp a x ≠ .gt := by rw [h.lt_iff_gt hx ha, not_not]
  induction l with
  | nil =>
    rw [List.orderedInsert_nil, place_nil, place_cons, List.orderedInsert_cons]
    by_cases hxa : cmp x a = .lt
    · rw [if_pos hxa, if_neg (hax.mp hxa)]
      rfl
    · rw [if_neg hxa, if_pos (by rwa [hax, not_not] at hxa)]
      rfl
  | cons b l ih =>
    have hb : S b := hS b (by simp)
    have ih := ih fun y hy => hS y (by simp [hy])
    rw [List.orderedInsert_cons, place_cons]
    by_cases hab : cmp a b ≠ .gt
    · rw [if_pos hab, place_cons]
      by_cases hxb : cmp x b = .lt
      · rw [if_pos hxb, List.orderedInsert_cons]
        by_cases hxa : cmp x a = .lt
        · rw [if_pos hxa, if_neg (hax.mp hxa), List.orderedInsert_cons, if_pos hab]
        · rw [if_neg hxa, if_pos (by rwa [hax, not_not] at hxa), place_cons, if_pos hxb]
      · have hxa : cmp x a ≠ .lt := fun hxa => hxb (h.lt_of_lt_of_le hx ha hb hxa hab)
        rw [if_neg hxb, if_neg hxa, List.orderedInsert_cons, if_pos hab, place_cons, if_neg hxb]
    · rw [if_neg hab, place_cons]
      by_cases hxb : cmp x b = .lt
      · -- `x` is before `b` and `b` before `a`, so `a` goes behind `x` too
        have hba : cmp b a = .lt := by rw [h.lt_iff_gt hb ha, ← not_not (a := _ = _)]; exact hab
        have hxa : cmp x a = .lt := h.lt_of_lt_of_le hx hb ha hxb (by simp [hba])
        rw [if_pos hxb, if_pos hxb, List.orderedInsert_cons, if_neg (hax.mp hxa),
          List.orderedInsert_cons, if_neg hab]
      · rw [if_neg hxb, if_neg hxb, List.orderedInsert_cons, if_neg hab, ih]

theorem foldl_place_orderedInsert (h : TotalPreorderOn cmp S) {a : α} {xs l : List α} (ha : S a)
    (hxs : ∀ x ∈ xs, S x) (hl : ∀ x ∈ l, S x) :
    xs.foldl (fun l x => place cmp x l) (l.orderedInsert (fun a b => cmp a b ≠ .gt) a) =
      (xs.foldl (fun l x => place cmp x l) l).orderedInsert (fun a b => cmp a b ≠ .gt) a := by
  induction xs generalizing l with
  | nil => rfl
  | cons x xs ih =>
    have hx : S x := hxs x (by simp)
    rw [List.foldl_cons, List.foldl_cons, place_orderedInsert h ha hx hl]
    exact ih (fun y hy => hxs y (by simp [hy])) (forall_mem_place.mpr ⟨hx, hl⟩)

/-- Sorting a list and then placing more items one by one sorts them all. -/
theorem stableSort_append (h : TotalPreorderOn cmp S) {l xs : List α} (hl : ∀ x ∈ l, S x)
    (hxs : ∀ x ∈ xs, S x) :
    stableSort cmp (l ++ xs) = xs.foldl (fun l x => place cmp x l) (stableSort cmp l) := by
  induction l with
  | nil =>
    induction xs with
    | nil => rfl
    | cons x xs ih =>
      have hxs' : ∀ y ∈ xs, S y := fun y hy => hxs y (by simp [hy])
      have hsort : stableSort cmp xs = xs.foldl (fun l x => place cmp x l) [] := ih hxs'
      rw [List.nil_append, stableSort_cons, hsort,
        ← foldl_place_orderedInsert h (hxs x (by simp)) hxs' (by simp)]
      rfl
  | cons a l ih =>
    have hl' : ∀ x ∈ l, S x := fun x hx => hl x (by simp [hx])
    rw [List.cons_append, stableSort_cons, stableSort_cons, ih hl',
      foldl_place_orderedInsert h (hl a (by simp)) hxs fun x hx => hl' x (mem_stableSort.mp hx)]

theorem listed_foldl_place (h : TotalPreorderOn cmp S) {xs l : List α} (hxs : ∀ x ∈ xs, S x)
    (hS : ∀ x ∈ l, S x) (hl : Listed cmp l) :
    Listed cmp (xs.foldl (fun l x => place cmp x l) l) := by
  induction xs generalizing l with
  | nil => exact hl
  | cons x xs ih =>
    have hx : S x := hxs x (by simp)
    exact ih (fun y hy => hxs y (by simp [hy])) (forall_mem_place.mpr ⟨hx, hS⟩) (hl.place h hx hS)

theorem listed_stableSort (h : TotalPreorderOn cmp S) {l : List α} (hS : ∀ x ∈ l, S x) :
    Listed cmp (stableSort cmp l) := by
  rw [← List.nil_append l, stableSort_append h (by simp) hS]
  exact listed_foldl_place h hS (by simp) List.Pairwise.nil

theorem filter_tie_orderedInsert (h : TotalPreorderOn cmp S) {r x : α} {l : List α} (hr : S r)
    (hx : S x) (hS : ∀ y ∈ l, S y) :
    (l.orderedInsert (fun a b => cmp a b ≠ .gt) x).filter (fun y => cmp y r = .eq) =
      (x :: l).filter fun y => cmp y r = .eq := by
  induction l with
  | nil => rfl
  | cons y l ih =>
    have hy : S y := hS y (by simp)
    have ih := ih fun z hz => hS z (by simp [hz])
    rw [List.orderedInsert_cons]
    split
    · rfl
    · -- `y` is before `x`, so only one of them can tie with `r`
      rename_i hxy
      have hne : ¬ (cmp x r = .eq ∧ cmp y r = .eq) := by
        rintro ⟨hxr, hyr⟩
        exact hxy (by rw [h.eq_of_tie hx hr hy hxr, (h.eq_iff_eq hr hy).mpr hyr]; simp)
      simp only [List.filter_cons] at ih ⊢
      rw [ih]
      by_cases hxr : cmp x r = .eq <;> by_cases hyr : cmp y r = .eq <;> simp_all

theorem stableSort_filter_tie (h : TotalPreorderOn cmp S) {r : α} {l : List α} (hr : S r)
    (hS : ∀ x ∈ l, S x) :
    (stableSort cmp l).filter (fun x => cmp x r = .eq) = l.filter fun x => cmp x r = .eq := by
  induction l with
  | nil => rfl
  | cons x l ih =>
    have hl : ∀ y ∈ l, S y := fun y hy => hS y (by simp [hy])
    rw [stableSort_cons, filter_tie_orderedInsert h hr (hS x (by simp))
      fun y hy => hl y (mem_stableSort.mp hy)]
    simp only [List.filter_cons, ih hl]

/-! ## The best of a list -/

theorem length_best_le (k : Nat) (l : List α) : (best cmp k l).length ≤ k := by
  simp [best, List.length_take]

theorem mem_of_mem_best {k : Nat} {x : α} {l : List α} (hx : x ∈ best cmp k l) : x ∈ l :=
  mem_stableSort.mp (List.mem_of_mem_take hx)

theorem listed_best (h : TotalPreorderOn cmp S) {l : List α} (hS : ∀ x ∈ l, S x) (k : Nat) :
    Listed cmp (best cmp k l) :=
  (listed_stableSort h hS).sublist (List.take_sublist k _)

theorem best_append (h : TotalPreorderOn cmp S) {l xs : List α} (hl : ∀ x ∈ l, S x)
    (hxs : ∀ x ∈ xs, S x) (k : Nat) :
    best cmp k (l ++ xs) = xs.foldl (fun l x => (place cmp x l).take k) (best cmp k l) := by
  rw [best, stableSort_append h hl hxs, best, foldl_take_place]

/-- When more items follow, the best of a list can stand for it. -/
theorem best_append_best (h : TotalPreorderOn cmp S) {l xs : List α} (hl : ∀ x ∈ l, S x)
    (hxs : ∀ x ∈ xs, S x) (k : Nat) :
    best cmp k (best cmp k l ++ xs) = best cmp k (l ++ xs) := by
  rw [best_append h (fun x hx => hl x (mem_of_mem_best hx)) hxs, best_append h hl hxs]
  congr 1
  rw [best, (listed_best h hl k).stableSort_eq, List.take_of_length_le (length_best_le k l)]

theorem best_cons (k : Nat) (x : α) (l : List α) :
    best cmp k (x :: l) = ((best cmp k l).orderedInsert (fun a b => cmp a b ≠ .gt) x).take k := by
  rw [best, best, stableSort_cons, take_orderedInsert]

theorem best_best (h : TotalPreorderOn cmp S) {l : List α} (hl : ∀ x ∈ l, S x) {k m : Nat}
    (hkm : k ≤ m) : best cmp k (best cmp m l) = best cmp k l := by
  rw [best, (listed_best h hl m).stableSort_eq, best, best, List.take_take, Nat.min_eq_left hkm]

theorem best_append_best_right (h : TotalPreorderOn cmp S) {xs : List α} (hxs : ∀ x ∈ xs, S x)
    {k m : Nat} (hkm : k ≤ m) (l : List α) :
    best cmp k (l ++ best cmp m xs) = best cmp k (l ++ xs) := by
  induction l with
  | nil => exact best_best h hxs hkm
  | cons x l ih => rw [List.cons_append, List.cons_append, best_cons, best_cons, ih]

end SelectMerge

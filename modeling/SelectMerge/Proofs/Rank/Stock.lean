import Mathlib.Data.List.Perm.Subperm
import SelectMerge.Proofs.Rank.HeapContents
import SelectMerge.Rank.TopK

/-!
# What selections keep under any comparison

A comparison that is not consistent can spoil the order of a heap, but neither its shape nor its
items. So under every comparison a selection keeps as many of the offered items as it has room for,
it lists all that it keeps, and it keeps nothing else: `TopK.Stores` says so, and offering
(`Stores.offer`), taking out (`Stores.popMany`) and a new capacity (`Stores.setCapacity`) keep it.
The proofs rest on the shape of heaps alone (`Fills`).
-/

namespace SelectMerge

variable {α : Type} {cmp : α → α → Ordering}

/-! ## Heaps -/

namespace HeapTree

variable {n : Nat} {x : α} {t : HeapTree α}

theorem Fills.exists_takeLast (h : t.Fills (n + 1) 1) (hsize : t.size = n + 1) :
    ∃ x rest, t.takeLast? = some (x, rest) ∧ rest.Fills n 1 ∧ t.toList.Perm (x :: rest.toList) := by
  obtain ⟨x, rest, htake, hrest, hperm, -⟩ := takeAt?_spec (div_two_pow_log2 n) (by omega) h
  exact ⟨x, rest, by rw [takeLast?, hsize, htake], hrest, hperm⟩

theorem Fills.size_eq (h : t.Fills n 1) : t.size = n := by
  induction n generalizing t with
  | zero => rw [h.eq_leaf (by omega), size]
  | succ n ih =>
    obtain ⟨x, rest, -, hrest, hperm, -⟩ := takeAt?_spec (div_two_pow_log2 n) (by omega) h
    rw [size_eq_length, hperm.length_eq, List.length_cons, ← size_eq_length, ih hrest]

theorem Fills.push (cmp : α → α → Ordering) (x : α) (h : t.Fills n 1) :
    (t.push cmp x).Fills (n + 1) 1 ∧ (t.push cmp x).toList.Perm (x :: t.toList) := by
  rw [HeapTree.push, h.size_eq]
  exact insertAt_spec cmp x (div_two_pow_log2 n) (by omega) h

theorem Fills.pop? (cmp : α → α → Ordering) (h : t.Fills (n + 1) 1) :
    ∃ x rest, t.pop? cmp = some (x, rest) ∧ rest.Fills n 1 ∧ t.toList.Perm (x :: rest.toList) := by
  obtain ⟨x, rest, htake, hrest, hperm⟩ := h.exists_takeLast h.size_eq
  cases rest with
  | leaf => exact ⟨x, leaf, by rw [HeapTree.pop?, htake], hrest, hperm⟩
  | node l y r =>
    refine ⟨y, (replaceFromBottom cmp x (node l y r)).1, by rw [HeapTree.pop?, htake],
      fills_replaceFromBottom.mpr hrest, ?_⟩
    have hput :
        (replaceFromBottom cmp x (node l y r)).1.toList.Perm (x :: (l.toList ++ r.toList)) :=
      replaceFromBottom_perm cmp x (node l y r)
    exact hperm.trans ((List.Perm.swap y x _).trans (hput.symm.cons y))

theorem drainOnto_perm (cmp : α → α → Ordering) (h : t.Fills n 1) (collected : List α) :
    (drainOnto cmp collected n t).Perm (t.toList ++ collected) := by
  induction n generalizing t collected with
  | zero =>
    rw [h.eq_leaf (by omega), drainOnto]
    exact .refl _
  | succ n ih =>
    obtain ⟨x, rest, htake, hrest, hperm⟩ := h.exists_takeLast h.size_eq
    rw [drainOnto, htake]
    cases rest with
    | leaf => exact (hperm.append_right collected).symm
    | node l y r =>
      -- `y` is collected, and `x` takes its place among the others
      have hsunk : (sink cmp x (node l y r)).toList.Perm (x :: (l.toList ++ r.toList)) :=
        sink_perm x (node l y r)
      have hitems : (y :: (sink cmp x (node l y r)).toList).Perm t.toList :=
        (hsunk.cons y).trans ((List.Perm.swap x y _).trans hperm.symm)
      have hfills : (sink cmp x (node l y r)).Fills n 1 := fills_sink.mpr hrest
      exact (ih hfills (y :: collected)).trans
        (List.perm_middle.trans (hitems.append_right collected))

theorem Fills.drain_perm (h : t.Fills n 1) : (t.drain cmp).Perm t.toList := by
  rw [HeapTree.drain, h.size_eq]
  simpa using drainOnto_perm cmp h []

end HeapTree

/-! ## Selections -/

namespace TopK

variable {s : TopK cmp} {l xs : List α} {x : α}

/-- Whether the items of the selection are those of `l`, in whatever order. -/
structure Stores (s : TopK cmp) (l : List α) : Prop where
  fills : s.heap.Fills l.length 1
  items : (s.heap.toList.map (·.item)).Perm l

theorem stores_empty (cmp : α → α → Ordering) (k : Nat) : (empty k : TopK cmp).Stores [] :=
  ⟨by simp [empty], .refl _⟩

theorem Stores.size_eq (h : s.Stores l) : s.size = l.length := h.fills.size_eq

theorem Stores.sorted_perm (h : s.Stores l) : s.sorted.Perm l :=
  (h.fills.drain_perm.map _).trans h.items

/-- An offered item is kept while there is room, and else in place of another or not at all. -/
theorem Stores.offer (h : s.Stores l) (hb : l.length ≤ s.capacity) (x : α) :
    ∃ l', (s.offer x).2.Stores l' ∧ l'.Subperm (x :: l) ∧
      l'.length = min s.capacity (l.length + 1) ∧ (s.offer x).2.capacity = s.capacity := by
  obtain ⟨fills, items⟩ := h
  have hsize : s.size = l.length := fills.size_eq
  have hkeep : ∀ stamp, (⟨s.capacity, s.heap, stamp⟩ : TopK cmp).Stores l :=
    fun _ => ⟨fills, items⟩
  unfold TopK.offer
  by_cases hzero : s.capacity = 0
  · rw [if_pos hzero]
    exact ⟨l, hkeep s.nextStamp, (List.sublist_cons_self x l).subperm, by omega, rfl⟩
  by_cases hroom : s.size < s.capacity
  · rw [if_neg hzero, if_pos hroom]
    obtain ⟨hfill, hperm⟩ := fills.push (Arrival.compare cmp) ⟨s.nextStamp, x⟩
    refine ⟨x :: l, ⟨hfill, ?_⟩, .refl _, by simp; omega, rfl⟩
    exact (hperm.map _).trans (items.cons x)
  · rw [if_neg hzero, if_neg hroom]
    have hfull : l.length = min s.capacity (l.length + 1) := by omega
    have hrejected := (List.sublist_cons_self x l).subperm
    cases htop : s.heap.top? with
    | none => exact ⟨l, hkeep _, hrejected, hfull, rfl⟩
    | some worst =>
      dsimp only
      split
      · -- the newcomer stands where the worst item stood
        cases hheap : s.heap with
        | leaf => rw [hheap] at htop; cases htop
        | node tl y tr =>
          rw [hheap] at fills items
          have hsunk : ((HeapTree.node tl y tr).sink (Arrival.compare cmp)
              ⟨s.nextStamp, x⟩).toList.Perm (⟨s.nextStamp, x⟩ :: (tl.toList ++ tr.toList)) :=
            HeapTree.sink_perm _ _
          have hlen : (x :: (tl.toList ++ tr.toList).map (·.item)).length = l.length := by
            rw [← items.length_eq]
            simp
          have hsub : ((tl.toList ++ tr.toList).map (·.item)).Subperm l :=
            (List.sublist_cons_self y.item _).subperm.trans items.subperm
          refine ⟨x :: (tl.toList ++ tr.toList).map (·.item), ⟨?_, hsunk.map _⟩,
            (List.subperm_cons x).mpr hsub, by rw [hlen]; exact hfull, rfl⟩
          rw [hlen]
          exact HeapTree.fills_sink.mpr fills
      · exact ⟨l, hkeep _, hrejected, hfull, rfl⟩

theorem Stores.offerAll (h : s.Stores l) (hb : l.length ≤ s.capacity) (xs : List α) :
    ∃ l', (TopK.offerAll xs s).2.Stores l' ∧ l'.Subperm (l ++ xs) ∧
      l'.length = min s.capacity (l.length + xs.length) ∧
      (TopK.offerAll xs s).2.capacity = s.capacity := by
  induction xs generalizing s l with
  | nil => exact ⟨l, h, by rw [List.append_nil], by simpa using hb, rfl⟩
  | cons x xs ih =>
    obtain ⟨l₁, h₁, hsub₁, hlen₁, hcap₁⟩ := h.offer hb x
    obtain ⟨l₂, h₂, hsub₂, hlen₂, hcap₂⟩ := ih h₁ (by omega)
    refine ⟨l₂, h₂, ?_, ?_, hcap₂.trans hcap₁⟩
    · have hall : ((x :: l) ++ xs).Perm (l ++ x :: xs) := List.perm_middle.symm
      exact hsub₂.trans (((List.subperm_append_right xs).mpr hsub₁).trans hall.subperm)
    · rw [hlen₂, hlen₁, hcap₁, List.length_cons]
      omega

theorem Stores.popMany {n : Nat} (h : s.Stores l) (hn : n ≤ l.length) :
    ∃ l', (TopK.popMany n s).2.Stores l' ∧ l'.Subperm l ∧ l'.length = l.length - n ∧
      (TopK.popMany n s).2.capacity = s.capacity := by
  induction n generalizing s l with
  | zero => exact ⟨l, h, .refl l, rfl, rfl⟩
  | succ n ih =>
    obtain ⟨m, hm⟩ : ∃ m, l.length = m + 1 := ⟨l.length - 1, by omega⟩
    obtain ⟨x, rest, hpop, hrest, hperm⟩ := (hm ▸ h.fills).pop? (Arrival.compare cmp)
    have hitems : l.Perm (x.item :: rest.toList.map (·.item)) := h.items.symm.trans (hperm.map _)
    have hlen : (rest.toList.map (·.item)).length = m := by
      have := hitems.length_eq
      rw [List.length_cons] at this
      omega
    have hstep : ({ s with heap := rest } : TopK cmp).Stores (rest.toList.map (·.item)) :=
      ⟨by rw [hlen]; exact hrest, .refl _⟩
    obtain ⟨l', h', hsub, hlen', hcap⟩ := ih hstep (by omega)
    simp only [TopK.popMany, popWorst, hpop]
    refine ⟨l', h', ?_, by omega, hcap⟩
    exact hsub.trans ((List.sublist_cons_self x.item _).subperm.trans hitems.symm.subperm)

theorem Stores.setCapacity (h : s.Stores l) (k : Nat) :
    ∃ l', (s.setCapacity k).2.Stores l' ∧ l'.Subperm l ∧ l'.length = min k l.length ∧
      (s.setCapacity k).2.capacity = k := by
  have hk : ({ s with capacity := k } : TopK cmp).Stores l := ⟨h.fills, h.items⟩
  obtain ⟨l', h', hsub, hlen, hcap⟩ := hk.popMany (n := l.length - k) (by omega)
  rw [TopK.setCapacity, h.size_eq]
  exact ⟨l', h', hsub, by omega, hcap⟩

/-! ## Counting -/

theorem offer_eq_inserted_iff (s : TopK cmp) (x : α) :
    (s.offer x).1 = .inserted ↔ s.size < s.capacity := by
  unfold TopK.offer
  by_cases hzero : s.capacity = 0
  · simp [hzero]
  by_cases hroom : s.size < s.capacity
  · simp [hzero, hroom]
  · rw [if_neg hzero, if_neg hroom, iff_false_right hroom]
    cases s.heap.top? with
    | none => simp
    | some worst =>
      dsimp only
      split <;> simp

theorem Stores.length_popMany {n : Nat} (h : s.Stores l) (hn : n ≤ l.length) :
    (TopK.popMany n s).1.length = n := by
  induction n generalizing s l with
  | zero => rfl
  | succ n ih =>
    obtain ⟨l₁, h₁, -, hlen, -⟩ := h.popMany (n := 1) (by omega)
    obtain ⟨m, hm⟩ : ∃ m, l.length = m + 1 := ⟨l.length - 1, by omega⟩
    obtain ⟨x, rest, hpop, -⟩ := (hm ▸ h.fills).pop? (Arrival.compare cmp)
    simp only [TopK.popMany, popWorst, hpop] at h₁ ⊢
    rw [List.length_cons, ih h₁ (by omega)]

theorem Stores.length_setCapacity (h : s.Stores l) (k : Nat) :
    (s.setCapacity k).1.length = l.length - k := by
  have hk : ({ s with capacity := k } : TopK cmp).Stores l := ⟨h.fills, h.items⟩
  rw [TopK.setCapacity, h.size_eq, hk.length_popMany (by omega)]

end TopK

end SelectMerge

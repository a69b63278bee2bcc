import SelectMerge.Proofs.Rank.HeapContents
import SelectMerge.Rank.TopK

/-!
# Selections as lists

A bounded selection stands for the list of its items in output order (`TopK.Lists`). Stamps make the
order of arrivals strict and a newcomer has the latest (`Arrival.compare_latest`), so each operation
acts on the list alone: an offered item is put behind its ties and the list is cut back to the
capacity (`Lists.offer`), and a smaller capacity costs the items beyond it (`Lists.setCapacity`).
Offering items in turn therefore keeps the best of them (`Lists.offerAll`), and what is answered
depends on the list alone (`Lists.fst_offerAll_eq`).
-/

namespace SelectMerge

variable {α : Type} {cmp : α → α → Ordering} {S : α → Prop}

/-! ## Arrivals -/

theorem TotalPreorderOn.arrival (h : TotalPreorderOn cmp S) :
    TotalPreorderOn (Arrival.compare cmp) fun a => S a.item where
  swap a b ha hb := by
    rw [Arrival.compare, Arrival.compare, Ordering.swap_then, ← h.swap _ _ ha hb,
      Nat.compare_swap]
  trans a b c ha hb hc hab hbc := by
    have le : ∀ {a b : Arrival α}, a.compare cmp b ≠ .gt ↔
        cmp a.item b.item = .lt ∨ cmp a.item b.item = .eq ∧ a.stamp ≤ b.stamp := by
      intro a b
      rw [Arrival.compare]
      cases cmp a.item b.item <;> simp [Nat.compare_ne_gt]
    rw [le] at hab hbc ⊢
    rcases hab with hab | ⟨hab, hst⟩
    · exact .inl (h.lt_of_lt_of_le ha hb hc hab (by rcases hbc with h | ⟨h, -⟩ <;> simp [h]))
    · rw [h.eq_of_tie ha hb hc hab]
      exact hbc.imp_right fun ⟨hbc, hst'⟩ => ⟨hbc, hst.trans hst'⟩

theorem Arrival.compare_latest (cmp : α → α → Ordering) {n : Nat} (x : α) {a : Arrival α}
    (ha : a.stamp < n) :
    Arrival.compare cmp ⟨n, x⟩ a ≠ .eq ∧
      (Arrival.compare cmp ⟨n, x⟩ a = .lt ↔ cmp x a.item = .lt) := by
  have hstamp : Ord.compare n a.stamp = .gt := Nat.compare_eq_gt.mpr ha
  simp only [Arrival.compare, hstamp]
  cases cmp x a.item <;> simp

theorem map_place_latest {n : Nat} {x : α} {as : List (Arrival α)} (has : ∀ a ∈ as, a.stamp < n) :
    (place (Arrival.compare cmp) ⟨n, x⟩ as).map (·.item) = place cmp x (as.map (·.item)) := by
  induction as with
  | nil => rfl
  | cons a as ih =>
    have ih := ih fun b hb => has b (by simp [hb])
    rw [List.map_cons, place_cons, place_cons, ← ih]
    by_cases hlt : cmp x a.item = .lt
    · rw [if_pos hlt, if_pos ((Arrival.compare_latest cmp x (has a (by simp))).2.mpr hlt)]
      rfl
    · rw [if_neg hlt, if_neg (hlt ∘ (Arrival.compare_latest cmp x (has a (by simp))).2.mp)]
      rfl

/-- What becomes of an item offered to `capacity` places, of which the first are taken by `l`. -/
def Offer.toListed (cmp : α → α → Ordering) (capacity : Nat) (x : α) (l : List α) : Offer α :=
  if l.length < capacity then .inserted
  else
    match l.getLast? with
    | none => .rejected x
    | some last => if cmp x last = .lt then .replaced last else .rejected x

namespace TopK

variable {s : TopK cmp} {l : List α} {x : α}

/-- Whether the selection holds arrivals, all stamped, in their order. -/
structure Holds (s : TopK cmp) (as : List (Arrival α)) : Prop where
  heap : s.heap.Holds (Arrival.compare cmp) as
  stamped : ∀ a ∈ as, a.stamp < s.nextStamp

/-- Whether the items of the selection in output order are `l`. -/
def Lists (s : TopK cmp) (l : List α) : Prop := ∃ as, s.Holds as ∧ as.map (·.item) = l

theorem lists_empty (k : Nat) : (empty k : TopK cmp).Lists [] :=
  ⟨[], ⟨HeapTree.holds_leaf, by simp⟩, rfl⟩

theorem Lists.size_eq (h : s.Lists l) : s.size = l.length := by
  obtain ⟨as, has, rfl⟩ := h
  rw [List.length_map]
  exact has.heap.size_eq

theorem Lists.listed (h : s.Lists l) : Listed cmp l := by
  obtain ⟨as, has, rfl⟩ := h
  apply List.pairwise_map.mpr (has.heap.strict.imp _)
  intro a b hab hgt
  rw [Arrival.compare] at hab
  simp [hgt] at hab

theorem Lists.withCapacity (h : s.Lists l) (k : Nat) :
    ({ s with capacity := k } : TopK cmp).Lists l := by
  obtain ⟨as, has, rfl⟩ := h
  exact ⟨as, ⟨has.heap, has.stamped⟩, rfl⟩

section Laws

variable (h : TotalPreorderOn cmp S)

include h

theorem Lists.sorted_eq (hS : ∀ a ∈ l, S a) (hl : s.Lists l) : s.sorted = l := by
  obtain ⟨as, has, rfl⟩ := hl
  rw [sorted, has.heap.drain h.arrival fun a ha => hS a.item (List.mem_map_of_mem ha)]

theorem Lists.worst?_eq (hS : ∀ a ∈ l, S a) (hl : s.Lists l) : s.worst? = l.getLast? := by
  obtain ⟨as, has, rfl⟩ := hl
  rw [worst?, has.heap.top?_eq h.arrival fun a ha => hS a.item (List.mem_map_of_mem ha),
    List.getLast?_map]

/-! ## Offering -/

/-- An offered item is put in its place and the list is cut back to the capacity. -/
theorem Lists.offer (hx : S x) (hS : ∀ a ∈ l, S a) (hl : s.Lists l) (hb : l.length ≤ s.capacity) :
    (s.offer x).1 = .toListed cmp s.capacity x l ∧
      (s.offer x).2.Lists ((place cmp x l).take s.capacity) ∧
      (s.offer x).2.capacity = s.capacity := by
  have hsize := hl.size_eq
  have hlast := hl.worst?_eq h hS
  have hlisted := hl.listed
  obtain ⟨as, ⟨heap, hstamp⟩, rfl⟩ := hl
  have hSa : ∀ a ∈ as, S a.item := fun a ha => hS a.item (List.mem_map_of_mem ha)
  have hne : ∀ a ∈ as, Arrival.compare cmp ⟨s.nextStamp, x⟩ a ≠ .eq :=
    fun a ha => (Arrival.compare_latest cmp x (hstamp a ha)).1
  unfold TopK.offer Offer.toListed
  by_cases hzero : s.capacity = 0
  · obtain rfl : as = [] := by
      rw [hzero, List.length_map] at hb
      exact List.length_eq_zero_iff.mp (by omega)
    -- nothing is ever kept
    rw [if_pos hzero]
    exact ⟨by simp [hzero], ⟨[], ⟨heap, hstamp⟩, by simp [hzero]⟩, rfl⟩
  by_cases hroom : s.size < s.capacity
  · rw [if_neg hzero, if_pos hroom, if_pos (by omega)]
    refine ⟨rfl, ⟨place (Arrival.compare cmp) ⟨s.nextStamp, x⟩ as,
      ⟨heap.push h.arrival hx hSa hne, ?_⟩, ?_⟩, rfl⟩
    · exact forall_mem_place.mpr
        ⟨Nat.lt_succ_self _, fun a ha => Nat.lt_succ_of_lt (hstamp a ha)⟩
    · rw [map_place_latest hstamp, List.take_of_length_le]
      rw [length_place]
      omega
  · -- the selection is full, and its worst item decides
    rw [if_neg hzero, if_neg hroom, if_neg (by omega)]
    obtain ⟨init, m, rfl⟩ : ∃ init m, as = init ++ [m] := by
      rcases List.eq_nil_or_concat' as with rfl | hex
      · simp at hsize
        omega
      · exact hex
    have hfull : s.capacity = (init.map (·.item)).length + 1 := by simp at hb hsize ⊢; omega
    have htop := heap.top?_eq h.arrival hSa
    rw [List.getLast?_concat] at htop
    rw [List.map_append, List.map_singleton] at hlisted hS
    rw [htop, List.map_append, List.map_singleton, List.getLast?_concat]
    have hm := Arrival.compare_latest cmp x (hstamp m (by simp))
    by_cases hlt : cmp x m.item = .lt
    · simp only [hm.2.mpr hlt, hlt, beq_self_eq_true, if_true]
      refine ⟨trivial, ⟨place (Arrival.compare cmp) ⟨s.nextStamp, x⟩ init,
        ⟨heap.sinkTop h.arrival hx hSa fun a ha => hne a (by simp [ha]), ?_⟩, ?_⟩, trivial⟩
      · exact forall_mem_place.mpr
          ⟨Nat.lt_succ_self _, fun a ha => Nat.lt_succ_of_lt (hstamp a (by simp [ha]))⟩
      · rw [map_place_latest fun a ha => hstamp a (by simp [ha]), hfull, take_place_of_lt _ hlt]
    · have hnlt : (Arrival.compare cmp ⟨s.nextStamp, x⟩ m == .lt) = false := by
        simpa using hlt ∘ hm.2.mp
      simp only [hnlt, hlt, if_false, Bool.false_eq_true]
      refine ⟨trivial, ⟨init ++ [m], ⟨heap, ?_⟩, ?_⟩, trivial⟩
      · intro a ha
        exact Nat.lt_succ_of_lt (hstamp a ha)
      · rw [hfull, take_place_of_not_lt h hx hS hlisted hlt, List.map_append, List.map_singleton]

/-- Offering items in turn keeps the best of the listed items and them. -/
theorem Lists.offerAll {xs : List α} (hxs : ∀ a ∈ xs, S a) (hS : ∀ a ∈ l, S a) (hl : s.Lists l)
    (hb : l.length ≤ s.capacity) :
    (TopK.offerAll xs s).2.Lists (best cmp s.capacity (l ++ xs)) ∧
      (TopK.offerAll xs s).2.capacity = s.capacity := by
  rw [best_append h hS hxs, best, hl.listed.stableSort_eq, List.take_of_length_le hb]
  induction xs generalizing s l with
  | nil => exact ⟨hl, rfl⟩
  | cons x xs ih =>
    have hx : S x := hxs x (by simp)
    obtain ⟨-, hl', hcap⟩ := hl.offer h hx hS hb
    have hS' : ∀ a ∈ (place cmp x l).take s.capacity, S a :=
      fun a ha => forall_mem_place.mpr ⟨hx, hS⟩ a (List.mem_of_mem_take ha)
    have ih := ih (fun a ha => hxs a (by simp [ha])) hS' hl' (by rw [hcap]; simp)
    rw [hcap] at ih
    exact ih

theorem Lists.fst_offerAll_eq {s' : TopK cmp} {xs : List α} (hxs : ∀ a ∈ xs, S a)
    (hS : ∀ a ∈ l, S a) (hl : s.Lists l) (hl' : s'.Lists l) (hcap : s.capacity = s'.capacity)
    (hb : l.length ≤ s.capacity) : (TopK.offerAll xs s).1 = (TopK.offerAll xs s').1 := by
  induction xs generalizing s s' l with
  | nil => rfl
  | cons x xs ih =>
    have hx : S x := hxs x (by simp)
    obtain ⟨hreply, hnext, hkeep⟩ := hl.offer h hx hS hb
    obtain ⟨hreply', hnext', hkeep'⟩ := hl'.offer h hx hS (hcap ▸ hb)
    rw [← hcap] at hreply' hnext' hkeep'
    have hS' : ∀ a ∈ (place cmp x l).take s.capacity, S a :=
      fun a ha => forall_mem_place.mpr ⟨hx, hS⟩ a (List.mem_of_mem_take ha)
    have hrest := ih (fun a ha => hxs a (by simp [ha])) hS' hnext hnext' (hkeep.trans hkeep'.symm)
      (by rw [hkeep]; exact List.length_take_le _ _)
    exact congrArg₂ List.cons (hreply.trans hreply'.symm) hrest

/-! ## Taking out -/

omit h in
theorem Lists.popWorst_nil (hl : s.Lists []) : s.popWorst = (none, s) := by
  obtain ⟨as, has, hmap⟩ := hl
  obtain rfl := List.map_eq_nil_iff.mp hmap
  have hleaf : s.heap = .leaf := has.heap.fills.eq_leaf (by simp)
  rw [popWorst, hleaf]
  rfl

theorem Lists.popWorst {init : List α} {m : α} (hS : ∀ a ∈ init ++ [m], S a)
    (hl : s.Lists (init ++ [m])) :
    ∃ s', s.popWorst = (some m, s') ∧ s'.Lists init ∧ s'.capacity = s.capacity := by
  obtain ⟨as, ⟨heap, hstamp⟩, hmap⟩ := hl
  obtain ⟨as, last, rfl, rfl, hlast⟩ := List.map_eq_append_iff.mp hmap
  obtain ⟨b, rfl, rfl⟩ := List.map_eq_singleton_iff.mp hlast
  have hSa : ∀ a ∈ as ++ [b], S a.item := by
    intro a ha
    refine hS a.item ?_
    rw [← hmap]
    exact List.mem_map_of_mem ha
  obtain ⟨rest, hpop, hrest⟩ := heap.pop? h.arrival hSa
  refine ⟨{ s with heap := rest }, by rw [TopK.popWorst, hpop], ⟨as, ⟨hrest, ?_⟩, rfl⟩, rfl⟩
  exact fun a ha => hstamp a (by simp [ha])

theorem Lists.popMany {n : Nat} (hn : n ≤ l.length) (hS : ∀ a ∈ l, S a) (hl : s.Lists l) :
    (TopK.popMany n s).1 = (l.drop (l.length - n)).reverse ∧
      (TopK.popMany n s).2.Lists (l.take (l.length - n)) ∧
      (TopK.popMany n s).2.capacity = s.capacity := by
  induction n generalizing s l with
  | zero => simpa [TopK.popMany] using hl
  | succ n ih =>
    obtain ⟨init, m, rfl⟩ : ∃ init m, l = init ++ [m] := by
      rcases List.eq_nil_or_concat' l with rfl | hex
      · cases hn
      · exact hex
    obtain ⟨s', hpop, hinit, hcap⟩ := hl.popWorst h hS
    have hlen : n ≤ init.length := by simpa using hn
    obtain ⟨hgone, hrest, hcap'⟩ := ih hlen (fun a ha => hS a (by simp [ha])) hinit
    have hsplit : (init ++ [m]).length - (n + 1) = init.length - n := by simp
    rw [hsplit, List.drop_append_of_le_length (by omega), List.take_append_of_le_length (by omega),
      TopK.popMany, hpop]
    refine ⟨?_, hrest, hcap'.trans hcap⟩
    dsimp only
    rw [hgone, List.reverse_append]
    rfl

theorem Lists.setCapacity (hS : ∀ a ∈ l, S a) (hl : s.Lists l) (k : Nat) :
    (s.setCapacity k).1 = (l.drop k).reverse ∧ (s.setCapacity k).2.Lists (l.take k) ∧
      (s.setCapacity k).2.capacity = k := by
  have hpop := (hl.withCapacity k).popMany h (n := l.length - k) (by omega) hS
  rw [TopK.setCapacity, hl.size_eq]
  rcases Nat.le_total k l.length with hk | hk
  · rwa [show l.length - (l.length - k) = k by omega] at hpop
  · rw [List.drop_of_length_le hk, List.take_of_length_le hk]
    simpa [show l.length - k = 0 by omega] using hpop

theorem Lists.drain (hS : ∀ a ∈ l, S a) (hl : s.Lists l) :
    s.drain.1 = l ∧ s.drain.2.Lists [] ∧ s.drain.2.capacity = s.capacity :=
  ⟨hl.sorted_eq h hS, ⟨[], ⟨HeapTree.holds_leaf, by simp⟩, rfl⟩, rfl⟩

theorem sorted_offerAll_empty {xs : List α} (hxs : ∀ a ∈ xs, S a) (k : Nat) :
    (TopK.offerAll xs (empty k : TopK cmp)).2.sorted = best cmp k xs := by
  obtain ⟨hl, -⟩ := (lists_empty k).offerAll h hxs (by simp) (by simp)
  exact hl.sorted_eq h fun a ha => hxs a (mem_of_mem_best ha)

end Laws

end TopK

end SelectMerge

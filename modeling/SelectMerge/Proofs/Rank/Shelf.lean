import SelectMerge.Proofs.Rank.Selection

/-!
# Selections and shelves

A `Shelf` is a list of arrivals kept in order, ties by arrival, with room for so many of them. It
says without a heap what a bounded selection is to answer, and every run of requests on a new
selection is answered as on a new shelf (`run_eq_shelf_run`).

The simulation relation is `Shelved`: the heap of the selection holds what is on the shelf. One
`Request` is answered alike and keeps it (`Shelved.step`), and so do all in turn (`Shelved.run`);
`Valid` is the invariant of shelves.
-/

namespace SelectMerge

variable {α : Type} {cmp : α → α → Ordering}

/-! ## Requests -/

/-- What can be asked of a selection. -/
inductive Request (α : Type) where
  | offer (x : α)
  | setCapacity (k : Nat)
  | popWorst
  | drain

/-- What is given back. -/
inductive Reply (α : Type) where
  | offered (o : Offer α)
  | evicted (items : List α)
  | popped (item : Option α)
  | drained (items : List α)

/-- One request of a selection. -/
def TopK.step : Request α → TopK cmp → Reply α × TopK cmp
  | .offer x, s => (.offered (s.offer x).1, (s.offer x).2)
  | .setCapacity k, s => (.evicted (s.setCapacity k).1, (s.setCapacity k).2)
  | .popWorst, s => (.popped s.popWorst.1, s.popWorst.2)
  | .drain, s => (.drained s.drain.1, s.drain.2)

/-- Requests in turn. -/
def TopK.run : List (Request α) → TopK cmp → List (Reply α) × TopK cmp
  | [], s => ([], s)
  | r :: rs, s => ((s.step r).1 :: (TopK.run rs (s.step r).2).1, (TopK.run rs (s.step r).2).2)

/-! ## Shelves -/

/-- Arrivals in order, room for so many of them, and the number of the next request, which stamps
an arrival. -/
structure Shelf (α : Type) where
  capacity : Nat
  held : List (Arrival α)
  clock : Nat

namespace Shelf

def empty (capacity : Nat) : Shelf α := ⟨capacity, [], 0⟩

def items (s : Shelf α) : List α := s.held.map (·.item)

/-- The item to go next. -/
def last? (s : Shelf α) : Option α := s.items.getLast?

/-- One request of a shelf: a newcomer is put in its place, and what is past the capacity goes. -/
def step (cmp : α → α → Ordering) (r : Request α) (s : Shelf α) : Reply α × Shelf α :=
  let next := s.clock + 1
  match r with
  | .offer x =>
    (.offered (.toListed cmp s.capacity x s.items),
      ⟨s.capacity, (place (Arrival.compare cmp) ⟨s.clock, x⟩ s.held).take s.capacity, next⟩)
  | .setCapacity k => (.evicted (s.items.drop k).reverse, ⟨k, s.held.take k, next⟩)
  | .popWorst => (.popped s.last?, ⟨s.capacity, s.held.dropLast, next⟩)
  | .drain => (.drained s.items, ⟨s.capacity, [], next⟩)

/-- Requests in turn. -/
def run (cmp : α → α → Ordering) : List (Request α) → Shelf α → List (Reply α) × Shelf α
  | [], s => ([], s)
  | r :: rs, s =>
    ((s.step cmp r).1 :: (run cmp rs (s.step cmp r).2).1, (run cmp rs (s.step cmp r).2).2)

/-- Whether the arrivals are in order, ties by arrival, within the capacity, and all in the past. -/
structure Valid (cmp : α → α → Ordering) (s : Shelf α) : Prop where
  sorted : s.held.Pairwise fun a b => a.compare cmp b = .lt
  bounded : s.held.length ≤ s.capacity
  past : ∀ a ∈ s.held, a.stamp < s.clock

theorem valid_empty (k : Nat) : (empty k : Shelf α).Valid cmp :=
  ⟨.nil, Nat.zero_le k, by simp [empty]⟩

theorem length_items (s : Shelf α) : s.items.length = s.held.length := List.length_map _

theorem Valid.sublist {s : Shelf α} (hs : s.Valid cmp) {held : List (Arrival α)} {k : Nat}
    (hsub : held.Sublist s.held) (hk : held.length ≤ k) :
    (⟨k, held, s.clock + 1⟩ : Shelf α).Valid cmp :=
  ⟨hs.sorted.sublist hsub, hk, fun a ha => Nat.lt_succ_of_lt (hs.past a (hsub.subset ha))⟩

theorem Valid.step (h : TotalPreorder cmp) {s : Shelf α} (hs : s.Valid cmp) (r : Request α) :
    (s.step cmp r).2.Valid cmp := by
  cases r with
  | offer x =>
    have hne : ∀ a ∈ s.held, Arrival.compare cmp ⟨s.clock, x⟩ a ≠ .eq :=
      fun a ha => (Arrival.compare_latest cmp x (hs.past a ha)).1
    have hplace := strict_place h.arrival (by simp) (by simp) hne hs.sorted
    have hpast : ∀ a ∈ place (Arrival.compare cmp) ⟨s.clock, x⟩ s.held, a.stamp < s.clock + 1 :=
      forall_mem_place.mpr ⟨Nat.lt_succ_self _, fun a ha => Nat.lt_succ_of_lt (hs.past a ha)⟩
    exact ⟨hplace.sublist (List.take_sublist _ _), List.length_take_le _ _,
      fun a ha => hpast a (List.mem_of_mem_take ha)⟩
  | setCapacity k => exact hs.sublist (List.take_sublist k _) (List.length_take_le k _)
  | popWorst =>
    refine hs.sublist (List.dropLast_sublist _) ?_
    have := hs.bounded
    rw [List.length_dropLast]
    omega
  | drain => exact hs.sublist (List.nil_sublist _) (Nat.zero_le _)

end Shelf

/-! ## The simulation -/

/-- Whether a selection has what is on a shelf. -/
structure Shelved (s : TopK cmp) (sh : Shelf α) : Prop where
  lists : s.Lists sh.items
  capacity : s.capacity = sh.capacity
  valid : sh.Valid cmp

theorem shelved_empty (k : Nat) : Shelved (TopK.empty k : TopK cmp) (Shelf.empty k) :=
  ⟨TopK.lists_empty k, rfl, Shelf.valid_empty k⟩

variable {s : TopK cmp} {sh : Shelf α}

theorem Shelved.step (h : TotalPreorder cmp) (hs : Shelved s sh) (r : Request α) :
    (s.step r).1 = (sh.step cmp r).1 ∧ Shelved (s.step r).2 (sh.step cmp r).2 := by
  obtain ⟨hlists, hcap, hvalid⟩ := hs
  have hvalid' := hvalid.step h r
  have hbounded : sh.items.length ≤ s.capacity := by
    rw [sh.length_items, hcap]
    exact hvalid.bounded
  cases r with
  | offer x =>
    obtain ⟨hreply, hl, hc⟩ := hlists.offer h trivial (by simp) hbounded
    have hitems : (sh.step cmp (.offer x)).2.items = (place cmp x sh.items).take s.capacity := by
      rw [hcap]
      exact (List.map_take ..).trans (congrArg _ (map_place_latest hvalid.past))
    refine ⟨congrArg Reply.offered (hreply.trans (by rw [hcap])), ?_, hc.trans hcap, hvalid'⟩
    rw [hitems]
    exact hl
  | setCapacity k =>
    obtain ⟨hreply, hl, hc⟩ := hlists.setCapacity h (by simp) k
    have hitems : (sh.step cmp (.setCapacity k)).2.items = sh.items.take k := List.map_take ..
    exact ⟨congrArg Reply.evicted hreply, hitems ▸ hl, hc, hvalid'⟩
  | popWorst =>
    have hitems : (sh.step cmp .popWorst).2.items = sh.items.dropLast := List.map_dropLast ..
    rcases List.eq_nil_or_concat' sh.items with hnil | ⟨init, m, hsplit⟩
    · rw [hnil] at hlists hitems
      have hpop := hlists.popWorst_nil
      refine ⟨?_, ?_, ?_, hvalid'⟩
      · simp [TopK.step, Shelf.step, Shelf.last?, hpop, hnil]
      · rw [hitems, TopK.step, hpop]
        exact hlists
      · rw [TopK.step, hpop]
        exact hcap
    · rw [hsplit] at hlists hitems
      obtain ⟨s', hpop, hl, hc⟩ := hlists.popWorst h (by simp)
      refine ⟨?_, ?_, ?_, hvalid'⟩
      · simp [TopK.step, Shelf.step, Shelf.last?, hpop, hsplit]
      · rw [hitems, List.dropLast_concat, TopK.step, hpop]
        exact hl
      · rw [TopK.step, hpop]
        exact hc.trans hcap
  | drain =>
    obtain ⟨hreply, hl, hc⟩ := hlists.drain h (by simp)
    exact ⟨congrArg Reply.drained hreply, hl, hc.trans hcap, hvalid'⟩

theorem Shelved.run (h : TotalPreorder cmp) (hs : Shelved s sh) (rs : List (Request α)) :
    (TopK.run rs s).1 = (sh.run cmp rs).1 ∧ Shelved (TopK.run rs s).2 (sh.run cmp rs).2 := by
  induction rs generalizing s sh with
  | nil => exact ⟨rfl, hs⟩
  | cons r rs ih =>
    obtain ⟨hreply, hnext⟩ := hs.step h r
    obtain ⟨hreplies, hend⟩ := ih hnext
    exact ⟨congrArg₂ List.cons hreply hreplies, hend⟩

/-- A selection answers every run of requests as a shelf does and then has what is on the shelf:
items in order, ties by arrival, and never more than its capacity. So what it lists of the items
it was offered from the beginning are the first ones of their stable sort. -/
theorem run_eq_shelf_run (h : TotalPreorder cmp) (k : Nat) (rs : List (Request α)) :
    let s := TopK.run rs (TopK.empty k : TopK cmp)
    let sh := (Shelf.empty k).run cmp rs
    s.1 = sh.1 ∧ s.2.capacity = sh.2.capacity ∧ s.2.size = sh.2.held.length ∧
      s.2.size ≤ s.2.capacity ∧ s.2.worst? = sh.2.last? ∧ s.2.sorted = sh.2.items ∧
      sh.2.held.Pairwise (fun a b => a.compare cmp b = .lt) ∧
      ∀ xs, (TopK.offerAll xs (TopK.empty k : TopK cmp)).2.drain.1 =
        (stableSort cmp xs).take k := by
  obtain ⟨hreplies, hlists, hcap, hvalid⟩ := (shelved_empty k).run h rs
  have hsize : (TopK.run rs (TopK.empty k : TopK cmp)).2.size =
      ((Shelf.empty k).run cmp rs).2.held.length := by
    rw [hlists.size_eq, Shelf.length_items]
  refine ⟨hreplies, hcap, hsize, ?_, hlists.worst?_eq h (by simp), hlists.sorted_eq h (by simp),
    hvalid.sorted, fun xs => TopK.sorted_offerAll_empty h (by simp) k⟩
  rw [hsize, hcap]
  exact hvalid.bounded

/-- Pairs by their first parts: a run that fills up, turns a tie away, shrinks, grows and ends
empty. -/
theorem run_eq_shelf_run_pairs :
    TotalPreorder (fun a b : Nat × Nat => compare a.1 b.1) ∧
      (TopK.run
          [.offer (3, 0), .offer (1, 1), .offer (3, 2), .offer (1, 3), .setCapacity 1,
            .setCapacity 3, .offer (2, 4), .offer (1, 5), .offer (0, 6), .popWorst, .drain,
            .popWorst]
          (TopK.empty 2 : TopK fun a b : Nat × Nat => compare a.1 b.1)).1 =
        [.offered .inserted, .offered .inserted, .offered (.rejected (3, 2)),
          .offered (.replaced (3, 0)), .evicted [(1, 3)], .evicted [], .offered .inserted,
          .offered .inserted, .offered (.replaced (2, 4)), .popped (some (1, 5)),
          .drained [(0, 6), (1, 1)], .popped none] :=
  have h : TotalPreorder (fun a b : Nat × Nat => compare a.1 b.1) :=
    totalPreorder_of_transCmp (compareOn Prod.fst)
  ⟨h, (run_eq_shelf_run h 2 _).1.trans rfl⟩

end SelectMerge

import SelectMerge.Proofs.Rank.HeapOrder
import SelectMerge.Proofs.Rank.StableSort

/-!
# The contents of heaps

A heap of items that never tie is as good as the list of them in order (`Holds`): its top is the
last of the list (`Holds.top?_eq`), an item that goes in is put in its place (`Holds.push`), taking
out the top takes out the last (`Holds.pop?`), and draining the heap gives the list back
(`Holds.drain`). Each of these needs only that the heap is in order, that its places are filled, and
that its items are those of the list: a strict order leaves no choice.
-/

namespace SelectMerge

namespace HeapTree

variable {α : Type} {cmp : α → α → Ordering} {S : α → Prop} {t : HeapTree α} {x m : α}
  {l init : List α}

/-- Whether the tree is a heap of the items of `l`, which are listed in strict order. -/
structure Holds (cmp : α → α → Ordering) (t : HeapTree α) (l : List α) : Prop where
  fills : t.Fills l.length 1
  heaped : t.Heaped cmp
  perm : t.toList.Perm l
  strict : l.Pairwise fun a b => cmp a b = .lt

theorem holds_leaf : (leaf : HeapTree α).Holds cmp [] :=
  ⟨by simp, trivial, .refl _, .nil⟩

theorem Holds.size_eq (h : t.Holds cmp l) : t.size = l.length := by
  rw [size_eq_length, h.perm.length_eq]

theorem Holds.mem_iff (h : t.Holds cmp l) : x ∈ t.toList ↔ x ∈ l := h.perm.mem_iff

theorem div_two_pow_log2 (n : Nat) : (n + 1) / 2 ^ (n + 1).log2 = 1 := by
  refine Nat.div_eq_of_lt_le ?_ ?_
  · rw [Nat.one_mul]
    exact Nat.log2_self_le (by omega)
  · have := Nat.lt_log2_self (n := n + 1)
    rw [Nat.pow_succ] at this
    omega

theorem Holds.top?_eq (h : TotalPreorderOn cmp S) (hS : ∀ a ∈ l, S a) (ht : t.Holds cmp l) :
    t.top? = l.getLast? := by
  rcases List.eq_nil_or_concat' l with rfl | ⟨init, m, rfl⟩
  · cases t with
    | leaf => rfl
    | node tl y tr => exact absurd ht.perm.length_eq (by simp)
  · cases t with
    | leaf => exact absurd ht.perm.length_eq (by simp)
    | node tl y tr =>
      have hSt : ∀ a ∈ (node tl y tr).toList, S a := fun a ha => hS a (ht.mem_iff.mp ha)
      have hy : y ∈ init ++ [m] := ht.mem_iff.mp (mem_of_top? rfl)
      have hmy : cmp m y ≠ .gt :=
        ht.heaped.below_top h hSt rfl m (ht.mem_iff.mpr (by simp))
      rcases List.mem_append.mp hy with hyi | hym
      · have hym : cmp y m = .lt := (List.pairwise_append.mp ht.strict).2.2 y hyi m (by simp)
        exact absurd ((h.lt_iff_gt (hS y hy) (hS m (by simp))).mp hym) hmy
      · rw [List.getLast?_concat, List.mem_singleton.mp hym]
        rfl

/-! ## Operations -/

theorem Holds.push (h : TotalPreorderOn cmp S) (hx : S x) (hS : ∀ a ∈ l, S a)
    (hne : ∀ a ∈ l, cmp x a ≠ .eq) (ht : t.Holds cmp l) :
    (t.push cmp x).Holds cmp (place cmp x l) := by
  have hp := div_two_pow_log2 l.length
  obtain ⟨hfill, hperm⟩ := insertAt_spec cmp x hp (by omega) ht.fills
  have hheap := heaped_insertAt h hx (fun a ha => hS a (ht.mem_iff.mp ha)) hp (by omega) ht.fills
    ht.heaped
  rw [HeapTree.push, ht.size_eq]
  refine ⟨?_, hheap, ?_, strict_place h hx hS hne ht.strict⟩
  · rwa [length_place]
  · exact hperm.trans ((ht.perm.cons x).trans (place_perm x l).symm)

theorem Holds.takeLast? (h : TotalPreorderOn cmp S) (hS : ∀ a ∈ init ++ [m], S a)
    (ht : t.Holds cmp (init ++ [m])) :
    (t.takeLast? = some (m, leaf) ∧ init = []) ∨
      ∃ x tl tr, t.takeLast? = some (x, node tl m tr) ∧ (node tl m tr).Fills init.length 1 ∧
        (node tl m tr).Heaped cmp ∧ (x :: (tl.toList ++ tr.toList)).Perm init := by
  have hsize : t.size = init.length + 1 := by simp [ht.size_eq]
  have hfill : t.Fills (init.length + 1) 1 := by simpa using ht.fills
  obtain ⟨x, rest, htake, hrest, hperm, htop⟩ :=
    takeAt?_spec (div_two_pow_log2 init.length) (by omega) hfill
  obtain ⟨hheap, -⟩ := heaped_takeAt? htake ht.heaped
  have hlist : (x :: rest.toList).Perm (init ++ [m]) := hperm.symm.trans ht.perm
  rw [HeapTree.takeLast?, hsize, htake]
  cases rest with
  | leaf =>
    left
    have hone : init = [] := by simpa using hlist.length_eq
    subst hone
    obtain rfl : x = m := by simpa using hlist
    exact ⟨rfl, rfl⟩
  | node tl y tr =>
    right
    have hlog : 0 < (init.length + 1).log2 := by
      have hlen := hlist.length_eq
      simp only [toList_node, List.length_cons, List.length_append] at hlen
      exact (Nat.le_log2 (by omega)).mpr (by simp at hlen ⊢; omega)
    have hym : (node tl y tr).top? = some m := by
      rw [htop hlog, ht.top?_eq h hS, List.getLast?_concat]
    obtain rfl := Option.some.inj hym
    refine ⟨x, tl, tr, rfl, hrest, hheap, ?_⟩
    have hswap : (y :: x :: (tl.toList ++ tr.toList)).Perm (y :: init) :=
      (List.Perm.swap x y _).trans (hlist.trans (List.perm_append_singleton y init))
    exact hswap.cons_inv

theorem forall_mem_of_perm {tl tr : HeapTree α} (hS : ∀ a ∈ init ++ [m], S a)
    (hperm : (x :: (tl.toList ++ tr.toList)).Perm init) :
    S x ∧ ∀ a ∈ (node tl m tr).toList, S a := by
  have hall : ∀ a ∈ x :: (tl.toList ++ tr.toList), S a :=
    fun a ha => hS a (List.mem_append_left _ (hperm.mem_iff.mp ha))
  obtain ⟨hx, hrest⟩ := List.forall_mem_cons.mp hall
  exact ⟨hx, List.forall_mem_cons.mpr ⟨hS m (by simp), hrest⟩⟩

theorem Holds.sinkTop (h : TotalPreorderOn cmp S) (hx : S x) (hS : ∀ a ∈ init ++ [m], S a)
    (hne : ∀ a ∈ init, cmp x a ≠ .eq) (ht : t.Holds cmp (init ++ [m])) :
    (t.sink cmp x).Holds cmp (place cmp x init) := by
  cases t with
  | leaf => exact absurd ht.perm.length_eq (by simp)
  | node tl y tr =>
    have htop : (node tl y tr).top? = some m := by rw [ht.top?_eq h hS, List.getLast?_concat]
    obtain rfl := Option.some.inj htop
    have hbelow : (tl.toList ++ tr.toList).Perm init :=
      (ht.perm.trans (List.perm_append_singleton y init)).cons_inv
    refine ⟨?_, ?_, ?_, ?_⟩
    · rw [length_place, fills_sink]
      simpa using ht.fills
    · exact heaped_sink h hx (fun a ha => hS a (ht.mem_iff.mp ha)) ht.fills ht.heaped
    · exact (sink_perm x _).trans ((hbelow.cons x).trans (place_perm x init).symm)
    · exact strict_place h hx (fun a ha => hS a (by simp [ha])) hne
        (List.pairwise_append.mp ht.strict).1

theorem Holds.pop? (h : TotalPreorderOn cmp S) (hS : ∀ a ∈ init ++ [m], S a)
    (ht : t.Holds cmp (init ++ [m])) :
    ∃ rest, t.pop? cmp = some (m, rest) ∧ rest.Holds cmp init := by
  have hstrict := (List.pairwise_append.mp ht.strict).1
  rcases ht.takeLast? h hS with ⟨htake, rfl⟩ | ⟨x, tl, tr, htake, hfill, hheap, hperm⟩
  · exact ⟨leaf, by rw [HeapTree.pop?, htake], holds_leaf⟩
  · obtain ⟨hx, hSn⟩ := forall_mem_of_perm hS hperm
    refine ⟨(replaceFromBottom cmp x (node tl m tr)).1, by rw [HeapTree.pop?, htake], ?_⟩
    exact ⟨fills_replaceFromBottom.mpr hfill, heaped_replaceFromBottom h hx hSn hfill hheap,
      (replaceFromBottom_perm cmp x _).trans hperm, hstrict⟩

theorem drainOnto_eq (h : TotalPreorderOn cmp S) (hS : ∀ a ∈ l, S a) (ht : t.Holds cmp l)
    (collected : List α) : drainOnto cmp collected l.length t = l ++ collected := by
  -- every step takes the last item of `l` off the heap and puts it in front of `collected`
  induction hn : l.length generalizing l t collected with
  | zero =>
    obtain rfl := List.length_eq_zero_iff.mp hn
    rfl
  | succ n ih =>
    obtain ⟨init, m, rfl⟩ : ∃ init m, l = init ++ [m] := by
      rcases List.eq_nil_or_concat' l with rfl | ⟨init, m, rfl⟩
      · cases hn
      · exact ⟨init, m, rfl⟩
    have hlen : init.length = n := by simpa using hn
    rw [drainOnto]
    rcases ht.takeLast? h hS with ⟨htake, rfl⟩ | ⟨x, tl, tr, htake, hfill, hheap, hperm⟩
    · rw [htake]
      rfl
    · obtain ⟨hx, hSn⟩ := forall_mem_of_perm hS hperm
      have hsunk : (sink cmp x (node tl m tr)).Holds cmp init :=
        ⟨fills_sink.mpr hfill, heaped_sink h hx hSn hfill hheap,
          (sink_perm x _).trans hperm, (List.pairwise_append.mp ht.strict).1⟩
      rw [htake]
      simpa using ih (fun a ha => hS a (by simp [ha])) hsunk (m :: collected) hlen

theorem Holds.drain (h : TotalPreorderOn cmp S) (hS : ∀ a ∈ l, S a) (ht : t.Holds cmp l) :
    t.drain cmp = l := by
  rw [HeapTree.drain, ht.size_eq, drainOnto_eq h hS ht, List.append_nil]

end HeapTree

end SelectMerge

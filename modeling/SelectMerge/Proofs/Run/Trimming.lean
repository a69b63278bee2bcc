import SelectMerge.Proofs.Run.Ledger

/-!
# Segments that trim their output

A segment may keep no more than its best rows and hand over these alone. A run offers them in output
order and not as they arose, so heaps, stamps and evictions differ from those of a run over all the
rows. As long as no segment keeps fewer rows than the run, the two end alike all the same
(`reduce_trims`).

A trimmed block `StandsFor` the whole one: the combiner keeps the same of any rows with the one or
the other behind them. Ledgers that differ only in rows that are not kept are `Alike`, and stay so
with blocks that stand for each other (`Alike.enter`), to the end of the run (`Alike.run`).
-/

namespace SelectMerge

/-! ## Blocks for blocks -/

/-- Whether a block can be given to a combiner for another one. -/
structure Block.StandsFor (c : Combiner) (b b' : Block) : Prop where
  schema : b.schema = b'.schema
  isEmpty : b.isEmpty = b'.isEmpty
  rows : ∀ seen : List Row, c.keep (seen ++ b.output) = c.keep (seen ++ b'.output)

theorem Block.StandsFor.lent?_eq {c : Combiner} {b b' : Block} (h : StandsFor c b b') :
    b.lent? = b'.lent? := by
  rw [lent?, lent?, h.schema, h.isEmpty]

namespace Ledger

variable {c : Combiner} {l l' : Ledger} {b b' : Block} {all : List Row}

/-- Whether ledgers differ at most in rows that the combiner does not keep. -/
structure Alike (c : Combiner) (l l' : Ledger) : Prop where
  schema : l.schema = l'.schema
  rows : c.keep l.rows = c.keep l'.rows
  fallback : l.fallback = l'.fallback
  merged : l.merged = l'.merged

theorem Alike.selection_eq (h : l.Alike c l') : l.selection c = l'.selection c := by
  rw [selection, selection, h.schema, h.rows, h.fallback, h.merged]

theorem Alike.collected_eq (h : l.Alike c l') : l.collected c = l'.collected c := by
  rw [collected, collected, h.schema, h.rows]

theorem Alike.append (h : l.Alike c l') (hb : b.StandsFor c b') (hcons : c.Consistent all)
    (hl : l.rows ⊆ all) (hl' : l'.rows ⊆ all) (hall : b'.output ⊆ all) :
    c.keep (l.rows ++ b.output) = c.keep (l'.rows ++ b'.output) := by
  have hleft : c.Consistent (l.rows ++ b'.output) := hcons.mono (List.append_subset.mpr ⟨hl, hall⟩)
  have hright : c.Consistent (l'.rows ++ b'.output) :=
    hcons.mono (List.append_subset.mpr ⟨hl', hall⟩)
  calc c.keep (l.rows ++ b.output)
      = c.keep (l.rows ++ b'.output) := hb.rows l.rows
    _ = c.keep (c.keep l.rows ++ b'.output) := (Combiner.keep_keep_append hleft).symm
    _ = c.keep (c.keep l'.rows ++ b'.output) := by rw [h.rows]
    _ = c.keep (l'.rows ++ b'.output) := Combiner.keep_keep_append hright

theorem Alike.enter (h : l.Alike c l') (hb : b.StandsFor c b') (hcons : c.Consistent all)
    (hl : l.rows ⊆ all) (hl' : l'.rows ⊆ all) (hall : b'.output ⊆ all) :
    (∃ m m', l.enter c b = .ok m ∧ l'.enter c b' = .ok m' ∧ m.Alike c m') ∨
      ∃ e, l.enter c b = .error e ∧ l'.enter c b' = .error e := by
  cases hempty : b'.isEmpty with
  | true =>
    refine .inl ⟨_, _, enter_of_isEmpty (hb.isEmpty.trans hempty), enter_of_isEmpty hempty, ?_⟩
    exact ⟨h.schema, h.rows, by rw [h.fallback, hb.lent?_eq], h.merged⟩
  | false =>
    have hbase : l.base c b.schema = l'.base c b'.schema := by
      rw [base, base, h.schema, hb.schema]
    rw [enter_of_not_isEmpty (hb.isEmpty.trans hempty), enter_of_not_isEmpty hempty, hbase,
      hb.schema]
    cases l'.base c b'.schema with
    | error e => exact .inr ⟨e, rfl, rfl⟩
    | ok u =>
      simp only [Except.bind]
      cases u.cover b'.schema with
      | error e => exact .inr ⟨e, rfl, rfl⟩
      | ok v =>
        exact .inl ⟨_, _, rfl, rfl, rfl, h.append hb hcons hl hl' hall, h.fallback,
          congrArg (· + 1) h.merged⟩

/-- Runs over blocks that stand for each other, with the same readings of the clock, end alike. -/
theorem Alike.run {bs bs' : List (Timed Block)} (h : l.Alike c l') (deadline : Option Nat)
    (hbs : List.Forall₂ (fun b b' => b.now = b'.now ∧ b.item.StandsFor c b'.item) bs bs')
    (hcons : c.Consistent all) (hl : l.rows ++ bs.flatMap (·.item.output) ⊆ all)
    (hl' : l'.rows ++ bs'.flatMap (·.item.output) ⊆ all) :
    Ledger.run c deadline bs l = Ledger.run c deadline bs' l' := by
  induction hbs generalizing l l' with
  | nil => exact congrArg Except.ok h.selection_eq
  | @cons b b' bs bs' hb _ ih =>
    obtain ⟨hnow, hb⟩ := hb
    rw [List.flatMap_cons, ← List.append_assoc, List.append_subset] at hl hl'
    obtain ⟨hseen, hrest⟩ := hl
    obtain ⟨hseen', hrest'⟩ := hl'
    obtain ⟨hrows, -⟩ := List.append_subset.mp hseen
    obtain ⟨hrows', hall⟩ := List.append_subset.mp hseen'
    rw [Ledger.run, Ledger.run, hnow, h.collected_eq, h.merged]
    split
    · rfl
    · rcases h.enter hb hcons hrows hrows' hall with ⟨m, m', hm, hm', halike⟩ | ⟨e, he, he'⟩
      · rw [hm, hm']
        rw [← rows_of_enter hm] at hseen
        rw [← rows_of_enter hm'] at hseen'
        exact ih halike (List.append_subset.mpr ⟨hseen, hrest⟩)
          (List.append_subset.mpr ⟨hseen', hrest'⟩)
      · rw [he, he']

end Ledger

/-! ## Segments -/

/-- The reading of the clock with something made of the input. -/
def Timed.map {α β : Type} (f : α → β) (t : Timed α) : Timed β := ⟨t.now, f t.item⟩

/-- The rows of a segment, and how many it keeps when it trims its output. -/
structure Segment where
  schema : Schema
  rows : List Row
  bound : Nat

namespace Segment

variable {s : Segment} {o : RowOrder} {k : Nat}

/-- The block of all rows. -/
def whole (s : Segment) : Block := .ofRows s.schema s.rows

/-- The block of the best rows. -/
def trimmed (o : RowOrder) (s : Segment) : Block := .orderedOfRows s.schema s.rows o s.bound

theorem output_trimmed (h : TotalPreorderOn o.compare (· ∈ s.rows)) :
    (s.trimmed o).output = best o.compare s.bound s.rows :=
  TopK.sorted_offerAll_empty h (fun _ hr => hr) s.bound

theorem isEmpty_trimmed (h : TotalPreorderOn o.compare (· ∈ s.rows)) (hbound : 0 < s.bound) :
    (s.trimmed o).isEmpty = s.whole.isEmpty := by
  obtain ⟨hl, -⟩ := lists_reopen h s.bound
  have hlen : (s.trimmed o).length = min s.bound s.rows.length := by
    refine hl.size_eq.trans ?_
    rw [best, List.length_take, (stableSort_perm s.rows).length_eq]
  have hwhole : s.whole.length = s.rows.length := rfl
  rw [Block.isEmpty, Block.isEmpty, hlen, hwhole, Bool.eq_iff_iff, beq_iff_eq, beq_iff_eq]
  omega

theorem trimmed_standsFor (h : TotalPreorderOn o.compare (· ∈ s.rows)) (hk : 0 < k)
    (hbound : k ≤ s.bound) : (s.trimmed o).StandsFor (.bestRows o k) s.whole where
  schema := rfl
  isEmpty := isEmpty_trimmed h (by omega)
  rows seen := by
    rw [output_trimmed h]
    exact best_append_best_right h (fun _ hr => hr) hbound seen

/-! ### Lists of segments -/

variable {ss : List (Timed Segment)}

/-- The blocks that segments hand over whole. -/
def wholes (ss : List (Timed Segment)) : List (Timed Block) := ss.map (Timed.map Segment.whole)

/-- The blocks that segments hand over trimmed. -/
def trims (o : RowOrder) (ss : List (Timed Segment)) : List (Timed Block) :=
  ss.map (Timed.map (Segment.trimmed o))

theorem flatMap_output_wholes (ss : List (Timed Segment)) :
    (wholes ss).flatMap (·.item.output) = ss.flatMap (·.item.rows) := by
  rw [wholes, List.flatMap_map]
  rfl

theorem mono_segment (hpre : TotalPreorderOn o.compare (· ∈ ss.flatMap (·.item.rows)))
    {s : Timed Segment} (hs : s ∈ ss) : TotalPreorderOn o.compare (· ∈ s.item.rows) :=
  hpre.mono fun _ hrow => List.mem_flatMap.mpr ⟨s, hs, hrow⟩

theorem flatMap_output_trims_subset
    (hpre : TotalPreorderOn o.compare (· ∈ ss.flatMap (·.item.rows))) :
    (trims o ss).flatMap (·.item.output) ⊆ ss.flatMap (·.item.rows) := by
  intro row hrow
  rw [trims, List.flatMap_map] at hrow
  obtain ⟨s, hs, hrow⟩ := List.mem_flatMap.mp hrow
  have hout : row ∈ (s.item.trimmed o).output := hrow
  rw [Segment.output_trimmed (mono_segment hpre hs)] at hout
  exact List.mem_flatMap.mpr ⟨s, hs, mem_of_mem_best hout⟩

theorem forall₂_standsFor (hk : 0 < k) (hbound : ∀ s ∈ ss, k ≤ s.item.bound)
    (hpre : TotalPreorderOn o.compare (· ∈ ss.flatMap (·.item.rows))) :
    List.Forall₂ (fun b b' => b.now = b'.now ∧ b.item.StandsFor (.bestRows o k) b'.item)
      (trims o ss) (wholes ss) := by
  rw [trims, wholes, List.forall₂_map_left_iff, List.forall₂_map_right_iff, List.forall₂_same]
  intro s hs
  exact ⟨rfl, Segment.trimmed_standsFor (mono_segment hpre hs) hk (hbound s hs)⟩

end Segment

/-! ## Runs over segments -/

namespace Reducer

variable {r : Reducer} {o : RowOrder} {k : Nat} {ss : List (Timed Segment)}

/-- A run for the best rows ends over trimmed segments as it does over whole ones: with the same
selection, ties in the same order, or for the same reason, with the same rows at its deadline. -/
theorem reduce_trims (hr : r.combiner = .bestRows o k) (hk : 0 < k)
    (hbound : ∀ s ∈ ss, k ≤ s.item.bound)
    (hpre : TotalPreorderOn o.compare (· ∈ ss.flatMap (·.item.rows))) :
    (∀ sel, (r.reduce (Segment.trims o ss)).1 = .ok sel ↔
        (r.reduce (Segment.wholes ss)).1 = .ok sel) ∧
      (r.reduce (Segment.trims o ss)).1.mapError Halt.settle =
        (r.reduce (Segment.wholes ss)).1.mapError Halt.settle := by
  have hcons : r.combiner.Consistent (ss.flatMap (·.item.rows)) := by
    intro o' ho'
    rw [hr] at ho'
    obtain rfl := Option.some.inj ho'
    exact hpre
  have hsub := Segment.flatMap_output_trims_subset hpre
  have hwhole : (Segment.wholes ss).flatMap (·.item.output) ⊆ ss.flatMap (·.item.rows) := by
    rw [Segment.flatMap_output_wholes]
    exact List.Subset.refl _
  have hblocks := Segment.forall₂_standsFor hk hbound hpre
  rw [← hr] at hblocks
  have hend : (r.reduce (Segment.trims o ss)).1.mapError Halt.settle =
      (r.reduce (Segment.wholes ss)).1.mapError Halt.settle := by
    rw [reduce_eq_run (hcons.mono hsub), reduce_eq_run (hcons.mono hwhole)]
    have hstart : Ledger.Alike r.combiner .empty .empty := ⟨rfl, rfl, rfl, rfl⟩
    exact hstart.run r.settings.timeoutMs hblocks hcons hsub hwhole
  refine ⟨?_, hend⟩
  intro sel
  rw [← mapError_eq_ok_iff (f := Halt.settle), hend, mapError_eq_ok_iff]

/-! ### Teams -/

/-- The players of a team with their scores. -/
def team (t : ColumnType) (ps : List (Cell × String)) (bound : Nat) : Segment :=
  ⟨(players t []).schema, ps.map playerRow, bound⟩

/-- Three teams, of which the second has no players and the last keeps more than the run. -/
def teams : List (Timed Segment) :=
  [⟨0, team (.one .int) [(.int 4, "ann"), (.int 7, "bob"), (.null, "cid"), (.int 7, "dot")] 3⟩,
    ⟨1, team (.one .string) [] 5⟩,
    ⟨2, team (.one .long) [(.long 7, "eve"), (.long 9, "flo"), (.long 7, "gus")] 4⟩]

/-- Of four players that tie, the first two are selected, in the order of their team. -/
theorem reduce_trims_teams :
    (scoreReducer.reduce (Segment.trims scoreOrder teams)).1 =
      .ok ⟨(players (.one .long) []).schema,
        [[.long 9, .string "flo"], [.int 7, .string "bob"], [.int 7, .string "dot"]], 2⟩ := by
  have hbound : ∀ s ∈ teams, 3 ≤ s.item.bound := by
    intro s hs
    simp only [teams, List.mem_cons, List.not_mem_nil, or_false] at hs
    rcases hs with rfl | rfl | rfl <;> decide
  have hpre : TotalPreorderOn scoreOrder.compare (· ∈ teams.flatMap (·.item.rows)) :=
    totalPreorderOn_players [(.int 4, "ann"), (.int 7, "bob"), (.null, "cid"), (.int 7, "dot"),
      (.long 7, "eve"), (.long 9, "flo"), (.long 7, "gus")] (by simp [Cell.quantity?])
  have hr : scoreReducer.combiner = .bestRows scoreOrder 3 := rfl
  obtain ⟨hok, -⟩ := reduce_trims hr (by decide) hbound hpre
  exact (hok _).mpr rfl

end Reducer

end SelectMerge

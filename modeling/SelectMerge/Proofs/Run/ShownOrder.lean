import SelectMerge.Proofs.Rank.Levelling
import SelectMerge.Proofs.Run.Turns

/-!
# The order of projected rows

Rows are ranked as they came and cast when they are shown. What is shown is in the order of the
query as long as the casts level no two numbers under a key that others follow. Two whole numbers
beyond the exact range of DOUBLE are levelled when another segment turns their column into one of
DOUBLE, and then the keys after it may list their rows the other way round
(`not_listed_project_laps`).

However blocks come (`Brings`), what is kept of them is projected, row by row, to what it becomes
(`exists_project_selection`), and such rows are in order exactly if, pair by pair, the keys that are
not levelled list them so (`pairwise_becomes_iff`). `exists_project_perform` says both of every job.
-/

namespace SelectMerge

/-! ## Rows of many schemas under their cover -/

namespace RowOrder

variable {o : RowOrder} {s u : Schema} {r r' : Row}

theorem becomes_of_projectRow (hu : u.Aligned) (hvalid : o.validate u = .ok ())
    (hsu : s.RisesTo u) (hr : s.Fits r) (h : (u.projectRow r).map (·.row) = .ok r') :
    o.Becomes u.types r r' := by
  intro key hkey
  obtain ⟨-, t, -, ht, horderable⟩ := validate_eq_ok_iff.mp hvalid key hkey
  have hcast := Schema.cast?_cell_of_projectRow hu h ht
  have harray : t.isArray = false := by
    cases t with
    | one a => rfl
    | many a => cases horderable
  obtain ⟨hlt, rfl⟩ := List.getElem?_eq_some_iff.mp ht
  have hlt' : key.column < s.types.length := hsu.length_eq ▸ hlt
  have hrow : key.column < r.length := hr.length_eq ▸ hlt'
  have hjoin := (List.forall₂_iff_get.mp hsu).2 key.column hlt' hlt
  have hfits := (List.forall₂_iff_get.mp hr).2 key.column hrow hlt'
  have hcell : r.cell key.column = r.get ⟨key.column, hrow⟩ :=
    Row.cell_of_getElem? (List.getElem?_eq_getElem hrow)
  rw [← hcell] at hfits
  exact ⟨_, ht, Cell.becomes_of_cast? hfits hjoin harray hcast⟩

theorem totalPreorderOn_of_trans {rows : List Row}
    (h : ∀ a ∈ rows, ∀ b ∈ rows, ∀ c ∈ rows,
      o.compare a b ≠ .gt → o.compare b c ≠ .gt → o.compare a c ≠ .gt) :
    TotalPreorderOn o.compare (· ∈ rows) where
  swap a b _ _ := compareBy_swap o.nulls o.keys a b
  trans a b c ha hb hc := h a ha b hb c hc

theorem forall_compare_becomes_iff {types : List ColumnType} {a a' : Row} {rows rows' : List Row}
    (ha : o.Becomes types a a') (h : List.Forall₂ (o.Becomes types) rows rows') :
    (∀ b' ∈ rows', o.compare a' b' ≠ .gt) ↔
      ∀ b ∈ rows, (o.unlevelled types a b).compare a b ≠ .gt := by
  induction h with
  | nil => simp
  | cons hb _ ih => rw [List.forall_mem_cons, List.forall_mem_cons, ih, compare_becomes ha hb]

/-- Rows that become others are in order exactly if, pair by pair, the keys that are not levelled
list them so. -/
theorem pairwise_becomes_iff {types : List ColumnType} {rows rows' : List Row}
    (h : List.Forall₂ (o.Becomes types) rows rows') :
    Listed o.compare rows' ↔
      rows.Pairwise fun a b => (o.unlevelled types a b).compare a b ≠ .gt := by
  induction h with
  | nil => exact iff_of_true .nil .nil
  | cons ha hrest ih =>
    rw [Listed] at ih
    rw [Listed, List.pairwise_cons, List.pairwise_cons, ih, forall_compare_becomes_iff ha hrest]

theorem pairwise_unlevelled {types : List ColumnType} {rows : List Row}
    (hexact : ∀ key ∈ o.keys.dropLast, ∀ r ∈ rows, Exact types key r)
    (h : Listed o.compare rows) :
    rows.Pairwise fun a b => (o.unlevelled types a b).compare a b ≠ .gt := by
  refine h.imp_of_mem fun {a b} ha hb hab => unlevelled_compare_ne_gt (fun key hkey => ?_) hab
  exact levels_eq_false_of_exact (hexact key hkey a ha) (hexact key hkey b hb)

theorem exists_project_becomes {rows : List Row} (hu : u.Aligned) (hvalid : o.validate u = .ok ())
    (hrows : ∀ r ∈ rows, ∃ s : Schema, s.Fits r ∧ s.RisesTo u) :
    ∃ rows', u.project rows = .ok rows' ∧ List.Forall₂ (o.Becomes u.types) rows rows' := by
  obtain ⟨rows', hproject⟩ := Schema.exists_project hu fun r hr => by
    obtain ⟨s, hs, hsu⟩ := hrows r hr
    exact hsu.admits hs
  have hall := (List.forall₂_and_left _ _).mpr ⟨hrows, mapM_eq_ok_iff.mp hproject⟩
  refine ⟨rows', hproject, hall.imp ?_⟩
  rintro r r' ⟨⟨s, hs, hsu⟩, h⟩
  exact becomes_of_projectRow hu hvalid hsu hs h

end RowOrder

/-! ## Runs -/

namespace Reducer

variable {r : Reducer} {job : Job} {bs : List Block} {sel : Selection} {o : RowOrder}

/-- Whether all that a job brings are some blocks, each of them in time. -/
structure Brings (r : Reducer) (job : Job) (bs : List Block) : Prop where
  folds : job.turns.all (Turn.folds r.settings.timeoutMs)
  blocks : job.turns.filterMap Turn.block? = bs

theorem perform_of_brings (hbs : r.Brings job bs) (haligned : ∀ b ∈ bs, b.schema.Aligned)
    (hcons : r.combiner.Consistent (bs.flatMap (·.output)))
    (hjoin : Joinable r.combiner (nonempty bs)) :
    (r.perform job).1 = .ok ((Ledger.total bs).selection r.combiner) := by
  have hitems : (bs.map (Timed.mk 0)).map (·.item) = bs := by simp [Function.comp_def]
  have hreduce := fst_run_turns_eq_reduce (r := r) hbs.folds (hitems.trans hbs.blocks.symm)
  have hcons' : r.untimed.combiner.Consistent
      ((bs.map (Timed.mk 0)).flatMap (·.item.output)) := by
    rw [List.flatMap_map]
    exact hcons
  rw [perform_eq_run, hreduce, reduce_eq_ok_iff (fun b _ => inTime_none b.now)
    (by simpa using haligned) hcons', hitems]
  exact ⟨hjoin, rfl⟩

theorem fits_risesTo_of_kept {c : Combiner} (htyped : ∀ b ∈ bs, b.Typed)
    {u : Schema} (hu : Schema.IsCover ((nonempty bs).map (·.schema)) u) {row : Row}
    (hrow : row ∈ c.keep (bs.flatMap (·.output))) : ∃ s : Schema, s.Fits row ∧ s.RisesTo u := by
  have hrow' := c.keep_subset _ hrow
  rw [← flatMap_output_nonempty] at hrow'
  obtain ⟨b, hb, hrow'⟩ := List.mem_flatMap.mp hrow'
  have hmem : b.schema ∈ (nonempty bs).map (·.schema) := List.mem_map_of_mem hb
  refine ⟨b.schema, (htyped b (nonempty_subset bs hb)).fits row hrow', ?_⟩
  exact Schema.forall₂_of_below (hu.length_types hmem) (hu.below hmem)

theorem exists_valid_cover {c : Combiner} (hjoin : Joinable c (nonempty bs))
    (hne : nonempty bs ≠ []) (haligned : ∀ b ∈ bs, b.schema.Aligned) :
    ∃ u, Schema.coverAll? ((nonempty bs).map (·.schema)) = some u ∧
      Schema.IsCover ((nonempty bs).map (·.schema)) u ∧
      ∀ o, c.order? = some o → o.validate u = .ok () := by
  have hbs : ∀ b ∈ nonempty bs, b.schema.Aligned := fun b hb => haligned b (nonempty_subset bs hb)
  obtain ⟨u, hu⟩ := hjoin.exists_coverAll? hne hbs
  have hcover := Schema.isCover_of_coverAll? (List.forall_mem_map.mpr hbs) hu
  refine ⟨u, hu, hcover, fun o ho => ?_⟩
  obtain ⟨b, hb⟩ := List.exists_mem_of_ne_nil _ hne
  have hcompat := hcover.isCompatible (List.mem_map_of_mem hb)
  exact RowOrder.validate_of_isCompatible (hbs b hb) hcover.aligned
    (Schema.isCompatible_symm hcover.aligned (hbs b hb) hcompat) (hjoin.valid o ho b hb)

/-- What is kept of blocks that can be joined is projected, row by row, to what it becomes. -/
theorem exists_project_selection {c : Combiner} (ho : c.order? = some o)
    (htyped : ∀ b ∈ bs, b.Typed) (hjoin : Joinable c (nonempty bs)) :
    ∃ rows, ((Ledger.total bs).selection c).project = .ok rows ∧
      List.Forall₂ (o.Becomes ((Ledger.total bs).selection c).schema.types)
        ((Ledger.total bs).selection c).rows rows := by
  have hkept : ((Ledger.total bs).selection c).rows = c.keep (bs.flatMap (·.output)) := rfl
  rw [Selection.project, hkept]
  by_cases hne : nonempty bs = []
  · -- without rows there is nothing to cast
    have hnil : c.keep (bs.flatMap (·.output)) = [] := by
      rw [← flatMap_output_nonempty, hne]
      exact List.subset_nil.mp (c.keep_subset [])
    rw [hnil]
    exact ⟨[], rfl, .nil⟩
  · obtain ⟨u, hu, hcover, hvalid⟩ :=
      exists_valid_cover hjoin hne fun b hb => (htyped b hb).aligned
    have hschema : ((Ledger.total bs).selection c).schema = u := by
      rw [Ledger.selection, Ledger.total, hu, Option.getD_some]
    rw [hschema]
    exact RowOrder.exists_project_becomes hcover.aligned (hvalid o ho)
      fun row hrow => fits_risesTo_of_kept htyped hcover hrow

/-- However typed blocks come, if they can be joined and the order of the query is consistent on
their rows, the first rows of the order are kept and can all be cast. They are still in order when
they are shown exactly if, pair by pair, the keys that are not levelled list them so; and they are
if every key but the last has only numbers that a double holds exactly, or is not of DOUBLE. -/
theorem exists_project_perform (hbs : r.Brings job bs) (ho : r.combiner.order? = some o)
    (htyped : ∀ b ∈ bs, b.Typed) (hjoin : Joinable r.combiner (nonempty bs))
    (hpre : TotalPreorderOn o.compare (· ∈ bs.flatMap (·.output))) :
    ∃ sel rows, (r.perform job).1 = .ok sel ∧
      sel.rows = (stableSort o.compare (bs.flatMap (·.output))).take r.combiner.bound ∧
      sel.project = .ok rows ∧
      (Listed o.compare rows ↔ sel.rows.Pairwise fun a b =>
        (o.unlevelled sel.schema.types a b).compare a b ≠ .gt) ∧
      ((∀ key ∈ o.keys.dropLast, ∀ row ∈ sel.rows, RowOrder.Exact sel.schema.types key row) →
        Listed o.compare rows) := by
  have hcons : r.combiner.Consistent (bs.flatMap (·.output)) := by
    intro o' ho'
    obtain rfl : o = o' := Option.some.inj (ho.symm.trans ho')
    exact hpre
  have hkeep : ((Ledger.total bs).selection r.combiner).rows =
      best o.compare r.combiner.bound (bs.flatMap (·.output)) := by
    show (r.combiner.arrange _).take _ = _
    rw [Combiner.arrange, ho, best]
    rfl
  have hperform := perform_of_brings hbs (fun b hb => (htyped b hb).aligned) hcons hjoin
  obtain ⟨rows, hproject, hbecomes⟩ := exists_project_selection ho htyped hjoin
  have hiff := RowOrder.pairwise_becomes_iff hbecomes
  refine ⟨_, rows, hperform, hkeep, hproject, hiff, fun hexact => hiff.mpr ?_⟩
  refine RowOrder.pairwise_unlevelled hexact ?_
  rw [hkeep]
  exact listed_best hpre (fun _ hrow => hrow) _

/-! ### Laps by distance -/

/-- By distance, and laps of one distance by their number. -/
def lapOrder : RowOrder := ⟨[⟨0, true⟩, ⟨1, true⟩], .last⟩

def lapReducer : Reducer := .ofCombiner (.bestRows lapOrder 10) .sequential

/-- A block of laps, with their distances and their numbers. -/
def laps (t : ColumnType) (ls : List (Cell × Int32)) : Block :=
  .ofRows (.ofColumns [("distance", t), ("lap", .one .int)]) (ls.map fun l => [l.1, .int l.2])

theorem typed_laps {t : ColumnType} {ls : List (Cell × Int32)} (h : ∀ l ∈ ls, l.1.fits t) :
    (laps t ls).Typed where
  aligned := rfl
  fits row hrow := by
    obtain ⟨l, hl, rfl⟩ := List.mem_map.mp hrow
    exact .cons (h l hl) (.cons rfl .nil)

/-- A lap whose distance is a fraction. -/
def shortLap : Block := laps (.one .double) [(.double ⟨0x3FE0000000000000⟩, 0)]

/-- Blocks in time, one after another. -/
def lapJob (bs : List Block) : Job := .feed (.blocks (bs.map (Timed.mk 0)))

/-- A block of laps with whole distances, and the short lap. -/
def lapBlocks (ls : List (Cell × Int32)) : List Block := [laps (.one .long) ls, shortLap]

theorem typed_lapBlocks {ls : List (Cell × Int32)} (h : ∀ l ∈ ls, l.1.fits (.one .long)) :
    ∀ b ∈ lapBlocks ls, b.Typed := by
  intro b hb
  simp only [lapBlocks, List.mem_cons, List.not_mem_nil, or_false] at hb
  rcases hb with rfl | rfl
  · exact typed_laps h
  · exact typed_laps (by decide)

def nearLaps : List Block :=
  lapBlocks [(.long 9007199254740992, 1), (.null, 3), (.long 7, 2)]

/-- Distances that doubles hold are still in order as doubles. -/
theorem exists_project_perform_laps :
    lapReducer.Brings (lapJob nearLaps) nearLaps ∧ (∀ b ∈ nearLaps, b.Typed) ∧
      Joinable lapReducer.combiner (nonempty nearLaps) ∧
      TotalPreorderOn lapOrder.compare (· ∈ nearLaps.flatMap (·.output)) ∧
      ∃ sel rows, (lapReducer.perform (lapJob nearLaps)).1 = .ok sel ∧ sel.project = .ok rows ∧
        rows.length = 4 ∧ Listed lapOrder.compare rows := by
  have hbs : lapReducer.Brings (lapJob nearLaps) nearLaps := ⟨rfl, rfl⟩
  have htyped : ∀ b ∈ nearLaps, b.Typed := typed_lapBlocks (by decide)
  have hjoin : Joinable lapReducer.combiner (nonempty nearLaps) := by
    refine .of_coverAll? (fun b hb => (htyped b (nonempty_subset _ hb)).aligned)
      (rfl : _ = some shortLap.schema) ?_
    intro o ho
    obtain rfl := Option.some.inj ho
    exact ⟨shortLap, .tail _ (.head _), rfl⟩
  have hpre : TotalPreorderOn lapOrder.compare (· ∈ nearLaps.flatMap (·.output)) :=
    RowOrder.totalPreorderOn_of_trans (by decide +kernel)
  have hsel : (lapReducer.perform (lapJob nearLaps)).1 = .ok ⟨shortLap.schema,
      [[.double ⟨0x3FE0000000000000⟩, .int 0], [.long 7, .int 2], [.long 9007199254740992, .int 1],
        [.null, .int 3]], 2⟩ := rfl
  obtain ⟨sel, rows, hperform, hrows, hproject, -, hexact⟩ :=
    exists_project_perform hbs rfl htyped hjoin hpre
  obtain rfl := Except.ok.inj (hsel.symm.trans hperform)
  refine ⟨hbs, htyped, hjoin, hpre, _, rows, hperform, hproject, ?_, hexact ?_⟩
  · exact (mapM_eq_ok_iff.mp hproject).length_eq.symm
  · intro key hkey row hrow _ n hn
    obtain rfl : key = ⟨0, true⟩ := List.mem_singleton.mp hkey
    simp only [List.mem_cons, List.not_mem_nil, or_false] at hrow
    rcases hrow with rfl | rfl | rfl | rfl
    · cases hn
    · obtain rfl := Quantity.whole.inj (Option.some.inj hn)
      decide
    · obtain rfl := Quantity.whole.inj (Option.some.inj hn)
      decide
    · cases hn

/-- A block of laps whose distances round to one double. -/
def farLaps : List Block := lapBlocks [(.long 9007199254740992, 2), (.long 9007199254740993, 1)]

/-- As long numbers the distances are told apart; as doubles they are one, and the laps are the
wrong way round. -/
theorem not_listed_project_laps :
    lapReducer.Brings (lapJob farLaps) farLaps ∧ (∀ b ∈ farLaps, b.Typed) ∧
      (∀ a ∈ farLaps, ∀ b ∈ farLaps, a.schema.isCompatible b.schema) ∧
      (∀ b ∈ farLaps, lapOrder.validate b.schema = .ok ()) ∧
      TotalPreorderOn lapOrder.compare (· ∈ farLaps.flatMap (·.output)) ∧
      ∃ sel, (lapReducer.perform (lapJob farLaps)).1 = .ok sel ∧
        sel.project = .ok [[.double ⟨0x3FE0000000000000⟩, .int 0],
          [.double ⟨0x4340000000000000⟩, .int 2], [.double ⟨0x4340000000000000⟩, .int 1]] ∧
        ¬ Listed lapOrder.compare [[.double ⟨0x3FE0000000000000⟩, .int 0],
          [.double ⟨0x4340000000000000⟩, .int 2], [.double ⟨0x4340000000000000⟩, .int 1]] := by
  refine ⟨⟨rfl, rfl⟩, typed_lapBlocks (by decide), by decide,
    List.forall_mem_cons.mpr ⟨rfl, List.forall_mem_singleton.mpr rfl⟩,
    RowOrder.totalPreorderOn_of_trans (by decide +kernel), _, rfl, rfl, ?_⟩
  unfold Listed
  decide +kernel

end Reducer

end SelectMerge

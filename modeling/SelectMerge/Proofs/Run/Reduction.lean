import SelectMerge.Proofs.Lookups
import SelectMerge.Proofs.Query.Output
import SelectMerge.Proofs.Run.Collection
import SelectMerge.Proofs.Schema.Casting
import SelectMerge.Run.Reducer
import SelectMerge.Run.ResultTable

/-!
# Reductions

A query answers with a window of the rows of all blocks, one block after another, stably sorted if
the query has an order, each cell cast to the type that its column has in all of them
(`exists_table_reduce`).

Two steps make this up. A run over blocks that can be merged ends with what the combiner makes of
all their rows (`exists_reduce`), and for rows that can be cast to the schema they come with there
is a table with the cells that are `Selection.shown` (`Selection.exists_table`). `MadeFor` says what
segments promise of their blocks.
-/

namespace SelectMerge

/-! ## Tables -/

namespace Selection

/-- The cells of a row that a query shows in some columns, cast to the types of a schema. -/
def shown (u : Schema) (columns : List String) (r : Row) : Option Row :=
  columns.mapM fun name => do
    let i ← u.indexOf? name
    let t ← u.types[i]?
    (r.cell i).cast? t

variable {u : Schema} {columns : List String} {r r' : Row}

theorem exists_indices (h : ∀ name ∈ columns, name ∈ u.names) :
    ∃ indices, (columns.mapM fun name =>
        match u.indexOf? name with
        | some i => Except.ok i
        | none => Except.error (Abort.failed (MergeError.unknownColumn name))) = .ok indices ∧
      List.Forall₂ (fun name i => u.indexOf? name = some i ∧ i < u.names.length)
        columns indices := by
  induction columns with
  | nil => exact ⟨[], rfl, .nil⟩
  | cons name columns ih =>
    obtain ⟨i, hi, hlt⟩ := Query.exists_indexOf? (h name (by simp))
    obtain ⟨indices, hindices, hall⟩ := ih fun name' hname' => h name' (by simp [hname'])
    refine ⟨i :: indices, ?_, .cons ⟨hi, hlt⟩ hall⟩
    rw [List.mapM_cons, hi, hindices]
    rfl

theorem lt_of_mem_indices {indices : List Nat} {i : Nat}
    (h : List.Forall₂ (fun name i => u.indexOf? name = some i ∧ i < u.names.length)
      columns indices) (hi : i ∈ indices) : i < u.names.length := by
  obtain ⟨n, hn, rfl⟩ := List.getElem_of_mem hi
  exact ((List.forall₂_iff_get.mp h).2 n (h.length_eq ▸ hn) hn).2

theorem shown_eq (hu : u.Aligned) {indices : List Nat}
    (hindices : List.Forall₂ (fun name i => u.indexOf? name = some i ∧ i < u.names.length)
      columns indices)
    (hcells : ∀ (i : Nat) t, u.types[i]? = some t → (r.cell i).cast? t = some (r'.cell i)) :
    shown u columns r = some (indices.map fun i => r'.cell i) := by
  induction hindices with
  | nil => rfl
  | @cons name i columns indices hi _ ih =>
    have hlt : i < u.types.length := hu ▸ hi.2
    have hcell := hcells i _ (List.getElem?_eq_getElem hlt)
    unfold shown at ih ⊢
    rw [List.mapM_cons, ih]
    simp [hi.1, hlt, hcell]

/-- The table of rows that can be cast to the schema they come with. -/
theorem exists_table {q : Query} {sel : Selection} (hplace : ¬ sel.schema.isPlaceholder)
    (hcolumns : ∀ name ∈ q.outputColumns sel.schema, name ∈ sel.schema.names)
    (hu : sel.schema.Aligned)
    (hrows : ∀ r ∈ sel.rows, ∃ s : Schema, s.WidensTo sel.schema ∧ s.Fits r) :
    ∃ t, sel.table q = .ok t ∧ t.columns = q.outputColumns sel.schema ∧
      t.rows.map some = ((sel.rows.drop q.offset).take q.limit).map
        (shown sel.schema (q.outputColumns sel.schema)) := by
  obtain ⟨indices, hindices, hall⟩ := exists_indices hcolumns
  have hproject : ∀ r ∈ (sel.rows.drop q.offset).take q.limit, ∃ r',
      (do
        let p ← Abort.ofExcept (sel.schema.projectRow r)
        indices.mapM (Abort.item p.row) : Except (Abort MergeError) Row) = .ok r' ∧
      shown sel.schema (q.outputColumns sel.schema) r = some r' := by
    intro r hr
    obtain ⟨s, hs, hfits⟩ := hrows r (List.mem_of_mem_drop (List.mem_of_mem_take hr))
    obtain ⟨p, hp, hcells⟩ := Schema.exists_projectRow hu hs hfits
    have hinside : ∀ i ∈ indices, i < sel.schema.types.length := fun i hi =>
      hu ▸ lt_of_mem_indices hall hi
    refine ⟨_, ?_, shown_eq hu hall hcells⟩
    rw [Schema.projectRow_mapM_item hu hinside, hp]
    rfl
  obtain ⟨rows, hmapM, hshown⟩ := exists_mapM_forall₂ hproject
  refine ⟨⟨q.outputColumns sel.schema, indices.filterMap fun i => sel.schema.types[i]?, rows⟩, ?_,
    rfl, ?_⟩
  · rw [table, if_neg hplace]
    exact bind_eq_ok_iff.mpr ⟨indices, hindices, bind_eq_ok_iff.mpr ⟨rows, hmapM, rfl⟩⟩
  · rw [← List.forall₂_eq_eq_eq, List.forall₂_map_left_iff, List.forall₂_map_right_iff]
    exact hshown.flip.imp fun _ _ => Eq.symm

end Selection

/-! ## Reducers -/

namespace Reducer

variable {r : Reducer} {q : Query} {e : Evaluation} {settings : Settings}

theorem ofQuery_eq_ok (h : ofQuery q e settings = .ok r) :
    r.settings = settings ∧ r.combiner.bound = q.bound ∧ r.combiner.order?.isSome = q.hasOrder ∧
      ∀ o, r.combiner.order? = some o → RowOrder.ofQuery q e settings.nulls = .ok o := by
  unfold ofQuery at h
  split at h
  · rename_i horder
    cases ho : RowOrder.ofQuery q e settings.nulls with
    | error err => rw [ho] at h; cases h
    | ok o =>
      rw [ho] at h
      obtain rfl := Except.ok.inj h
      exact ⟨rfl, rfl, horder.symm, fun o' ho' => by rw [← Option.some.inj ho']⟩
  · rename_i horder
    obtain rfl := Except.ok.inj h
    have horder : q.hasOrder = false := by simpa using horder
    exact ⟨rfl, rfl, horder.symm, fun o ho => by cases ho⟩

theorem run_fst (fold : Run Unit) : (r.run fold).1 =
    match fold.run.run (.start r.meter) with
    | (.ok _, p) => .ok p.selection
    | (.error e, _) => .error e := by
  simp only [run, run_bind]
  rcases fold.run.run (.start r.meter) with ⟨_ | _, p⟩ <;> rfl

/-- Without a deadline a run over blocks that can be merged ends with what the combiner makes of all
their rows. -/
theorem exists_reduce {bs : List (Timed Block)} (hdeadline : r.settings.timeoutMs = none)
    (hm : Mergeable r.combiner (nonempty (bs.map (·.item))))
    (hne : nonempty (bs.map (·.item)) ≠ []) :
    ∃ sel, (r.reduce bs).1 = .ok sel ∧
      Schema.coverAll? ((nonempty (bs.map (·.item))).map (·.schema)) = some sel.schema ∧
      sel.rows = (r.combiner.arrange (bs.flatMap (·.item.output))).take r.combiner.bound := by
  have hstart : (Progress.start r.meter).Collects r.combiner [] := rfl
  obtain ⟨p, hp, hcollects⟩ := hstart.blocks (by simpa using hm)
  rw [List.nil_append] at hcollects
  have hrows : (nonempty (bs.map (·.item))).flatMap (·.output) = bs.flatMap (·.item.output) := by
    rw [flatMap_output_nonempty, List.flatMap_map]
  have hrun : (r.reduce bs).1 = .ok p.stop.selection := by
    simp only [reduce, run, hdeadline, run_bind, hp, Run.finish, run_modify, run_get, run_pure]
  unfold Progress.Collects at hcollects
  cases htarget : p.target with
  | none => exact absurd (by simpa [htarget] using hcollects) hne
  | some t =>
    obtain ⟨-, hcover, hcombined⟩ : _ ≠ [] ∧ _ ∧ _ := by simpa only [htarget] using hcollects
    have hsel : p.stop.selection = ⟨t.schema, t.output, p.merged⟩ := by
      simp [Progress.selection, Progress.stop, htarget]
    refine ⟨_, hsel ▸ hrun, hcover, ?_⟩
    rw [← hrows]
    exact hcombined.output hm.consistent

end Reducer

/-! ## Answers -/

/-- Whether a block is as segments make it for some columns: each column has a type, and each row a
cell for it that is null or of the type. -/
structure MadeFor (names : List String) (b : Block) : Prop where
  names : b.schema.names = names
  aligned : b.schema.Aligned
  fits : ∀ r ∈ b.output, b.schema.Fits r

theorem mergeable_of_madeFor {c : Combiner} {names : List String} {bs : List Block}
    (hmade : ∀ b ∈ bs, MadeFor names b)
    (hcompat : ∀ a ∈ bs, ∀ b ∈ bs, a.schema.isCompatible b.schema)
    (hvalid : ∀ o, c.order? = some o → ∃ b ∈ bs, o.validate b.schema = .ok ())
    (hcons : c.Consistent (bs.flatMap (·.output))) : Mergeable c bs := by
  have hagree : ∀ a ∈ bs, ∀ b ∈ bs, a.schema.Agrees b.schema := fun a ha b hb =>
    Schema.agrees_of_isCompatible ((hmade a ha).names.trans (hmade b hb).names.symm)
      (hmade a ha).aligned (hmade b hb).aligned (hcompat a ha b hb)
  refine ⟨hagree, ?_, hcons⟩
  intro o ho b hb
  obtain ⟨a, ha, hvalid⟩ := hvalid o ho
  exact RowOrder.validate_of_agrees (hagree a ha b hb) hvalid

/-- A query without a deadline is answered by the window of all rows, which are stably sorted if the
query has an order and else as they came, in the query's output columns and cast to the cover of
the schemas. Empty blocks do not count. (The last assumption says that the rows up to the end of
the window can be counted, as they always can in memory.) -/
theorem exists_table_reduce (q : Query) (physical : List String) (settings : Settings) (r : Reducer)
    (bs : List (Timed Block))
    (hcolumns : (Evaluation.ofQuery q physical).columnNames ≠ ["*"])
    (hr : Reducer.ofQuery q (Evaluation.ofQuery q physical) settings = .ok r)
    (hdeadline : settings.timeoutMs = none)
    (hne : nonempty (bs.map (·.item)) ≠ [])
    (hmade : ∀ b ∈ nonempty (bs.map (·.item)),
      MadeFor (Evaluation.ofQuery q physical).columnNames b)
    (hcompat : ∀ a ∈ nonempty (bs.map (·.item)), ∀ b ∈ nonempty (bs.map (·.item)),
      a.schema.isCompatible b.schema)
    (horder : ∀ o, r.combiner.order? = some o →
      (∃ b ∈ nonempty (bs.map (·.item)), o.validate b.schema = .ok ()) ∧
        TotalPreorderOn o.compare (· ∈ bs.flatMap (·.item.output)))
    (hcount : min (q.offset + q.limit) (bs.flatMap (·.item.output)).length ≤ Query.greatestCount) :
    (r.combiner.order?.isSome = q.hasOrder ∧ ∀ o, r.combiner.order? = some o →
        RowOrder.ofQuery q (Evaluation.ofQuery q physical) settings.nulls = .ok o) ∧
      ∃ sel t, (r.reduce bs).1 = .ok sel ∧
        Schema.coverAll? ((nonempty (bs.map (·.item))).map (·.schema)) = some sel.schema ∧
        sel.table q = .ok t ∧ t.columns = q.outputColumns sel.schema ∧
        t.rows.map some =
          (((r.combiner.arrange (bs.flatMap (·.item.output))).drop q.offset).take q.limit).map
            (Selection.shown sel.schema t.columns) := by
  obtain ⟨rfl, hbound, hsome, horderOf⟩ := Reducer.ofQuery_eq_ok hr
  have hall : (nonempty (bs.map (·.item))).flatMap (·.output) = bs.flatMap (·.item.output) := by
    rw [flatMap_output_nonempty, List.flatMap_map]
  have hm : Mergeable r.combiner (nonempty (bs.map (·.item))) :=
    mergeable_of_madeFor hmade hcompat (fun o ho => (horder o ho).1)
      fun o ho => hall ▸ (horder o ho).2
  obtain ⟨sel, hreduce, hcover, hrows⟩ := Reducer.exists_reduce hdeadline hm hne
  obtain ⟨u, hu, hwiden⟩ := hm.exists_cover hne
  obtain rfl : sel.schema = u := Option.some.inj (hcover.symm.trans hu)
  obtain ⟨b, hb⟩ := List.exists_mem_of_ne_nil _ hne
  have hnames : sel.schema.names = (Evaluation.ofQuery q physical).columnNames :=
    (hwiden b hb).1.names.trans (hmade b hb).names
  have haligned : sel.schema.Aligned := by
    have hlen := (hwiden b hb).1.types.length_eq
    rw [Schema.Aligned, hlen, (hwiden b hb).1.names]
    exact (hmade b hb).aligned
  have hplace : ¬ sel.schema.isPlaceholder := by
    rw [Schema.isPlaceholder, hnames]
    simpa [Schema.placeholderName] using hcolumns
  have hfits : ∀ row ∈ sel.rows, ∃ s : Schema, s.WidensTo sel.schema ∧ s.Fits row := by
    intro row hrow
    rw [hrows] at hrow
    have hmem := (r.combiner.arrange_perm _).mem_iff.mp (List.mem_of_mem_take hrow)
    obtain ⟨a, ha, hrow⟩ := List.mem_flatMap.mp (hall ▸ hmem)
    exact ⟨a.schema, (hwiden a ha).2, (hmade a ha).fits row hrow⟩
  obtain ⟨t, htable, htcolumns, htrows⟩ := Selection.exists_table hplace
    (fun name hname => Query.mem_names_of_mem_outputColumns hplace hnames hname) haligned hfits
  refine ⟨⟨hsome, horderOf⟩, sel, t, hreduce, hcover, htable, htcolumns, ?_⟩
  -- the rows that merges let go of lie behind the window
  rw [htrows, htcolumns, hrows, hbound, Query.window_take]
  rwa [(r.combiner.arrange_perm _).length_eq]

/-! ### A ranking -/

/-- The second and the third best player, with their scores. -/
def runnersUp : Query :=
  ⟨[.identifier "player", .identifier "score"], [⟨.identifier "score", false⟩], 2, 1⟩

def scoreReducer : Reducer := .ofCombiner (.bestRows ⟨[⟨0, false⟩], .last⟩ 3) .sequential

def playerRow (p : Cell × String) : Row := [p.1, .string p.2]

/-- A block of players with their scores. -/
def players (t : ColumnType) (ps : List (Cell × String)) : Block :=
  .ofRows (.ofColumns [("score", t), ("player", .one .string)]) (ps.map playerRow)

theorem madeFor_players {t : ColumnType} {ps : List (Cell × String)}
    (h : ∀ p ∈ ps, p.1.fits t) : MadeFor ["score", "player"] (players t ps) where
  names := rfl
  aligned := rfl
  fits r hr := by
    obtain ⟨p, hp, rfl⟩ := List.mem_map.mp hr
    exact .cons (h p hp) (.cons rfl .nil)

theorem totalPreorderOn_players (ps : List (Cell × String))
    (h : ∀ p ∈ ps, ∀ x, p.1.quantity? ≠ some (.real x)) :
    TotalPreorderOn scoreOrder.compare (· ∈ ps.map playerRow) := by
  apply RowOrder.totalPreorderOn_of_not_real
  intro row hrow key hkey x
  obtain rfl := List.mem_singleton.mp hkey
  obtain ⟨p, hp, rfl⟩ := List.mem_map.mp hrow
  exact h p hp x

def juniors : Block := players (.one .int) [(.int 4, "ann"), (.null, "bob"), (.int 7, "cid")]

def seniors : Block :=
  players (.one .long) [(.long 4, "dot"), (.long 9, "eve"), (.long 7, "flo")]

/-- The blocks of three segments, the first of them without rows. -/
def playerBlocks : List (Timed Block) :=
  [⟨0, .ofRows .placeholder []⟩, ⟨1, juniors⟩, ⟨2, seniors⟩]

theorem mem_nonempty_playerBlocks {b : Block} :
    b ∈ nonempty (playerBlocks.map (·.item)) ↔ b = juniors ∨ b = seniors := by
  rw [show nonempty (playerBlocks.map (·.item)) = [juniors, seniors] from rfl]
  simp

/-- Of two players with the same score the one of the earlier block comes first, and both scores
are cast to the type that covers them. -/
theorem exists_table_reduce_players : ∃ sel t, (scoreReducer.reduce playerBlocks).1 = .ok sel ∧
    sel.table runnersUp = .ok t ∧ t.columns = ["player", "score"] ∧
    t.rows = [[.string "cid", .long 7], [.string "flo", .long 7]] := by
  have hnames : (Evaluation.ofQuery runnersUp ["player", "score"]).columnNames =
      ["score", "player"] := by decide +kernel
  have hmade : ∀ b ∈ nonempty (playerBlocks.map (·.item)),
      MadeFor (Evaluation.ofQuery runnersUp ["player", "score"]).columnNames b := by
    intro b hb
    rw [hnames]
    rcases mem_nonempty_playerBlocks.mp hb with rfl | rfl <;> exact madeFor_players (by decide)
  have hcompat : ∀ a ∈ nonempty (playerBlocks.map (·.item)),
      ∀ b ∈ nonempty (playerBlocks.map (·.item)), a.schema.isCompatible b.schema := by
    intro a ha b hb
    rcases mem_nonempty_playerBlocks.mp ha with rfl | rfl <;>
      rcases mem_nonempty_playerBlocks.mp hb with rfl | rfl <;> rfl
  have horder : ∀ o, scoreReducer.combiner.order? = some o →
      (∃ b ∈ nonempty (playerBlocks.map (·.item)), o.validate b.schema = .ok ()) ∧
        TotalPreorderOn o.compare (· ∈ playerBlocks.flatMap (·.item.output)) := by
    intro o ho
    obtain rfl : ⟨[⟨0, false⟩], .last⟩ = o := Option.some.inj ho
    refine ⟨⟨juniors, mem_nonempty_playerBlocks.mpr (.inl rfl), rfl⟩, ?_⟩
    apply RowOrder.totalPreorderOn_of_not_real
    intro r hr key hkey x hx
    obtain rfl : key = ⟨0, false⟩ := List.mem_singleton.mp hkey
    have hr' : r ∈ juniors.output ++ seniors.output := hr
    simp only [juniors, seniors, players, Block.ofRows, Block.output, List.map_cons, List.map_nil,
      List.cons_append, List.nil_append, List.mem_cons, List.not_mem_nil, or_false] at hr'
    rcases hr' with rfl | rfl | rfl | rfl | rfl | rfl <;> cases hx
  obtain ⟨-, sel, t, hreduce, hcover, htable, hcolumns, hrows⟩ :=
    exists_table_reduce runnersUp ["player", "score"] .sequential scoreReducer playerBlocks
      (by rw [hnames]; decide) rfl rfl
      (List.ne_nil_of_mem (mem_nonempty_playerBlocks.mpr (.inl rfl))) hmade hcompat horder
      (by decide +kernel)
  have hschema : sel.schema = seniors.schema := Option.some.inj (hcover.symm.trans rfl)
  have hcolumns : t.columns = ["player", "score"] := by rw [hcolumns, hschema]; rfl
  refine ⟨sel, t, hreduce, htable, hcolumns, ?_⟩
  apply List.map_injective_iff.mpr (Option.some_injective Row)
  rw [hrows, hschema, hcolumns]
  rfl

end SelectMerge

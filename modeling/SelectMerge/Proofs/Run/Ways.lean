import SelectMerge.Proofs.Block.Folding
import SelectMerge.Proofs.Run.Turns
import SelectMerge.Proofs.Wire.RoundTrip

/-!
# Three ways in

Blocks are reduced as they are, as what producers return one after another, or as tables that were
encoded and decoded again. A run looks at no more of a block than its schema, its rows in output
order and whether it has any (`Block.Matches`), and all of these survive the wire
(`Sendable.toBlock_eq`). So the three ways end alike, up to the times that a meter takes
(`ways_agree`).

`Level` relates runs that are in one state but for these times, and turns that bring blocks which
match keep it (`Level.turns`).
-/

namespace SelectMerge

/-! ## Blocks that runs cannot tell apart -/

/-- Whether two blocks have one schema and list the same rows. -/
structure Block.Matches (b b' : Block) : Prop where
  schema : b.schema = b'.schema
  output : b.output = b'.output
  isEmpty : b.isEmpty = b'.isEmpty

theorem Block.Matches.refl (b : Block) : b.Matches b := ⟨rfl, rfl, rfl⟩

theorem Block.Obtained.matches_ofRows {b : Block} (h : b.Obtained) :
    b.Matches (.ofRows b.schema b.output) := by
  obtain ⟨l, hl⟩ := h.exists_stores
  refine ⟨rfl, rfl, ?_⟩
  rw [isEmpty, ← hl.length_output]
  rfl

theorem Combiner.merge_eq_of_matches (c : Combiner) {b b' : Block} (h : b.Matches b') :
    c.merge b = c.merge b' := by
  cases c with
  | firstRows k => simp only [merge, Merging.append, h.schema, h.output]
  | bestRows o k => simp only [merge, Merging.select, Merging.offerRows, h.schema, h.output]

theorem Run.offer_eq_of_matches (c : Combiner) {b b' : Block} (h : b.Matches b') :
    offer c b = offer c b' := by
  simp only [offer, h.schema, h.isEmpty, c.merge_eq_of_matches h]

/-! ## Runs that differ in their times -/

namespace Progress

variable {c : Combiner} {p q : Progress}

/-- Whether two runs are in the same state but for the times in it. -/
structure Level (p q : Progress) : Prop extends p.Alike q where
  counters : p.meter.map (·.counters) = q.meter.map (·.counters)

theorem counters_record (p q : Progress) (tally : MergeTally)
    (h : p.meter.map (·.counters) = q.meter.map (·.counters)) :
    (record tally p).meter.map (·.counters) = (record tally q).meter.map (·.counters) := by
  simp only [record, Option.map_map]
  cases hp : p.meter with
  | none =>
    rw [hp, Option.map_none, eq_comm, Option.map_eq_none_iff] at h
    rw [h]
  | some m =>
    rw [hp, Option.map_some, eq_comm, Option.map_eq_some_iff] at h
    obtain ⟨m', hq, hm⟩ := h
    simp only [hq, Option.map_some, Function.comp, Meter.increment, hm]

theorem Level.offer (h : p.Level q) {b b' : Block} (hb : b.Matches b') :
    ((Run.offer c b).run.run p).1 = ((Run.offer c b').run.run q).1 ∧
      ((Run.offer c b).run.run p).2.Level ((Run.offer c b').run.run q).2 := by
  rw [← Run.offer_eq_of_matches c hb]
  obtain ⟨hresult, halike, hcounters⟩ := h.toAlike.offer_with (c := c)
    (R := fun m m' => m.map (·.counters) = m'.map (·.counters)) h.counters counters_record b
  exact ⟨hresult, halike, hcounters⟩

/-- Turns that bring blocks which match are passed alike. -/
theorem Level.turns {ts us : List Turn} {bs bs' : List Block} (h : p.Level q)
    (hts : ts.map Turn.block? = bs.map some) (hus : us.map Turn.block? = bs'.map some)
    (hbs : List.Forall₂ Block.Matches bs bs') :
    ((Run.turns c none ts).run.run p).1 = ((Run.turns c none us).run.run q).1 ∧
      ((Run.turns c none ts).run.run p).2.Level ((Run.turns c none us).run.run q).2 := by
  obtain ⟨hall, rfl⟩ := Turn.all_folds_of_map_block? hts
  obtain ⟨hall', rfl⟩ := Turn.all_folds_of_map_block? hus
  exact Run.turns_relate (fun _ _ now now' h => ⟨h.toAlike.at now now', h.counters⟩)
    (fun _ _ _ _ h hb => h.offer hb) hall hall' hbs h

end Progress

/-! ## Blocks over the wire -/

namespace Block

/-- Whether the rows of a block have one cell a column, null or of the column's type, their
documents read as they are written, and lengths on the wire can tell their numbers and sizes. -/
structure Sendable (b : Block) : Prop extends b.Typed where
  obtained : b.Obtained
  documents : ∀ r ∈ b.output, ∀ c ∈ r, c.Survives
  size : Payload.FitsWire b.schema b.output

theorem Typed.sendable {b : Block} (h : b.Typed) (hobtained : b.Obtained)
    (hwords : ∀ t ∈ b.schema.types, t ≠ .one .object ∧ t ≠ .many .object)
    (hsize : Payload.FitsWire b.schema b.output) : b.Sendable :=
  ⟨h, hobtained, fun r hr => Cell.survives_of_fits (h.fits r hr) hwords, hsize⟩

/-- Whether a table is what the schema and the rows of a block are encoded as, once its bytes are
decoded again. -/
def Arrives (b : Block) (t : Payload) : Prop :=
  ∃ p, Payload.ofRows b.schema b.output = .ok p ∧ Payload.ofBytes p.bytes = .ok t

variable {b : Block} {t : Payload}

theorem Sendable.exists_arrives (hb : b.Sendable) :
    ∃ t, b.Arrives t ∧ t.toBlock = .ok (.ofRows b.schema b.output) := by
  have hproject := Schema.project_of_fits hb.aligned hb.fits
  obtain ⟨p, hp, hschema, hstores, hback⟩ :=
    Payload.exists_ofRows hb.aligned hproject hb.documents hb.size
  refine ⟨p, ⟨p, hp, hback⟩, ?_⟩
  rw [Payload.toBlock, hstores.rows_eq_ok (hschema ▸ hb.aligned) (hschema ▸ hb.fits), hschema]
  rfl

theorem exists_forall₂_arrives {bs : List Block} (h : ∀ b ∈ bs, b.Sendable) :
    ∃ ts, List.Forall₂ Arrives bs ts := by
  induction bs with
  | nil => exact ⟨[], .nil⟩
  | cons b bs ih =>
    obtain ⟨hb, hbs⟩ := List.forall_mem_cons.mp h
    obtain ⟨t, ht, -⟩ := hb.exists_arrives
    obtain ⟨ts, hts⟩ := ih hbs
    exact ⟨t :: ts, .cons ht hts⟩

theorem Sendable.toBlock_eq (hb : b.Sendable) (h : b.Arrives t) :
    t.toBlock = .ok (.ofRows b.schema b.output) := by
  obtain ⟨t', ⟨p', hp', ht'⟩, hblock⟩ := hb.exists_arrives
  obtain ⟨p, hp, ht⟩ := h
  obtain rfl := Except.ok.inj (hp.symm.trans hp')
  obtain rfl := Except.ok.inj (ht.symm.trans ht')
  exact hblock

end Block

/-! ## Reducers -/

namespace Reducer

/-- Whether two runs end alike: with one outcome and the same counts. -/
structure Agree (x y : Outcome × Reducer) : Prop where
  outcome : x.1 = y.1
  counters : x.2.meter.map (·.counters) = y.2.meter.map (·.counters)

variable {r : Reducer}

theorem agree_run_turns {ts us : List Turn} {bs bs' : List Block}
    (hts : ts.map Turn.block? = bs.map some) (hus : us.map Turn.block? = bs'.map some)
    (hbs : List.Forall₂ Block.Matches bs bs') :
    Agree (r.run (Run.turns r.combiner none ts)) (r.run (Run.turns r.combiner none us)) := by
  have hstart : (Progress.start r.meter).Level (Progress.start r.meter) := ⟨⟨rfl, rfl, rfl⟩, rfl⟩
  obtain ⟨hresult, hlevel⟩ := hstart.turns (c := r.combiner) hts hus hbs
  rw [run_eq, run_eq]
  rcases hp : (Run.turns r.combiner none ts).run.run (.start r.meter) with ⟨result, p⟩
  rcases hq : (Run.turns r.combiner none us).run.run (.start r.meter) with ⟨result', q⟩
  rw [hp, hq] at hresult hlevel
  obtain rfl : result = result' := hresult
  cases result with
  | error e => exact ⟨rfl, hlevel.counters⟩
  | ok u =>
    -- the clock that ends a run goes into the times of the meter, not into its counters
    refine ⟨congrArg Except.ok hlevel.selection_eq, ?_⟩
    simp only [Progress.stop, Option.map_map]
    exact hlevel.counters

theorem agree_reduceTables (hdeadline : r.settings.timeoutMs = none) {blocks : List (Timed Block)}
    {tables : List (Timed Payload)} (hbs : ∀ b ∈ blocks.map (·.item), b.Sendable)
    (htables : List.Forall₂ Block.Arrives (blocks.map (·.item)) (tables.map (·.item))) :
    Agree (r.reduce blocks) (r.reduceTables tables) := by
  rw [reduce, reduceTables, hdeadline, Run.blocks_eq_turns, Run.tables_eq_turns]
  generalize hitems : blocks.map (·.item) = bs at hbs htables
  have hsent : (Feed.tables tables).turns.map Turn.block? =
      (bs.map fun b => Block.ofRows b.schema b.output).map some := by
    have hall := (List.forall₂_and_left _ _).mpr ⟨hbs, htables⟩
    rw [List.forall₂_map_right_iff] at hall
    rw [Feed.turns, List.map_map, List.map_map, ← List.forall₂_eq_eq_eq,
      List.forall₂_map_left_iff, List.forall₂_map_right_iff]
    refine hall.flip.imp ?_
    rintro t b ⟨hb, ht⟩
    simp [Turn.block?, Payload.met, hb.toBlock_eq ht]
  refine agree_run_turns (Turn.map_block?_blocks blocks) hsent ?_
  rw [hitems, List.forall₂_map_right_iff, List.forall₂_same]
  exact fun b hb => (hbs b hb).obtained.matches_ofRows

theorem items_clocked (deadline : Nat) (late : Bool) (tasks : List SegmentTask) :
    (clocked deadline late tasks).map (·.item) = tasks.map (·.producer) := by
  induction tasks generalizing late with
  | nil => rfl
  | cons t tasks ih => rw [clocked, List.map_cons, ih, List.map_cons]

theorem agree_reduceSegments (hdeadline : r.settings.timeoutMs = none)
    (hmode : r.settings.mode = .sequential) (processors : Nat) {blocks : List (Timed Block)}
    {tasks : List SegmentTask}
    (htasks : tasks.map (·.producer) = (blocks.map (·.item)).map .returns) :
    Agree (r.reduce blocks) (r.reduceSegments processors tasks) := by
  rw [reduceSegments, hmode]
  dsimp only
  rw [reduce, reduceProducers, hdeadline, Run.blocks_eq_turns, Run.producers_eq_turns]
  rw [← items_clocked (Option.getD none 0) false] at htasks
  have hreturned : (Feed.producers (clocked (Option.getD none 0) false tasks)).turns.map
      Turn.block? = (blocks.map (·.item)).map some := by
    have hmet : ∀ ps : List (Timed Producer), (Feed.producers ps).turns.map Turn.block? =
        (ps.map (·.item)).map fun p => Turn.block? ⟨none, p.met⟩ := by
      simp [Feed.turns, Turn.block?]
    rw [hmet, htasks, List.map_map]
    rfl
  exact agree_run_turns (Turn.map_block?_blocks blocks) hreturned
    (List.forall₂_same.mpr fun b _ => .refl b)

/-- Without a deadline it makes no difference how blocks come: as they are, from producers one after
another, or as tables that were encoded and decoded again, which all of them can be. -/
theorem ways_agree (r : Reducer) (hdeadline : r.settings.timeoutMs = none) (bs : List Block)
    (hbs : ∀ b ∈ bs, b.Sendable) :
    (∃ ts, List.Forall₂ Block.Arrives bs ts) ∧
      ∀ blocks : List (Timed Block), blocks.map (·.item) = bs →
        (∀ tables : List (Timed Payload),
          List.Forall₂ Block.Arrives bs (tables.map (·.item)) →
            Agree (r.reduce blocks) (r.reduceTables tables)) ∧
        (r.settings.mode = .sequential → ∀ processors (tasks : List SegmentTask),
          tasks.map (·.producer) = bs.map .returns →
            Agree (r.reduce blocks) (r.reduceSegments processors tasks)) := by
  refine ⟨Block.exists_forall₂_arrives hbs, ?_⟩
  rintro blocks rfl
  exact ⟨fun tables => agree_reduceTables hdeadline hbs,
    fun hmode processors tasks => agree_reduceSegments hdeadline hmode processors⟩

/-! ### Scores from three segments -/

/-- A settled block, one without rows, and one whose scores are long. -/
def scoreBlocks : List Block :=
  [settledScores, .ofRows .placeholder [],
    .ofRows (.ofColumns [("score", .one .long), ("tag", .one .int)]) [[.long 3, .int 7]]]

theorem sendable_scoreBlocks : ∀ b ∈ scoreBlocks, b.Sendable := by
  intro b hb
  simp only [scoreBlocks, List.mem_cons, List.not_mem_nil, or_false] at hb
  rcases hb with rfl | rfl | rfl
  · have hfits : ∀ r ∈ settledScores.output, settledScores.schema.Fits r := by
      intro r hr
      have hr : r ∈ [scoreRow 4 1, scoreRow 4 3, scoreRow 2 2] := hr
      simp only [List.mem_cons, List.not_mem_nil, or_false] at hr
      rcases hr with rfl | rfl | rfl <;> exact .cons rfl (.cons rfl .nil)
    have hobtained : settledScores.Obtained :=
      (Block.Obtained.orderedOfRows scoreSchema oldScores scoreOrder 3).perform .settle
    exact Block.Typed.sendable ⟨rfl, hfits⟩ hobtained (by decide)
      ⟨by decide, by decide +kernel, by decide +kernel, by decide +kernel⟩
  · exact Block.Typed.sendable ⟨rfl, by simp [Block.ofRows, Block.output]⟩ (.ofRows _ _) (by decide)
      ⟨by decide, by decide +kernel, by decide, by decide +kernel⟩
  · have hfits : (Schema.ofColumns [("score", .one .long), ("tag", .one .int)]).Fits
        [.long 3, .int 7] := .cons rfl (.cons rfl .nil)
    exact Block.Typed.sendable ⟨rfl, by simpa [Block.ofRows, Block.output] using hfits⟩
      (.ofRows _ _) (by decide) ⟨by decide, by decide +kernel, by decide, by decide +kernel⟩

theorem ways_agree_scoreBlocks : ∃ tables sel,
    List.Forall₂ Block.Arrives scoreBlocks tables ∧
      Agree (scoreReducer.reduce (scoreBlocks.map (Timed.mk 0)))
        (scoreReducer.reduceTables (tables.map (Timed.mk 4))) ∧
      Agree (scoreReducer.reduce (scoreBlocks.map (Timed.mk 0)))
        (scoreReducer.reduceSegments 2 (scoreBlocks.map fun b => ⟨.returns b, true⟩)) ∧
      (scoreReducer.reduce (scoreBlocks.map (Timed.mk 0))).1 = .ok sel ∧ sel.merged = 2 ∧
      sel.rows = [[.int 4, .int 1], [.int 4, .int 3], [.long 3, .int 7]] := by
  obtain ⟨⟨tables, htables⟩, hagree⟩ := ways_agree scoreReducer rfl scoreBlocks sendable_scoreBlocks
  obtain ⟨hreduceTables, hsegments⟩ := hagree (scoreBlocks.map (Timed.mk 0)) rfl
  refine ⟨tables, _, htables, hreduceTables _ ?_, hsegments rfl 2 _ rfl, rfl, rfl, rfl⟩
  have hitem : (fun t : Timed Payload => t.item) ∘ Timed.mk 4 = id := rfl
  rwa [List.map_map, hitem, List.map_id]

end Reducer

end SelectMerge

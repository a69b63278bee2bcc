import SelectMerge.Proofs.Block.Accounting
import SelectMerge.Proofs.Run.Arrival
import SelectMerge.Proofs.Run.Delivery
import SelectMerge.Proofs.Run.Meter
import SelectMerge.Proofs.Run.Turns

/-!
# What runs count

A meter is reset when a run begins, and every merge adds to it what its tally says. So after a run
that completes, or that its deadline stops, the counters tell of this run alone: what was merged,
and how many of the rows are no longer held (`accounts_for_rows`).

The invariant along a run is `Counts`: its target keeps rows of the blocks merged so far, and the
meter shows their number, that of their rows, that of the rows no longer held, and how often their
cover has changed (`Schema.changes`). Folding a block keeps it (`Counts.offer`), so the turns that a
run passes do (`counts_turns`), and a job that ends or stops at its deadline leaves a meter that
accounts for what it merged (`Meter.Accounts`, `counts_perform`). Executions of pools are jobs over
what their coordinator receives (`Pool.Tracks.perform_ends`).
-/

namespace SelectMerge

/-! ## Changes of the common schema -/

/-- How often the cover of some schemas changes as one after another joins. -/
def Schema.changes (l : List Schema) : Nat :=
  (List.range (l.length - 1)).countP fun i =>
    coverAll? (l.take (i + 1)) ≠ coverAll? (l.take (i + 2))

theorem Schema.changes_le_length (l : List Schema) : changes l ≤ l.length :=
  List.countP_le_length.trans (by simp)

theorem Schema.changes_concat {l : List Schema} (hne : l ≠ []) (s : Schema) :
    changes (l ++ [s]) = changes l + if coverAll? l = coverAll? (l ++ [s]) then 0 else 1 := by
  obtain ⟨n, hn⟩ : ∃ n, l.length = n + 1 :=
    Nat.exists_eq_succ_of_ne_zero (mt List.length_eq_zero_iff.mp hne)
  have hlast : (l ++ [s]).take (n + 1) = l ∧ (l ++ [s]).take (n + 2) = l ++ [s] := by
    constructor
    · rw [← hn, List.take_left]
    · rw [List.take_of_length_le (by simp [hn])]
  rw [changes, List.length_append, List.length_singleton, hn, Nat.add_sub_cancel,
    List.range_succ, List.countP_append, List.countP_singleton, hlast.1, hlast.2, changes, hn,
    Nat.add_sub_cancel]
  congr 1
  · refine List.countP_congr fun i hi => ?_
    have hi : i < n := List.mem_range.mp hi
    rw [List.take_append_of_le_length (by omega), List.take_append_of_le_length (by omega)]
  · by_cases heq : coverAll? l = coverAll? (l ++ [s]) <;> simp [heq]

/-! ## Merges -/

namespace Combiner

variable {c : Combiner} {t t' source : Block} {l : List Row} {tally : MergeTally}

theorem merge_accounts (h : t.Stores l) (hmerge : (c.merge source).run.run t = (.ok tally, t')) :
    tally.Accounts source t t' ∧ t.schema.cover? source.schema = some t'.schema ∧
      ∃ l', t'.Stores l' := by
  cases c with
  | firstRows k =>
    obtain ⟨hcov, hstores⟩ := h.mergeUnordered hmerge
    exact ⟨h.accounts_mergeUnordered hmerge, hcov, _, hstores⟩
  | bestRows o k =>
    obtain ⟨hcov, l', hstores, -, -⟩ := h.mergeOrdered hmerge
    exact ⟨h.accounts_mergeOrdered hmerge, hcov, l', hstores⟩

end Combiner

/-! ## Runs -/

/-- The number of rows in some blocks together. -/
def rowCount : List Block → Nat
  | [] => 0
  | b :: bs => b.length + rowCount bs

theorem rowCount_concat (bs : List Block) (b : Block) :
    rowCount (bs ++ [b]) = rowCount bs + b.length := by
  induction bs with
  | nil => exact Nat.add_comm _ _
  | cons b' bs ih => rw [List.cons_append, rowCount, rowCount, ih, Nat.add_assoc]

namespace Progress

/-- The number of rows that a run holds. -/
def held (p : Progress) : Nat := (p.target.map Block.length).getD 0

/-- Whether a run has merged some blocks, all with rows, and counted what it did. -/
structure Counts (bs : List Block) (p : Progress) : Prop where
  merged : p.merged = bs.length
  target : match p.target with
    | none => bs = []
    | some t => bs ≠ [] ∧ Schema.coverAll? (bs.map (·.schema)) = some t.schema ∧ ∃ l, t.Stores l
  held : p.held ≤ rowCount bs
  meter : ∀ m, p.meter = some m → m.Shows bs.length (rowCount bs) (rowCount bs - p.held)
    (Schema.changes (bs.map (·.schema)))

variable {c : Combiner} {bs : List Block} {p p' : Progress} {b t : Block}

theorem counts_start (meter : Option Meter) : (start meter).Counts [] := by
  refine ⟨rfl, rfl, Nat.le_refl _, fun m hm => ?_⟩
  obtain ⟨m', -, rfl⟩ := Option.map_eq_some_iff.mp hm
  exact Meter.shows_start m' 0

theorem Counts.base_eq (h : p.Counts bs) (hbase : p.base c b.schema = .ok t) :
    t.length = p.held ∧ (∃ l, t.Stores l) ∧
      (bs = [] ∧ t.schema = b.schema ∨
        bs ≠ [] ∧ Schema.coverAll? (bs.map (·.schema)) = some t.schema) := by
  have htarget := h.target
  cases ht : p.target with
  | some t' =>
    rw [base_of_some ht] at hbase
    obtain rfl := Except.ok.inj hbase
    rw [ht] at htarget
    obtain ⟨hne, hcover, hstores⟩ := htarget
    exact ⟨by simp [Progress.held, ht], hstores, .inr ⟨hne, hcover⟩⟩
  | none =>
    rw [base_of_none ht] at hbase
    rw [ht] at htarget
    obtain ⟨⟨-, l, hstores, hlength⟩, hschema⟩ := Combiner.holds_create hbase
    refine ⟨?_, ⟨l, hstores⟩, .inl ⟨htarget, hschema⟩⟩
    rw [hstores.length_eq, hlength, Progress.held, ht]
    exact Nat.min_zero _

theorem changes_merge {tally : MergeTally} {t' : Block}
    (hschema : bs = [] ∧ t.schema = b.schema ∨
      bs ≠ [] ∧ Schema.coverAll? (bs.map (·.schema)) = some t.schema)
    (hcov : t.schema.cover? b.schema = some t'.schema) (haccounts : tally.Accounts b t t') :
    Schema.coverAll? ((bs ++ [b]).map (·.schema)) = some t'.schema ∧
      Schema.changes ((bs ++ [b]).map (·.schema)) =
        Schema.changes (bs.map (·.schema)) + tally.schemaUpgraded.toNat := by
  rw [haccounts.toNat_schemaUpgraded, List.map_append, List.map_singleton]
  rcases hschema with ⟨rfl, hschema⟩ | ⟨hne, hcover⟩
  · rw [hschema, Schema.cover?_self] at hcov
    rw [hschema, Option.some.inj hcov, if_pos rfl]
    exact ⟨rfl, rfl⟩
  · have hcover' : Schema.coverAll? (bs.map (·.schema) ++ [b.schema]) = some t'.schema := by
      rw [Schema.coverAll?_concat (by simpa using hne), hcover]
      exact hcov
    refine ⟨hcover', ?_⟩
    rw [Schema.changes_concat (by simpa using hne), hcover, hcover']
    simp only [Option.some.injEq]

theorem Counts.offer (h : p.Counts bs) (hobtained : b.Obtained) (hb : b.isEmpty = false)
    (hoffer : (Run.offer c b).run.run p = (.ok (), p')) : p'.Counts (bs ++ [b]) := by
  obtain ⟨t, tally, t', hbase, hmerge, rfl⟩ := Run.offer_eq_ok hb hoffer
  obtain ⟨hlength, ⟨l, hstores⟩, hschema⟩ := h.base_eq hbase
  obtain ⟨haccounts, hcov, hstores'⟩ := Combiner.merge_accounts hstores hmerge
  obtain ⟨lb, hlb⟩ := hobtained.exists_stores
  have hin : tally.rowsIn = b.length := haccounts.rowsIn.trans hlb.length_output
  have hrows : rowCount (bs ++ [b]) = rowCount bs + tally.rowsIn := by rw [rowCount_concat, hin]
  have hbalance := haccounts.balance
  have hheld := h.held
  obtain ⟨hcover, hchanges⟩ := changes_merge hschema hcov haccounts
  refine ⟨?_, ⟨by simp, hcover, hstores'⟩, ?_, ?_⟩
  · rw [List.length_append, ← h.merged]
    rfl
  · show t'.length ≤ _
    omega
  · intro m' hm'
    obtain ⟨m, hm, rfl⟩ := Option.map_eq_some_iff.mp hm'
    have hdiscarded : rowCount (bs ++ [b]) - t'.length =
        rowCount bs - p.held + tally.rowsDiscarded := by omega
    have hshows := (h.meter m hm).record tally
    rw [← hrows, ← hdiscarded, ← hchanges] at hshows
    rw [List.length_append, List.length_singleton]
    exact hshows

theorem Counts.held_eq (h : p.Counts bs) : p.held = p.target.elim 0 (·.output.length) := by
  have htarget := h.target
  rw [Progress.held]
  cases ht : p.target with
  | none => rfl
  | some t =>
    rw [ht] at htarget
    obtain ⟨-, -, l, hl⟩ := htarget
    exact hl.length_output.symm

theorem Counts.at (h : p.Counts bs) (now : Nat) : ({ p with now } : Progress).Counts bs :=
  ⟨h.merged, h.target, h.held, h.meter⟩

theorem Counts.stop (h : p.Counts bs) : p.stop.Counts bs := by
  refine ⟨h.merged, h.target, h.held, fun m' hm' => ?_⟩
  obtain ⟨m, hm, rfl⟩ := Option.map_eq_some_iff.mp hm'
  have hshows := h.meter m hm
  exact ⟨hshows.sorted, hshows.blocksMerged, hshows.rowsMerged, hshows.rowsDiscarded,
    hshows.schemaUpgrades⟩

/-- A run has merged the blocks with rows of the turns that it passed. -/
theorem counts_turns {deadline : Option Nat} {ts : List Turn} {meter : Option Meter}
    (hobtained : ∀ b ∈ ts.filterMap Turn.block?, b.Obtained)
    (hrun : (Run.turns c deadline ts).run.run (.start meter) = (.ok (), p)) :
    p.Counts (nonempty (ts.filterMap Turn.block?)) ∧ ts.all (Turn.folds deadline) := by
  refine ⟨Run.turns_induction (P := fun seen p => p.Counts (nonempty seen)) hrun
    (counts_start meter) (fun bs q now hq => hq.at now) ?_, Run.all_folds_of_turns hrun⟩
  intro bs b q q' hq hb hoffer
  cases hempty : b.isEmpty with
  | true =>
    rw [Run.offer_of_isEmpty hempty] at hoffer
    cases hoffer
    rw [nonempty_concat_of_isEmpty hempty]
    exact ⟨hq.merged, hq.target, hq.held, hq.meter⟩
  | false =>
    rw [nonempty_concat hempty]
    exact hq.offer (hobtained b hb) hempty hoffer

end Progress

/-! ## Accounts of a run -/

/-- Whether the counters of a meter account for a run that merged some blocks and holds `held`
rows. -/
structure Meter.Accounts (m : Meter) (bs : List Block) (held : Nat) : Prop where
  blocksMerged : m.counter blocksMerged = bs.length
  rowsMerged : m.counter rowsMerged = rowCount bs
  rowsHeld : m.counter Meter.rowsMerged = held + m.counter Meter.rowsDiscarded
  schemaUpgrades : m.counter Meter.schemaUpgrades = Schema.changes (bs.map (·.schema))

namespace Progress

variable {bs : List Block} {p : Progress} {m : Meter}

theorem length_le_rowCount (hempty : ∀ b ∈ bs, b.isEmpty = false) : bs.length ≤ rowCount bs := by
  induction bs with
  | nil => exact Nat.le_refl 0
  | cons b bs ih =>
    obtain ⟨hb, hbs⟩ := List.forall_mem_cons.mp hempty
    have hpos : b.length ≠ 0 := by simpa [Block.isEmpty] using hb
    have hrest := ih hbs
    rw [rowCount, List.length_cons]
    omega

theorem Counts.accounts (h : p.Counts bs) (hempty : ∀ b ∈ bs, b.isEmpty = false)
    (hcount : rowCount bs < UInt64.size) (hm : p.meter = some m) : m.Accounts bs p.held := by
  have hshows := h.meter m hm
  have hheld := h.held
  have hgreatest : rowCount bs ≤ Meter.greatest := Nat.le_sub_one_of_lt hcount
  have hlength := length_le_rowCount hempty
  have hchanges := Schema.changes_le_length (bs.map (·.schema))
  rw [List.length_map] at hchanges
  have hrows : m.counter Meter.rowsMerged = rowCount bs := by
    rw [hshows.rowsMerged, Nat.min_eq_left hgreatest]
  refine ⟨?_, hrows, ?_, ?_⟩
  · rw [hshows.blocksMerged]
    omega
  · rw [hrows, hshows.rowsDiscarded]
    omega
  · rw [hshows.schemaUpgrades]
    omega

end Progress

/-! ## Jobs -/

namespace Run

variable {c : Combiner} {deadline : Option Nat} {b : Block} {p : Progress}

theorem isSome_meter_offer (c : Combiner) (b : Block) (p : Progress) :
    ((offer c b).run.run p).2.meter.isSome = p.meter.isSome := by
  cases hb : b.isEmpty with
  | true => rw [offer_of_isEmpty hb]
  | false =>
    rw [offer_of_not_isEmpty hb]
    rcases p.base c b.schema with e | t
    · rfl
    · simp only
      rcases (c.merge b).run.run t with ⟨e | tally, t'⟩
      · rfl
      · exact Option.isSome_map

theorem isSome_meter_turn (c : Combiner) (deadline : Option Nat) (t : Turn) (p : Progress) :
    ((turn c deadline t).run.run p).2.meter.isSome = p.meter.isSome := by
  rw [run_turn]
  split
  · exact Option.isSome_map
  · obtain ⟨now?, h | b | e | _ | _⟩ := t
    · rfl
    · exact isSome_meter_offer c b _
    · exact Option.isSome_map.trans Option.isSome_map
    · exact Option.isSome_map
    · exact Option.isSome_map.trans Option.isSome_map

theorem isSome_meter_turns (c : Combiner) (deadline : Option Nat) (ts : List Turn) (p : Progress) :
    ((turns c deadline ts).run.run p).2.meter.isSome = p.meter.isSome := by
  induction ts generalizing p with
  | nil => rfl
  | cons t ts ih =>
    have hturn := isSome_meter_turn c deadline t p
    rw [run_turns_cons]
    rcases hrun : (turn c deadline t).run.run p with ⟨h | u, q⟩
    · rwa [hrun] at hturn
    · rw [hrun] at hturn
      exact (ih q).trans hturn

end Run

namespace Reducer

variable {r : Reducer} {job : Job}

/-- A job stops at its deadline if that is what ends the turns that bring blocks in time. -/
def Expires (r : Reducer) (job : Job) : Prop :=
  ∃ t ∈ (Turn.rest r.settings.timeoutMs job.turns).head?,
    t.expires r.settings.timeoutMs

/-- The blocks with rows that a job merges, if it ends as it should or at its deadline. -/
def merges (r : Reducer) (job : Job) : List Block :=
  nonempty (Turn.folded r.settings.timeoutMs job.turns)

theorem perform_settings (r : Reducer) (job : Job) :
    (r.perform job).2.combiner = r.combiner ∧ (r.perform job).2.settings = r.settings := by
  rw [perform_eq_run]
  exact ⟨rfl, rfl⟩

theorem isSome_meter_run_turns (r : Reducer) (deadline : Option Nat) (ts : List Turn) :
    (r.run (Run.turns r.combiner deadline ts)).2.meter.isSome = r.meter.isSome := by
  have hturns := Run.isSome_meter_turns r.combiner deadline ts (.start r.meter)
  have hstart : (Progress.start r.meter).meter.isSome = r.meter.isSome := Option.isSome_map
  rw [run_eq]
  rcases hrun : (Run.turns r.combiner deadline ts).run.run (.start r.meter) with ⟨h | u, p⟩
  · rw [hrun] at hturns
    exact hturns.trans hstart
  · rw [hrun] at hturns
    exact Option.isSome_map.trans (hturns.trans hstart)

theorem isSome_meter_perform (r : Reducer) (job : Job) :
    (r.perform job).2.meter.isSome = r.meter.isSome := by
  rw [perform_eq_run]
  exact r.isSome_meter_run_turns _ _

theorem performAll_settings (r : Reducer) (jobs : List Job) :
    (r.performAll jobs).combiner = r.combiner ∧ (r.performAll jobs).settings = r.settings ∧
      (r.performAll jobs).meter.isSome = r.meter.isSome := by
  induction jobs generalizing r with
  | nil => exact ⟨rfl, rfl, rfl⟩
  | cons job jobs ih =>
    obtain ⟨hcombiner, hsettings, hmeter⟩ := ih (r.perform job).2
    obtain ⟨hcombiner', hsettings'⟩ := r.perform_settings job
    exact ⟨hcombiner.trans hcombiner', hsettings.trans hsettings',
      hmeter.trans (r.isSome_meter_perform job)⟩

theorem counts_perform (r : Reducer) (job : Job) (hmeter : r.meter.isSome)
    (hobtained : ∀ b ∈ job.turns.filterMap Turn.block?, b.Obtained)
    (hcount : rowCount (r.merges job) < UInt64.size) :
    ∃ m, (r.perform job).2.meter = some m ∧
      (∀ sel, (r.perform job).1 = .ok sel →
        job.turns.all (Turn.folds r.settings.timeoutMs) ∧
          sel.merged = (r.merges job).length ∧ m.Accounts (r.merges job) sel.rows.length) ∧
      ∀ n collected, (r.perform job).1 = .error (.failed (.timeout n collected)) → r.Expires job →
        n = (r.merges job).length ∧
          m.Accounts (r.merges job) (collected.elim 0 (·.output.length)) := by
  obtain ⟨m, hm⟩ := Option.isSome_iff_exists.mp ((r.isSome_meter_perform job).trans hmeter)
  refine ⟨m, hm, ?_⟩
  have hempty : ∀ b ∈ r.merges job, b.isEmpty = false := by
    intro b hb
    simpa using (List.mem_filter.mp hb).2
  rw [perform_eq_run] at hm ⊢
  rcases r.run_turns_cases r.settings.timeoutMs job.turns with
    ⟨p, hp, hrun⟩ | ⟨before, t, after, q, h, p, hts, hbefore, ht, hrun⟩
  · rw [hrun] at hm ⊢
    obtain ⟨hcounts, hall⟩ := Progress.counts_turns hobtained hp
    have hmerges : r.merges job =
        nonempty (job.turns.filterMap Turn.block?) :=
      congrArg nonempty (Turn.folded_eq hall)
    rw [← hmerges] at hcounts
    refine ⟨?_, by simp⟩
    intro sel hsel
    obtain rfl := Except.ok.inj hsel
    refine ⟨hall, ?_, ?_⟩
    · rw [p.merged_selection, hcounts.merged]
    · have hrows : p.selection.rows.length = p.held := by
        rw [hcounts.held_eq, Progress.selection]
        cases p.target <;> rfl
      rw [hrows]
      exact hcounts.stop.accounts hempty hcount hm
  · rw [hrun] at hm ⊢
    refine ⟨by simp, ?_⟩
    intro n collected herror hexpires
    obtain rfl := Except.error.inj herror
    have hfolds := Run.folds_eq_false_of_timeout ht
    rw [hts, List.filterMap_append] at hobtained
    obtain ⟨hcounts, hall⟩ := Progress.counts_turns
      (fun b hb => hobtained b (List.mem_append_left _ hb)) hbefore
    have hmerges : r.merges job = nonempty (before.filterMap Turn.block?) := by
      rw [merges, hts, Turn.folded_append_cons hall hfolds]
    obtain ⟨t', ht', hexpires⟩ := hexpires
    rw [hts, Turn.rest_append_cons hall hfolds] at ht'
    obtain rfl : t = t' := Option.some.inj ht'
    rw [Run.run_turn_of_expires hexpires] at ht
    obtain ⟨hhalt, rfl⟩ := Prod.mk.inj ht
    obtain ⟨rfl, rfl⟩ : q.merged = n ∧ q.target = collected := by simpa using hhalt
    rw [← hmerges] at hcounts
    rw [← hcounts.held_eq]
    exact ⟨hcounts.merged, (hcounts.at _).stop.accounts hempty hcount hm⟩

end Reducer

/-- Every merge accounts for its rows, in whatever state its target is. So the counters of a
reducer, whatever it did before, account for a job that ends or stops at its deadline: for the
blocks with rows that it merged, for the rows that it holds at the end, and for the changes of their
schema. Nothing but jobs is ever done: whatever the deadline, every execution of a pool ends as the
job over the blocks that its coordinator folded and what it halted on. -/
theorem accounts_for_rows :
    (∀ {b b' : Block} {action : Block.Action} {tally : MergeTally}, b.Obtained →
      b.perform action = (.ok (some tally), b') →
      ∃ source, action.source? = some source ∧ tally.Accounts source b b') ∧
    (∀ (r : Reducer) (earlier : List Job) (job : Job), r.meter.isSome →
      (∀ b ∈ job.turns.filterMap Turn.block?, b.Obtained) →
      rowCount (r.merges job) < UInt64.size →
      ∃ m, ((r.performAll earlier).perform job).2.meter = some m ∧
        (∀ sel, ((r.performAll earlier).perform job).1 = .ok sel →
          job.turns.all (Turn.folds r.settings.timeoutMs) ∧
            sel.merged = (r.merges job).length ∧ m.Accounts (r.merges job) sel.rows.length) ∧
        ∀ n collected,
          ((r.performAll earlier).perform job).1 = .error (.failed (.timeout n collected)) →
          r.Expires job →
          n = (r.merges job).length ∧
            m.Accounts (r.merges job) (collected.elim 0 (·.output.length))) ∧
    ∀ {r : Reducer} {ps : List Producer} {pool : Pool} {out : Outcome} {meter : Option Meter},
      Pool.Reachable r.combiner ps r.meter pool →
      pool.Ends r.combiner r.settings.timeoutMs out meter →
      ∃ last : Option Receipt, (∀ receipt ∈ last, pool.Meets r.settings.timeoutMs receipt) ∧
        r.perform (.receipts ps.length (pool.folded.map .block ++ last.toList)) =
          (out, { r with meter }) := by
  refine ⟨?_, ?_, fun hpool hends => (Pool.tracks_of_reachable hpool).perform_ends hends⟩
  · intro b b' action tally hobtained hperform
    obtain ⟨l, hl⟩ := hobtained.exists_stores
    exact hl.accounts hperform
  · intro r earlier job hmeter hobtained hcount
    obtain ⟨-, hsettings, hmeter'⟩ := r.performAll_settings earlier
    have hcounts := (r.performAll earlier).counts_perform job (hmeter'.trans hmeter)
    rw [Reducer.merges, Reducer.Expires, hsettings] at hcounts
    exact hcounts hobtained hcount

/-! ### A tournament -/

/-- A reducer that has five milliseconds for the best three players. -/
def hastyReducer : Reducer :=
  .ofCombiner (.bestRows scoreOrder 3) { Settings.sequential with timeoutMs := some 5 }

/-- Runs that leave something on the counters: one that fails, and one whose pool is cut short. -/
def earlierJobs : List Job :=
  [.feed (.producers [⟨0, .returns juniors⟩, ⟨1, .fails Run.lost⟩]),
    .receipts 2 [.block seniors, .expired]]

/-- The deadline comes before the third block with rows. -/
def tournament : Job :=
  .feed (.blocks [⟨0, juniors⟩, ⟨1, .ofRows .placeholder []⟩, ⟨2, seniors⟩, ⟨5, juniors⟩])

/-- A reducer without any time. -/
def urgentReducer : Reducer :=
  .ofCombiner (.firstRows 5) { Settings.sequential with timeoutMs := some 0 }

theorem exists_ends_urgentPool : ∃ pool sel meter,
    Pool.Reachable urgentReducer.combiner [.returns juniors] urgentReducer.meter pool ∧
      pool.folded = [juniors] ∧
      pool.Ends urgentReducer.combiner urgentReducer.settings.timeoutMs (.ok sel) meter := by
  have hstart : Pool.Reachable urgentReducer.combiner [.returns juniors] urgentReducer.meter
      (.start [.returns juniors] urgentReducer.meter) := .refl
  have hsent := hstart.tail (.ends [] (.returns juniors) [] [] 1 [] _)
  have hfolded := hsent.tail (.folds [] juniors [] 0 [] rfl)
  exact ⟨_, _, _, hfolded, rfl, .finishes rfl⟩

/-- A settled target takes in three scores and lets go of two rows; of six players a run holds three
when its deadline comes, and their scores have become long; and a pool without any time still folds
the block that it finds sent. -/
theorem accounts_for_rows_tournament :
    (∃ source tally, settledScores.Obtained ∧
        settledScores.perform (.mergeOrdered newScores 4) =
          (.ok (some tally), (settledScores.mergeOrdered newScores 4).2) ∧
        tally.Accounts source settledScores (settledScores.mergeOrdered newScores 4).2) ∧
      (∃ collected m, ((hastyReducer.performAll earlierJobs).perform tournament).1 =
          .error (.failed (.timeout 2 (some collected))) ∧ collected.output.length = 3 ∧
        ((hastyReducer.performAll earlierJobs).perform tournament).2.meter = some m ∧
        m.counter Meter.blocksMerged = 2 ∧ m.counter Meter.rowsMerged = 6 ∧
        m.counter Meter.rowsDiscarded = 3 ∧ m.counter Meter.schemaUpgrades = 1) ∧
      ∃ pool sel m,
        Pool.Reachable urgentReducer.combiner [.returns juniors] urgentReducer.meter pool ∧
        pool.Ends urgentReducer.combiner urgentReducer.settings.timeoutMs (.ok sel) (some m) ∧
        m.counter Meter.blocksMerged = 1 ∧ m.counter Meter.rowsMerged = 3 := by
  obtain ⟨hmerge, hrun, hpools⟩ := accounts_for_rows
  refine ⟨?_, ?_, ?_⟩
  · have hobtained : settledScores.Obtained :=
      (Block.Obtained.orderedOfRows scoreSchema oldScores scoreOrder 3).perform .settle
    obtain ⟨source, -, haccounts⟩ := hmerge hobtained
      (show settledScores.perform (.mergeOrdered newScores 4) = (.ok (some _), _) from rfl)
    exact ⟨source, _, hobtained, rfl, haccounts⟩
  · obtain ⟨collected, hout, hlength⟩ : ∃ collected,
        ((hastyReducer.performAll earlierJobs).perform tournament).1 =
          .error (.failed (.timeout 2 (some collected))) ∧ collected.output.length = 3 :=
      ⟨_, rfl, by decide +kernel⟩
    have hobtained : ∀ b ∈ tournament.turns.filterMap Turn.block?,
        b.Obtained := by
      intro b hb
      have hb' : b ∈ [juniors, .ofRows .placeholder [], seniors, juniors] := hb
      simp only [List.mem_cons, List.not_mem_nil, or_false] at hb'
      rcases hb' with rfl | rfl | rfl | rfl <;> exact .ofRows _ _
    have hexpires : hastyReducer.Expires tournament := ⟨⟨some 5, _⟩, rfl, rfl⟩
    obtain ⟨m, hm, -, htimeout⟩ :=
      hrun hastyReducer earlierJobs tournament rfl hobtained (by decide +kernel)
    obtain ⟨-, hblocks, hrows, hheld, hupgrades⟩ := htimeout 2 (some collected) hout hexpires
    have hheld' : m.counter Meter.rowsMerged = 3 + m.counter Meter.rowsDiscarded := hlength ▸ hheld
    have hrows' : m.counter Meter.rowsMerged = 6 := hrows.trans (by decide +kernel)
    refine ⟨collected, m, hout, hlength, hm, hblocks.trans (by decide +kernel), hrows', by omega,
      hupgrades.trans (by decide +kernel)⟩
  · obtain ⟨pool, sel, meter, hpool, hfolded, hends⟩ := exists_ends_urgentPool
    obtain ⟨last, -, hperform⟩ := hpools hpool hends
    rw [hfolded] at hperform
    -- one producer is waited for, so the job has one turn, whatever else is there
    have hmerges : urgentReducer.merges (.receipts 1 (.block juniors :: last.toList)) = [juniors] :=
      rfl
    have hobtained : ∀ b ∈ [juniors], b.Obtained := by
      intro b hb
      obtain rfl := List.mem_singleton.mp hb
      exact .ofRows _ _
    obtain ⟨m, hm, hcompleted, -⟩ := hrun urgentReducer []
      (.receipts 1 (.block juniors :: last.toList)) rfl hobtained (by rw [hmerges]; decide +kernel)
    obtain ⟨-, -, hblocks, hrows, -⟩ := hcompleted sel (congrArg Prod.fst hperform)
    obtain rfl : meter = some m := (congrArg (·.2.meter) hperform).symm.trans hm
    exact ⟨pool, sel, m, hpool, hends, hblocks, hrows⟩

end SelectMerge

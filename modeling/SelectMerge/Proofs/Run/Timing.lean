import SelectMerge.Proofs.Run.Counters
import SelectMerge.Proofs.Run.Delivery

/-!
# How long runs took

A run notes on its meter when it begins. It notes its end if it completes, if its deadline comes and
if a producer fails or is lost (`Ending.noted`). A block that cannot be folded ends it without a
note, and so do a table that cannot be decoded and a producer whose crash is not caught; the meter
then knows no duration until another run has ended.

How a run ends is `EndsAs`: it passes all its turns or halts in one, whose `Turn.ending` says how.
`Marks` is what its meter knows of times, and a run that halts in a turn notes its end just if that
is how it ends (`Marks.of_turn_error`). Every run begins anew, so nothing of this depends on earlier
runs, pools included (`Used`): `meter_tells`.
-/

namespace SelectMerge

theorem Meter.isSome_elapsed?_iff {m : Meter} :
    m.elapsed?.isSome ↔ m.began.isSome ∧ m.ended.isSome := by
  obtain ⟨counters, registered, _ | b, _ | e⟩ := m <;> simp [elapsed?]

/-! ## Ways to end -/

/-- How a run ends: with a result, at its deadline, by a producer that fails or is lost, by a block
that cannot be folded, or by a table that cannot be decoded, or else by a crash in a table or a
producer, which takes the run down. -/
inductive Ending where
  | completed
  | expired
  | failed
  | refused
  | broken
deriving DecidableEq, Repr

/-- Whether a run that ends in this way notes when. -/
def Ending.noted : Ending → Bool
  | completed | expired | failed => true
  | refused | broken => false

/-- How a run ends that halts in a turn. -/
def Turn.ending (deadline : Option Nat) (t : Turn) : Ending :=
  if t.late deadline then .expired
  else
    match t.met with
    | .ok (.block _) => .refused
    | .ok (.failed _) => .failed
    | .ok .expired => .expired
    | .ok .closed => .failed
    | .error _ => .broken

theorem Turn.ending_ne_completed {deadline : Option Nat} {t : Turn} :
    t.ending deadline ≠ .completed := by
  obtain ⟨now?, h | b | e | _ | _⟩ := t <;> rw [ending] <;> split <;> simp

namespace Progress

/-! ## What the meter of a run knows -/

/-- Whether the meter of a run, if it has one, knows when the run began, and when it ended just if
`ended`. -/
def Marks (ended : Bool) (p : Progress) : Prop :=
  ∀ m ∈ p.meter, m.began.isSome ∧ m.ended.isSome = ended

variable {c : Combiner} {deadline : Option Nat} {ended : Bool} {p p' : Progress} {t : Turn}

theorem Marks.of_map {f : Meter → Meter} {ended' : Bool} (h : p.Marks ended)
    (hmeter : p'.meter = p.meter.map f) (hbegan : ∀ m, (f m).began = m.began)
    (hended : ∀ m, m.ended.isSome = ended → (f m).ended.isSome = ended') : p'.Marks ended' := by
  intro m' hm'
  rw [hmeter] at hm'
  obtain ⟨m, hm, rfl⟩ := Option.mem_map.mp hm'
  obtain ⟨hb, he⟩ := h m hm
  exact ⟨(hbegan m).symm ▸ hb, hended m he⟩

theorem marks_start (meter : Option Meter) : (start meter).Marks false := by
  intro m' hm'
  obtain ⟨m, -, rfl⟩ := Option.mem_map.mp hm'
  exact ⟨rfl, rfl⟩

theorem Marks.stop (h : p.Marks ended) : p.stop.Marks true :=
  h.of_map (f := (·.stop p.now)) rfl (fun _ => rfl) fun _ _ => rfl

theorem Marks.record (h : p.Marks ended) (tally : MergeTally) : (p.record tally).Marks ended :=
  h.of_map rfl (fun _ => rfl) fun _ hm => hm

theorem Marks.offer (h : p.Marks ended) (b : Block) :
    ((Run.offer c b).run.run p).2.Marks ended := by
  cases hb : b.isEmpty with
  | true =>
    rw [Run.offer_of_isEmpty hb]
    exact h
  | false =>
    rw [Run.offer_of_not_isEmpty hb]
    rcases p.base c b.schema with e | t
    · exact h
    · simp only
      rcases (c.merge b).run.run t with ⟨e | tally, t'⟩
      · exact h
      · exact Marks.record (p := { p with target := some t' }) h tally

theorem Marks.fail (h : p.Marks ended) (c : Combiner) (e : MergeError) :
    ((Run.meet c (.failed e)).run.run p).2.Marks true := by
  have hcounted : Marks ended
      { p with meter := p.meter.map (·.increment Meter.segmentsFailed 1) } :=
    h.of_map rfl (fun _ => rfl) fun _ hm => hm
  exact hcounted.stop

/-- A run that halts in a turn notes its end just if that is how it ends. -/
theorem Marks.of_turn_error {e : Halt} (h : p.Marks false)
    (hturn : (Run.turn c deadline t).run.run p = (.error e, p')) :
    p'.Marks (t.ending deadline).noted := by
  have hmarks : Marks false { p with now := t.now?.getD p.now } := h
  obtain rfl : ((Run.turn c deadline t).run.run p).2 = p' := congrArg Prod.snd hturn
  rw [Run.run_turn, Turn.ending]
  cases t.late deadline with
  | true => exact hmarks.stop
  | false =>
    obtain ⟨now?, h | b | e | _ | _⟩ := t
    case error => exact hmarks
    -- A block that halts the run is refused, and nobody notes the end then.
    case ok.block => exact hmarks.offer b
    case ok.failed => exact hmarks.fail c e
    case ok.expired => exact hmarks.stop
    case ok.closed => exact hmarks.fail c Run.lost

theorem Marks.of_turns_ok {ts : List Turn} (h : p.Marks false)
    (hrun : (Run.turns c deadline ts).run.run p = (.ok (), p')) : p'.Marks false := by
  refine Run.turns_induction (P := fun _ p => p.Marks false) hrun h (fun _ _ _ hq => hq) ?_
  intro bs b q q' hq _ hoffer
  have hafter := hq.offer (c := c) b
  rwa [hoffer] at hafter

end Progress

/-! ## Runs -/

namespace Reducer

variable {r r' : Reducer} {ts : List Turn} {e : Ending} {out : Outcome}

/-- How a run over some turns ends: it passes them all, or halts in the first that it does not
pass. -/
inductive EndsAs (r : Reducer) : List Turn → Ending → Prop where
  | completed {ts : List Turn} (hpasses : r.Passes ts) : r.EndsAs ts .completed
  | halted {before : List Turn} {t : Turn} (after : List Turn) (hbefore : r.Passes before)
      (ht : ¬ r.Passes (before ++ [t])) :
      r.EndsAs (before ++ t :: after) (t.ending r.settings.timeoutMs)

theorem exists_endsAs (r : Reducer) (ts : List Turn) : ∃ e, r.EndsAs ts e := by
  rcases r.run_turns_cases r.settings.timeoutMs ts with
    ⟨p, hp, -⟩ | ⟨before, t, after, q, h, p, rfl, hbefore, ht, -⟩
  · exact ⟨_, .completed (passes_iff.mpr ⟨p, hp⟩)⟩
  · refine ⟨_, .halted after (passes_iff.mpr ⟨q, hbefore⟩) fun hpasses => ?_⟩
    obtain ⟨q', hq'⟩ := passes_iff.mp hpasses
    rw [Run.run_turns_concat, hbefore] at hq'
    simp only [ht] at hq'
    cases hq'

/-- A run ends with a result just if it completes, and notes its end just if it ends in a way in
which this is noted. -/
theorem EndsAs.run (h : r.EndsAs ts e) : ∃ (out : Outcome) (p : Progress),
    r.run (Run.turns r.combiner r.settings.timeoutMs ts) = (out, { r with meter := p.meter }) ∧
      p.Marks e.noted ∧ ((∃ sel, out = .ok sel) ↔ e = .completed) := by
  have hstart := Progress.marks_start r.meter
  cases h with
  | completed hpasses =>
    obtain ⟨q, hq⟩ := passes_iff.mp hpasses
    refine ⟨.ok q.selection, q.stop, ?_, (hstart.of_turns_ok hq).stop, by simp⟩
    rw [run_eq, hq]
  | @halted before t after hbefore ht =>
    obtain ⟨q, hq⟩ := passes_iff.mp hbefore
    rcases hturn : (Run.turn r.combiner r.settings.timeoutMs t).run.run q with ⟨h | u, p⟩
    · refine ⟨.error h, p, ?_, (hstart.of_turns_ok hq).of_turn_error hturn, ?_⟩
      · rw [run_eq, Run.run_turns_of_halt after hq hturn]
      · simp [Turn.ending_ne_completed]
    · refine absurd (passes_iff.mpr ⟨p, ?_⟩) ht
      rw [Run.run_turns_concat, hq]
      exact hturn

/-- What a meter tells of a run over some turns that came to an outcome: it knows how long the run
took just if the run ended in a way that is noted. -/
structure Tells (r : Reducer) (ts : List Turn) (out : Outcome) (m : Meter) : Prop where
  ends : ∃ e, r.EndsAs ts e
  completed : ∀ e, r.EndsAs ts e → ((∃ sel, out = .ok sel) ↔ e = .completed)
  elapsed : ∀ e, r.EndsAs ts e → (m.elapsed?.isSome ↔ e.noted)

theorem tells_run {m : Meter} (hrun : r.run (Run.turns r.combiner r.settings.timeoutMs ts) =
    (out, { r with meter := some m })) : r.Tells ts out m := by
  have hends : ∀ e, r.EndsAs ts e →
      (m.began.isSome ∧ m.ended.isSome = e.noted) ∧ ((∃ sel, out = .ok sel) ↔ e = .completed) := by
    intro e he
    obtain ⟨out', p, hrun', hmarks, hout⟩ := he.run
    obtain ⟨rfl, hmeter⟩ := Prod.mk.inj (hrun.symm.trans hrun')
    exact ⟨hmarks m (congrArg Reducer.meter hmeter).symm, hout⟩
  refine ⟨r.exists_endsAs ts, fun e he => (hends e he).2, fun e he => ?_⟩
  obtain ⟨⟨hbegan, hended⟩, -⟩ := hends e he
  rw [Meter.isSome_elapsed?_iff, hended]
  exact and_iff_right hbegan

end Reducer

/-! ## Pools -/

theorem Run.turns_map_ofReceipt (c : Combiner) (deadline deadline' : Option Nat)
    (rs : List Receipt) :
    turns c deadline (rs.map Turn.ofReceipt) = turns c deadline' (rs.map Turn.ofReceipt) := by
  have h := receipts_eq_turns c deadline rs.length rs
  have h' := receipts_eq_turns c deadline' rs.length rs
  rw [awaited_length] at h h'
  exact h.symm.trans h'

theorem Pool.Tracks.run_ends {r : Reducer} {ps : List Producer} {pool : Pool} {out : Outcome}
    {meter : Option Meter} (h : pool.Tracks r.combiner ps r.meter)
    (hends : pool.Ends r.combiner r.settings.timeoutMs out meter) : ∃ last : Option Receipt,
      (∀ receipt ∈ last, pool.Meets r.settings.timeoutMs receipt) ∧
        r.run (Run.turns r.combiner r.settings.timeoutMs
          (taken pool.folded ++ last.toList.map Turn.ofReceipt)) = (out, { r with meter }) := by
  have hfolded : (Run.turns r.combiner r.settings.timeoutMs (taken pool.folded)).run.run
      (.start r.meter) = (.ok (), pool.progress) := by
    rw [taken, Run.turns_map_ofReceipt _ _ none]
    exact h.run
  cases hends with
  | finishes hawaited =>
    refine ⟨none, by simp, ?_⟩
    rw [Option.toList_none, List.map_nil, List.append_nil, Reducer.run_eq, hfolded]
  | @halts receipt e p hawaited hmeets hmeet =>
    refine ⟨some receipt, by simpa using hmeets, ?_⟩
    rw [Reducer.run_eq, Option.toList_some, List.map_singleton]
    have hturn : (Run.turn r.combiner r.settings.timeoutMs (.ofReceipt receipt)).run.run
        pool.progress = (.error e, p) := hmeet
    rw [Run.run_turns_of_halt [] hfolded hturn]

/-! ## One run after another -/

namespace Reducer

variable {r r' : Reducer}

/-- A reducer and what it is after one more run: over what it is fed, over what it receives, or as
the coordinator of a pool. -/
inductive Next (r : Reducer) : Reducer → Prop where
  | performed (job : Job) : r.Next (r.perform job).2
  | pooled {ps : List Producer} {pool : Pool} {out : Outcome} {meter : Option Meter}
      (hpool : Pool.Reachable r.combiner ps r.meter pool)
      (hends : pool.Ends r.combiner r.settings.timeoutMs out meter) : r.Next { r with meter }

/-- What a reducer may be after some runs. -/
def Used : Reducer → Reducer → Prop := Relation.ReflTransGen Next

theorem Next.isSome_meter (h : r.Next r') : r'.meter.isSome = r.meter.isSome := by
  cases h with
  | performed job => exact r.isSome_meter_perform job
  | pooled hpool hends =>
    obtain ⟨last, -, hperform⟩ := (Pool.tracks_of_reachable hpool).perform_ends hends
    have hmeter := congrArg (·.2.meter.isSome) hperform
    exact hmeter.symm.trans (r.isSome_meter_perform _)

theorem Used.isSome_meter (h : r.Used r') : r'.meter.isSome = r.meter.isSome := by
  induction h with
  | refl => rfl
  | tail _ hnext ih => exact hnext.isSome_meter.trans ih

theorem exists_tells (hmeter : r.meter.isSome) {ts : List Turn} {out : Outcome}
    {meter : Option Meter} (hrun : r.run (Run.turns r.combiner r.settings.timeoutMs ts) =
      (out, { r with meter })) : ∃ m, meter = some m ∧ r.Tells ts out m := by
  have hsome := (r.isSome_meter_run_turns r.settings.timeoutMs ts).trans hmeter
  rw [hrun] at hsome
  obtain ⟨m, rfl⟩ := Option.isSome_iff_exists.mp hsome
  exact ⟨m, rfl, tells_run hrun⟩

/-- Whatever a reducer that counts has done before, after its next run its meter knows how long this
run took exactly if it completed, its deadline came, or a producer failed or was lost. It does not
know it if a block could not be folded or a table could not be decoded. That holds of runs over
blocks, tables, producers one after another and whatever is received, and of every execution of a
pool. -/
theorem meter_tells {c : Combiner} {s : Settings} (hcounts : s.collectMetrics = true)
    (hused : (ofCombiner c s).Used r) :
    (∀ job, ∃ m, (r.perform job).2.meter = some m ∧
      r.Tells job.turns (r.perform job).1 m) ∧
    ∀ {ps pool out meter}, Pool.Reachable r.combiner ps r.meter pool →
      pool.Ends r.combiner r.settings.timeoutMs out meter →
      ∃ m, ∃ last : Option Receipt, meter = some m ∧
        (∀ receipt ∈ last, pool.Meets r.settings.timeoutMs receipt) ∧
        r.Tells (Pool.taken pool.folded ++ last.toList.map Turn.ofReceipt) out m := by
  have hmeter : r.meter.isSome := by
    rw [hused.isSome_meter, ofCombiner, hcounts]
    rfl
  constructor
  · intro job
    rw [perform_eq_run]
    exact exists_tells hmeter rfl
  · intro ps pool out meter hpool hends
    obtain ⟨last, hlast, hrun⟩ := (Pool.tracks_of_reachable hpool).run_ends hends
    obtain ⟨m, hm, htells⟩ := exists_tells hmeter hrun
    exact ⟨m, last, hm, hlast, htells⟩

/-! ### Medals among scores -/

/-- Players with medals, which are no scores. -/
def medals : Block := players (.one .string) [(.string "gold", "gil"), (.string "silver", "hal")]

/-- The second block is refused. -/
def medalJob : Job := .feed (.blocks [⟨0, juniors⟩, ⟨3, medals⟩, ⟨4, seniors⟩])

/-- The reducer after the run that refuses a block. -/
def medalReducer : Reducer := (scoreReducer.perform medalJob).2

/-- The second producer fails. -/
def scoreJob : Job := .feed (.producers [⟨0, .returns juniors⟩, ⟨2, .fails Run.lost⟩])

/-- A pool that has folded the players of one segment, and whose other segment has crashed. -/
def crashedPool (progress : Progress) : Pool := ⟨[], [], 1, [juniors], progress⟩

theorem exists_ends_crashedPool : ∃ progress meter,
    Pool.Reachable medalReducer.combiner [.returns juniors, .crashes] medalReducer.meter
        (crashedPool progress) ∧
      (crashedPool progress).Ends medalReducer.combiner medalReducer.settings.timeoutMs
        (.error (.failed Run.lost)) meter := by
  have hstart : Pool.Reachable medalReducer.combiner [.returns juniors, .crashes]
      medalReducer.meter (Pool.start [.returns juniors, .crashes] medalReducer.meter) := .refl
  have hsent := hstart.tail (.ends [] (.returns juniors) [.crashes] [] 2 [] _)
  have hfolded := hsent.tail (.folds [.crashes] juniors [] 1 [] rfl)
  have hcrashed := hfolded.tail (.ends [] .crashes [] [] 1 [juniors] _)
  exact ⟨_, _, hcrashed, .halts (Nat.succ_pos 0) (.closed rfl rfl) rfl⟩

/-- Later runs in which a producer fails, or crashes on a pool, have known durations. -/
theorem meter_tells_medals : scoreReducer.Used medalReducer ∧
    (∃ m, (medalReducer.perform scoreJob).2.meter = some m ∧ m.elapsed?.isSome) ∧
    ∃ progress m,
      Pool.Reachable medalReducer.combiner [.returns juniors, .crashes] medalReducer.meter
        (crashedPool progress) ∧
      (crashedPool progress).Ends medalReducer.combiner medalReducer.settings.timeoutMs
        (.error (.failed Run.lost)) (some m) ∧ m.elapsed?.isSome := by
  have hused : scoreReducer.Used medalReducer := .single (.performed medalJob)
  obtain ⟨hjobs, hpools⟩ := meter_tells (c := scoreReducer.combiner) (s := .sequential) rfl hused
  have hpasses : medalReducer.Passes (Pool.taken [juniors]) := ⟨rfl, _, rfl⟩
  refine ⟨hused, ?_, ?_⟩
  · obtain ⟨m, hm, htells⟩ := hjobs scoreJob
    have hbefore : medalReducer.Passes [⟨some 0, .ok (.block juniors)⟩] := ⟨rfl, _, rfl⟩
    have hends : medalReducer.EndsAs scoreJob.turns .failed := by
      refine .halted [] hbefore ?_
      rintro ⟨hall, -⟩
      cases hall
    exact ⟨m, hm, (htells.elapsed _ hends).mpr rfl⟩
  · obtain ⟨progress, meter, hreachable, hends⟩ := exists_ends_crashedPool
    obtain ⟨m, last, rfl, hlast, htells⟩ := hpools hreachable hends
    refine ⟨progress, m, hreachable, hends, ?_⟩
    -- There is no deadline and nothing is sent, so the coordinator met the closed channel.
    cases last with
    | none =>
      have hends : medalReducer.EndsAs (Pool.taken [juniors] ++ []) .completed := by
        rw [List.append_nil]
        exact .completed hpasses
      obtain ⟨sel, hsel⟩ := (htells.completed _ hends).mpr rfl
      cases hsel
    | some receipt =>
      cases hlast receipt rfl with
      | message hsent => cases hsent
      | expired hdeadline => cases hdeadline
      | closed =>
        have hends :
            medalReducer.EndsAs (Pool.taken [juniors] ++ [.ofReceipt .closed]) .failed := by
          refine .halted [] hpasses ?_
          rintro ⟨hall, -⟩
          cases hall
        exact (htells.elapsed _ hends).mpr rfl

/-- A block that is refused leaves the end of its run unknown. -/
theorem elapsed?_medals : ∃ m,
    scoreReducer.perform medalJob =
      (.error (.failed (.schemaMismatch juniors.schema.text medals.schema.text)),
        { scoreReducer with meter := some m }) ∧
      m.counter Meter.blocksMerged = 1 ∧ m.began = some 0 ∧ m.elapsed? = none :=
  ⟨_, rfl, by decide +kernel, rfl, rfl⟩

end Reducer

end SelectMerge

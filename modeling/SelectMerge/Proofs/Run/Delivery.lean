import Mathlib.Data.Set.List
import Mathlib.Logic.Relation
import SelectMerge.Proofs.Run.Turns
import SelectMerge.Run.Pool

/-!
# Delivery by a pool

However the producers of a pool and its coordinator interleave, what was sent is folded, waits to be
taken or will be sent, and the coordinator counts blocks, not producers: `Pool.Tracks` says so of
every state that is `Reachable`. So the coordinator has a result only when all producers have
returned a block, each of which it has folded once (`Tracks.all_returned`); otherwise it halts on
the first thing it meets that it cannot fold (`Halts`). Executions end, as every step leaves less to
do (`Step.todo_lt`), and none gets stuck before (`exists_step_or_ends`). `no_segment_lost` has all
of this.

Whatever the schedule and the deadline, an execution ends as the reducer does over what its
coordinator met (`Tracks.perform_ends`). The schedule of `Reducer.reduceSegments` is one of them
(`exists_ends_reduceSegments`).
-/

namespace SelectMerge

namespace Pool

variable {c : Combiner} {deadline : Option Nat} {ps : List Producer} {meter : Option Meter}
  {pool pool' : Pool}

/-- The states that a pool may come to. -/
def Reachable (c : Combiner) (ps : List Producer) (meter : Option Meter) : Pool → Prop :=
  Relation.ReflTransGen (Step c) (start ps meter)

/-! ## What an execution keeps -/

/-- The turns of a coordinator that takes some blocks. -/
def taken (bs : List Block) : List Turn := (bs.map Receipt.block).map Turn.ofReceipt

theorem taken_concat (bs : List Block) (b : Block) :
    taken (bs ++ [b]) = taken bs ++ [.ofReceipt (.block b)] := by simp [taken]

theorem fst_run_taken (r : Reducer) (bs : List Block) :
    (r.run (Run.turns r.combiner none (taken bs))).1 =
      (r.untimed.reduce (bs.map (Timed.mk 0))).1 :=
  Reducer.fst_run_turns_eq_reduce (by simp [taken, Turn.folds])
    (by simp [taken, List.filterMap_map, Function.comp_def])

/-- Whether nothing that the producers send is lost or doubled, and the coordinator has folded what
it took. -/
structure Tracks (c : Combiner) (ps : List Producer) (meter : Option Meter) (pool : Pool) : Prop
    where
  delivered : (pool.folded.map Receipt.block ++
    (pool.sent ++ pool.working.filterMap Producer.sends)).Perm (ps.filterMap Producer.sends)
  counted : pool.folded.length + pool.awaited = ps.length
  run : (Run.turns c none (taken pool.folded)).run.run (.start meter) = (.ok (), pool.progress)

theorem tracks_start (c : Combiner) (ps : List Producer) (meter : Option Meter) :
    (start ps meter).Tracks c ps meter := ⟨.refl _, Nat.zero_add _, rfl⟩

theorem Tracks.step (h : pool.Tracks c ps meter) (hstep : Step c pool pool') :
    pool'.Tracks c ps meter := by
  obtain ⟨hdelivered, hcounted, hrun⟩ := h
  cases hstep with
  | ends before p after sent awaited folded progress =>
    refine ⟨.trans (.append_left _ ?_) hdelivered, hcounted, hrun⟩
    -- what the producer sends moves from among the others' to the end of the queue
    have hmiddle : (before ++ p :: after).filterMap Producer.sends =
        before.filterMap Producer.sends ++
          (p.sends.toList ++ after.filterMap Producer.sends) := by
      cases hp : p.sends <;> simp [List.filterMap_append, hp]
    rw [hmiddle, List.filterMap_append, List.append_assoc]
    exact .append_left _ (List.perm_append_comm_assoc _ _ _)
  | @folds working b sent awaited folded progress progress' hmeet =>
    refine ⟨?_, ?_, ?_⟩
    · simpa using hdelivered
    · have hcounted : folded.length + (awaited + 1) = ps.length := hcounted
      show (folded ++ [b]).length + awaited = ps.length
      rw [List.length_append, List.length_singleton]
      omega
    · rw [taken_concat, Run.run_turns_append, hrun]
      exact (Run.run_turns_singleton _ _).trans hmeet

theorem tracks_of_reachable (h : Reachable c ps meter pool) : pool.Tracks c ps meter := by
  induction h with
  | refl => exact tracks_start c ps meter
  | tail _ hstep ih => exact ih.step hstep

/-! ## Who sent what -/

theorem Tracks.length_le (h : pool.Tracks c ps meter) :
    pool.folded.length + (pool.sent.length + (pool.working.filterMap Producer.sends).length) =
      (ps.filterMap Producer.sends).length := by
  simpa using h.delivered.length_eq

theorem Tracks.exists_sender (h : pool.Tracks c ps meter) {r : Receipt} {rest : List Receipt}
    (hsent : pool.sent = r :: rest) : ∃ p ∈ ps, p.sends = some r := by
  have hmem : r ∈ ps.filterMap Producer.sends := by
    refine h.delivered.subset ?_
    simp [hsent]
  exact List.mem_filterMap.mp hmem

/-- A coordinator that waits for no more has folded a block of every producer. -/
theorem Tracks.all_returned (h : pool.Tracks c ps meter) (hawaited : pool.awaited = 0) :
    ∃ bs, ps = bs.map .returns ∧ pool.folded.Perm bs := by
  have hlength := h.length_le
  have hcounted := h.counted
  have hle := List.length_filterMap_le Producer.sends ps
  have hsent : pool.sent = [] := List.length_eq_zero_iff.mp (by omega)
  have hworking : pool.working.filterMap Producer.sends = [] :=
    List.length_eq_zero_iff.mp (by omega)
  have hdelivered := h.delivered
  rw [hsent, hworking, List.append_nil, List.append_nil] at hdelivered
  have hall : ∀ p ∈ ps, (p.sends).isSome :=
    List.filterMap_length_eq_length.mp (by omega)
  have hreturned : ps ∈ Set.range (List.map Producer.returns) := by
    rw [Set.range_list_map]
    intro p hp
    obtain ⟨r, hr⟩ := Option.isSome_iff_exists.mp (hall p hp)
    have hmem := hdelivered.symm.subset (List.mem_filterMap.mpr ⟨p, hp, hr⟩)
    obtain ⟨b, -, rfl⟩ := List.mem_map.mp hmem
    cases p with
    | returns b' => exact ⟨b', rfl⟩
    | fails | crashes => cases hr
  obtain ⟨bs, rfl⟩ := hreturned
  refine ⟨bs, rfl, ?_⟩
  have hsends : (bs.map Producer.returns).filterMap Producer.sends = bs.map Receipt.block := by
    rw [List.filterMap_map]
    exact congrFun List.filterMap_eq_map bs
  rw [hsends] at hdelivered
  exact (List.map_perm_map_iff fun _ _ => Receipt.block.inj).mp hdelivered

theorem Tracks.exists_crash (h : pool.Tracks c ps meter) (hawaited : 0 < pool.awaited)
    (hworking : pool.working = []) (hsent : pool.sent = []) : .crashes ∈ ps := by
  have hlength := h.length_le
  have hcounted := h.counted
  rw [hworking, hsent] at hlength
  have hlt : (ps.filterMap Producer.sends).length < ps.length := by
    simp only [List.length_nil, List.filterMap_nil] at hlength
    omega
  by_contra hcrashes
  have hall : (ps.filterMap Producer.sends).length = ps.length := by
    rw [List.filterMap_length_eq_length]
    intro p hp
    cases p with
    | returns | fails => rfl
    | crashes => exact absurd hp hcrashes
  omega

/-! ## Executions end -/

/-- What is left to do: producers have to end and to be heard. -/
def todo (pool : Pool) : Nat := 2 * pool.working.length + pool.sent.length

theorem Step.todo_lt (hstep : Step c pool pool') : pool'.todo < pool.todo := by
  cases hstep with
  | ends before p after sent awaited folded progress =>
    have hsends : p.sends.toList.length ≤ 1 := by cases p.sends <;> simp
    simp only [todo, List.length_append, List.length_cons]
    omega
  | folds => simp [todo]

theorem exists_step_or_ends (c : Combiner) (deadline : Option Nat) (pool : Pool) :
    (∃ pool', Step c pool pool') ∨ ∃ out meter, pool.Ends c deadline out meter := by
  obtain ⟨working, sent, _ | awaited, folded, progress⟩ := pool
  · exact .inr ⟨_, _, .finishes rfl⟩
  cases sent with
  | cons r sent =>
    rcases hmeet : (Run.meet c r).run.run progress with ⟨h | u, p⟩
    · exact .inr ⟨_, _, .halts (Nat.succ_pos _) (.message rfl) hmeet⟩
    · cases r with
      | block b => exact .inl ⟨_, .folds working b sent awaited folded hmeet⟩
      | failed e | expired | closed => cases hmeet
  | nil =>
    cases working with
    | nil => exact .inr ⟨_, _, .halts (Nat.succ_pos _) (.closed rfl rfl) rfl⟩
    | cons p working =>
      exact .inl ⟨_, .ends [] p working [] (awaited + 1) folded progress⟩

theorem wellFounded_step (c : Combiner) : WellFounded (flip (Step c)) :=
  Subrelation.wf Step.todo_lt (measure todo).wf

/-! ## The coordinator -/

section Coordinator

variable {r : Reducer} (h : pool.Tracks r.combiner ps r.meter)

include h

theorem Tracks.reduce_folded :
    (r.untimed.reduce (pool.folded.map (Timed.mk 0))).1 = .ok pool.progress.selection := by
  rw [← fst_run_taken, Reducer.run_eq, h.run]

theorem Tracks.reduce_refused {b : Block} {e : Halt} {p : Progress}
    (hmeet : (Run.meet r.combiner (.block b)).run.run pool.progress = (.error e, p)) :
    (r.untimed.reduce ((pool.folded ++ [b]).map (Timed.mk 0))).1 = .error e := by
  have hrun := Run.run_turns_of_halt (t := .ofReceipt (.block b)) [] h.run hmeet
  rw [← fst_run_taken, Reducer.run_eq, taken_concat, hrun]

theorem Tracks.run_finishes (hawaited : pool.awaited = 0) :
    r.run (Run.receipts r.combiner ps.length (pool.folded.map .block)) =
      (.ok pool.progress.selection, { r with meter := pool.progress.stop.meter }) := by
  have hlength : ps.length = (pool.folded.map Receipt.block).length := by
    rw [List.length_map, ← h.counted, hawaited, Nat.add_zero]
  rw [Run.receipts_eq_turns _ none, hlength, awaited_length, ← taken, Reducer.run_eq,
    h.run]

theorem Tracks.run_halts {receipt : Receipt} {e : Halt} {p : Progress}
    (hawaited : 0 < pool.awaited)
    (hmeet : (Run.meet r.combiner receipt).run.run pool.progress = (.error e, p)) :
    r.run (Run.receipts r.combiner ps.length (pool.folded.map .block ++ [receipt])) =
      (.error e, { r with meter := p.meter }) := by
  have hlt : (pool.folded.map Receipt.block).length < ps.length := by
    rw [List.length_map, ← h.counted]
    omega
  obtain ⟨after, hafter⟩ := exists_awaited_append_cons receipt [] hlt
  have hrun := Run.run_turns_of_halt (t := .ofReceipt receipt) (after.map Turn.ofReceipt) h.run
    hmeet
  rw [Run.receipts_eq_turns _ none, hafter, List.map_append, List.map_cons, ← taken,
    Reducer.run_eq, hrun]

/-- However a coordinator ends, it ends as the reducer does over the blocks that it folded and, if
it halted, what it met then. -/
theorem Tracks.perform_ends {out : Outcome} {meter : Option Meter}
    (hends : pool.Ends r.combiner r.settings.timeoutMs out meter) : ∃ last : Option Receipt,
      (∀ receipt ∈ last, pool.Meets r.settings.timeoutMs receipt) ∧
        r.perform (.receipts ps.length (pool.folded.map .block ++ last.toList)) =
          (out, { r with meter }) := by
  cases hends with
  | finishes hawaited =>
    refine ⟨none, by simp, ?_⟩
    rw [Option.toList_none, List.append_nil]
    exact h.run_finishes hawaited
  | @halts receipt e p hawaited hmeets hmeet =>
    exact ⟨some receipt, by simpa using hmeets, h.run_halts hawaited hmeet⟩

end Coordinator

/-! ## No segment is lost -/

/-- What a coordinator halts on, by what it meets after it has made a selection of blocks. -/
inductive Halts (r : Reducer) (ps : List Producer) (folded : List Block) (sel : Selection) :
    Receipt → Halt → Prop where
  | failed {e : MergeError} (hfails : .fails e ∈ ps) :
      Halts r ps folded sel (.failed e) (.failed e)
  | refused {b : Block} {h : Halt} (hreturns : .returns b ∈ ps)
      (hreduce : (r.untimed.reduce ((folded ++ [b]).map (Timed.mk 0))).1 = .error h) :
      Halts r ps folded sel (.block b) h
  | expired {collected : Option Block} (hdeadline : r.settings.timeoutMs.isSome) :
      Halts r ps folded sel .expired (.failed (.timeout sel.merged collected))
  | lost (hcrashes : .crashes ∈ ps) : Halts r ps folded sel .closed (.failed Run.lost)

theorem Tracks.halts {r : Reducer} (h : pool.Tracks r.combiner ps r.meter) {receipt : Receipt}
    {e : Halt} {p : Progress} (hawaited : 0 < pool.awaited)
    (hmeets : pool.Meets r.settings.timeoutMs receipt)
    (hmeet : (Run.meet r.combiner receipt).run.run pool.progress = (.error e, p)) :
    Halts r ps pool.folded pool.progress.selection receipt e := by
  cases hmeets with
  | expired hdeadline =>
    cases hmeet
    rw [← Progress.merged_selection]
    exact .expired hdeadline
  | closed hworking hsent =>
    cases hmeet
    exact .lost (h.exists_crash hawaited hworking hsent)
  | message hsent =>
    obtain ⟨producer, hmem, hsends⟩ := h.exists_sender hsent
    cases producer with
    | returns b =>
      obtain rfl := Option.some.inj hsends
      exact .refused hmem (h.reduce_refused hmeet)
    | fails e' =>
      obtain rfl := Option.some.inj hsends
      cases hmeet
      exact .failed hmem
    | crashes => cases hsends

/-- However a pool's producers and its coordinator interleave, and whenever the deadline passes, no
execution goes on for ever, and none is stuck before its end. The coordinator has a result only if
every producer has returned a block, and then it has folded each of them once. If a producer fails
or crashes it has none, but ends with the first thing that it met and could not fold: all that it
took before were blocks, and could be reduced. Either way it ends as a run over the receipts that it
met. -/
theorem no_segment_lost (r : Reducer) (ps : List Producer) (pool : Pool)
    (hpool : Reachable r.combiner ps r.meter pool) :
    WellFounded (flip (Step r.combiner)) ∧
    ((∃ pool', Step r.combiner pool pool') ∨
      ∃ out meter, pool.Ends r.combiner r.settings.timeoutMs out meter) ∧
    ∀ out meter, pool.Ends r.combiner r.settings.timeoutMs out meter →
      (∀ sel, out = .ok sel → (∃ bs, ps = bs.map .returns ∧ pool.folded.Perm bs) ∧
        r.run (Run.receipts r.combiner ps.length (pool.folded.map .block)) =
          (.ok sel, { r with meter })) ∧
      ((∃ p ∈ ps, ∀ b, p ≠ .returns b) → ∃ h, out = .error h) ∧
      ∀ h, out = .error h → ∃ receipt sel, pool.Meets r.settings.timeoutMs receipt ∧
        (r.untimed.reduce (pool.folded.map (Timed.mk 0))).1 = .ok sel ∧
        Halts r ps pool.folded sel receipt h ∧
        r.run (Run.receipts r.combiner ps.length (pool.folded.map .block ++ [receipt])) =
          (.error h, { r with meter }) := by
  have htracks := tracks_of_reachable hpool
  refine ⟨wellFounded_step r.combiner, exists_step_or_ends _ _ pool, ?_⟩
  intro out meter hends
  cases hends with
  | finishes hawaited =>
    obtain ⟨bs, hps, hperm⟩ := htracks.all_returned hawaited
    refine ⟨?_, ?_, by simp⟩
    · intro sel hsel
      obtain rfl := Except.ok.inj hsel
      exact ⟨⟨bs, hps, hperm⟩, htracks.run_finishes hawaited⟩
    · rintro ⟨p, hp, hnot⟩
      rw [hps] at hp
      obtain ⟨b, -, rfl⟩ := List.mem_map.mp hp
      exact absurd rfl (hnot b)
  | @halts receipt e p hawaited hmeets hmeet =>
    refine ⟨by simp, fun _ => ⟨e, rfl⟩, ?_⟩
    intro h hh
    obtain rfl := Except.error.inj hh
    exact ⟨receipt, pool.progress.selection, hmeets, htracks.reduce_folded,
      htracks.halts hawaited hmeets hmeet, htracks.run_halts hawaited hmeet⟩

/-! ## Delivery in order of the list -/

/-- How a fold of receipts ends. -/
def conclusion : Except Halt Unit × Progress → Outcome × Option Meter
  | (.ok _, p) => (.ok p.selection, p.stop.meter)
  | (.error h, p) => (.error h, p.meter)

theorem run_eq_conclusion (r : Reducer) (fold : Run Unit) :
    r.run fold = ((conclusion (fold.run.run (.start r.meter))).1,
      { r with meter := (conclusion (fold.run.run (.start r.meter))).2 }) := by
  rw [Reducer.run_eq]
  rcases fold.run.run (.start r.meter) with ⟨_ | _, p⟩ <;> rfl

theorem run_receipts_cons (n : Nat) (receipt : Receipt) (rs : List Receipt) (p : Progress) :
    (Run.receipts c (n + 1) (receipt :: rs)).run.run p =
      match (Run.meet c receipt).run.run p with
      | (.ok _, p) => (Run.receipts c n rs).run.run p
      | (.error h, p) => (.error h, p) := by
  rw [Run.receipts, run_bind]
  rcases (Run.meet c receipt).run.run p with ⟨_ | _, _⟩ <;> rfl

/-- Whether an execution from a state ends as a fold of some receipts does. -/
def Leads (c : Combiner) (deadline : Option Nat) (pool : Pool) (rs : List Receipt) : Prop :=
  ∃ last, Relation.ReflTransGen (Step c) pool last ∧
    last.Ends c deadline (conclusion ((Run.receipts c pool.awaited rs).run.run pool.progress)).1
      (conclusion ((Run.receipts c pool.awaited rs).run.run pool.progress)).2

section Leads

variable {working before after : List Producer} {p : Producer} {b : Block} {e : MergeError}
  {rs : List Receipt} {n : Nat} {folded : List Block} {progress : Progress}

theorem leads_expired (hdeadline : deadline.isSome) (pool : Pool) :
    pool.Leads c deadline [.expired] := by
  obtain ⟨working, sent, _ | n, folded, progress⟩ := pool
  · exact ⟨_, .refl, .finishes rfl⟩
  · exact ⟨_, .refl, .halts (Nat.succ_pos n) (.expired hdeadline) rfl⟩

theorem leads_nil : Leads c deadline ⟨[], [], n, folded, progress⟩ [] := by
  cases n with
  | zero => exact ⟨_, .refl, .finishes rfl⟩
  | succ n => exact ⟨_, .refl, .halts (Nat.succ_pos n) (.closed rfl rfl) rfl⟩

theorem leads_failed :
    Leads c deadline ⟨working, [.failed e], n + 1, folded, progress⟩ (.failed e :: rs) :=
  ⟨_, .refl, .halts (Nat.succ_pos n) (.message rfl) rfl⟩

theorem leads_block (hrest : ∀ progress',
      Leads c deadline ⟨working, [], n, folded ++ [b], progress'⟩ rs) :
    Leads c deadline ⟨working, [.block b], n + 1, folded, progress⟩ (.block b :: rs) := by
  rw [Leads, run_receipts_cons]
  rcases hmeet : (Run.meet c (.block b)).run.run progress with ⟨h | u, progress'⟩
  · exact ⟨_, .refl, .halts (Nat.succ_pos n) (.message rfl) hmeet⟩
  · obtain ⟨last, hlast, hends⟩ := hrest progress'
    exact ⟨last, .head (.folds working b [] n folded hmeet) hlast, hends⟩

theorem Leads.head
    (h : Leads c deadline ⟨before ++ after, p.sends.toList, n, folded, progress⟩ rs) :
    Leads c deadline ⟨before ++ p :: after, [], n, folded, progress⟩ rs := by
  obtain ⟨last, hlast, hends⟩ := h
  exact ⟨last, .head (.ends before p after [] n folded progress) hlast, hends⟩

end Leads

theorem leads_arrivals {outlasted : Bool} {workers : Nat} (ts : List SegmentTask)
    (busy : List Producer) (n : Nat) (folded : List Block) (progress : Progress)
    (hbusy : outlasted = false → busy = []) (hn : ts.length ≤ n)
    (hdeadline : (outlasted = true ∨ workers = 0 ∨ ∃ t ∈ ts, t.outlasts) → deadline.isSome) :
    Leads c deadline ⟨busy ++ ts.map (·.producer), [], n, folded, progress⟩
      (Producer.arrivals workers outlasted (ts.map SegmentTask.inTime)) := by
  induction ts generalizing busy workers n outlasted folded progress with
  | nil =>
    cases outlasted with
    | true => exact leads_expired (hdeadline (.inl rfl)) _
    | false =>
      obtain rfl := hbusy rfl
      exact leads_nil
  | cons t ts ih =>
    obtain ⟨n, rfl⟩ := Nat.exists_eq_succ_of_ne_zero (Nat.ne_of_gt (Nat.zero_lt_of_lt hn))
    have hn' : ts.length ≤ n := Nat.le_of_succ_le_succ hn
    cases workers with
    | zero => exact leads_expired (hdeadline (.inr (.inl rfl))) _
    | succ workers =>
      cases houtlasts : t.outlasts with
      | true =>
        -- its worker stays busy with it
        have hin : (t :: ts).map SegmentTask.inTime = none :: ts.map SegmentTask.inTime := by
          simp [SegmentTask.inTime, houtlasts]
        have hsome := hdeadline (.inr (.inr ⟨t, List.mem_cons_self, houtlasts⟩))
        rw [hin, Producer.arrivals, List.map_cons, List.append_cons]
        exact ih (busy ++ [t.producer]) (n + 1) folded progress (by simp) (Nat.le_succ_of_le hn')
          fun _ => hsome
      | false =>
        have hin : (t :: ts).map SegmentTask.inTime =
            some t.producer :: ts.map SegmentTask.inTime := by
          simp [SegmentTask.inTime, houtlasts]
        have hlater : (outlasted = true ∨ workers + 1 = 0 ∨ ∃ t ∈ ts, t.outlasts) →
            deadline.isSome := by
          rintro (h | h | ⟨t', ht', h⟩)
          · exact hdeadline (.inl h)
          · exact absurd h (Nat.succ_ne_zero workers)
          · exact hdeadline (.inr (.inr ⟨t', List.mem_cons_of_mem t ht', h⟩))
        rw [hin, List.map_cons]
        refine Leads.head ?_
        cases t.producer with
        | returns b =>
          refine leads_block fun progress' => ?_
          exact ih busy n (folded ++ [b]) progress' hbusy hn' hlater
        | fails e => exact leads_failed
        | crashes => exact ih busy (n + 1) folded progress hbusy (Nat.le_succ_of_le hn') hlater

theorem threads_ne_zero {s : Settings} (hvalid : s.validate = .ok ()) (processors : Nat) :
    s.mode.threads processors ≠ 0 := by
  cases hmode : s.mode with
  | sequential => exact Nat.one_ne_zero
  | parallel threads =>
    rcases threads with _ | _ | n
    · simp [RunMode.threads]
    · rw [Settings.validate, if_pos hmode] at hvalid
      cases hvalid
    · simp [RunMode.threads]

/-- Segments are reduced in parallel as an execution of their pool ends: that in which they end in
the order of the list, but for those that outlast the deadline. -/
theorem exists_ends_reduceSegments (r : Reducer) (processors : Nat) (ts : List SegmentTask)
    (hmode : r.settings.mode ≠ .sequential) (hvalid : r.settings.validate = .ok ())
    (houtlasts : ∀ t ∈ ts, t.outlasts → r.settings.timeoutMs.isSome) :
    ∃ last out meter, Reachable r.combiner (ts.map (·.producer)) r.meter last ∧
      last.Ends r.combiner r.settings.timeoutMs out meter ∧
      r.reduceSegments processors ts = (out, { r with meter }) := by
  have hreduce : r.reduceSegments processors ts = r.reduceReceipts ts.length
      (Reducer.delivered r.settings.timeoutMs (r.settings.mode.threads processors) ts) := by
    rw [Reducer.reduceSegments]
    split
    · exact absurd ‹_› hmode
    · rfl
  have hlength : (start (ts.map (·.producer)) r.meter).awaited = ts.length := List.length_map _
  rw [hreduce, Reducer.reduceReceipts, run_eq_conclusion, Reducer.delivered]
  by_cases hzero : r.settings.timeoutMs = some 0
  · have hsome : r.settings.timeoutMs.isSome := by
      rw [hzero]
      rfl
    obtain ⟨last, hlast, hends⟩ :=
      leads_expired (c := r.combiner) hsome (start (ts.map (·.producer)) r.meter)
    rw [hlength] at hends
    rw [if_pos hzero]
    exact ⟨last, _, _, hlast, hends, rfl⟩
  · have hdeadline : (false = true ∨ r.settings.mode.threads processors = 0 ∨
        ∃ t ∈ ts, t.outlasts) → r.settings.timeoutMs.isSome := by
      rintro (h | h | ⟨t, ht, h⟩)
      · cases h
      · exact absurd h (threads_ne_zero hvalid processors)
      · exact houtlasts t ht h
    obtain ⟨last, hlast, hends⟩ := leads_arrivals (c := r.combiner) ts [] ts.length []
      (.start r.meter) (fun _ => rfl) (Nat.le_refl _) hdeadline
    rw [if_neg hzero]
    refine ⟨last, _, _, ?_, hends, rfl⟩
    rw [Reachable, start, List.length_map]
    exact hlast

/-! ### Players -/

/-- Two segments of players and one that crashes. -/
def playerSegments : List Producer := [.returns juniors, .crashes, .returns seniors]

/-- The last segment ends first. Both blocks are folded, and as a third cannot come any more the
coordinator ends without a result. -/
theorem no_segment_lost_players : ∃ pool meter,
    Reachable scoreReducer.combiner playerSegments scoreReducer.meter pool ∧
      pool.folded = [seniors, juniors] ∧
      pool.Ends scoreReducer.combiner scoreReducer.settings.timeoutMs (.error (.failed Run.lost))
        meter ∧
      scoreReducer.run (Run.receipts scoreReducer.combiner 3
        [.block seniors, .block juniors, .closed]) =
          (.error (.failed Run.lost), { scoreReducer with meter }) := by
  have hstart : Reachable scoreReducer.combiner playerSegments scoreReducer.meter
      (start playerSegments scoreReducer.meter) := .refl
  have hsent := hstart.tail (.ends [.returns juniors, .crashes] (.returns seniors) [] [] 3 [] _)
  have hfolded := hsent.tail (.folds [.returns juniors, .crashes] seniors [] 2 [] rfl)
  have hcrashed := hfolded.tail (.ends [.returns juniors] .crashes [] [] 2 [seniors] _)
  have hsent' := hcrashed.tail (.ends [] (.returns juniors) [] [] 2 [seniors] _)
  obtain ⟨progress, hpool⟩ : ∃ progress, Reachable scoreReducer.combiner playerSegments
      scoreReducer.meter ⟨[], [], 1, [seniors, juniors], progress⟩ :=
    ⟨_, hsent'.tail (.folds [] juniors [] 1 [seniors] rfl)⟩
  obtain ⟨meter, hlost⟩ : ∃ meter, Ends scoreReducer.combiner scoreReducer.settings.timeoutMs
      ⟨[], [], 1, [seniors, juniors], progress⟩ (.error (.failed Run.lost)) meter :=
    ⟨_, .halts (Nat.succ_pos 0) (.closed rfl rfl) rfl⟩
  obtain ⟨-, -, herror⟩ := (no_segment_lost scoreReducer playerSegments _ hpool).2.2 _ _ hlost
  obtain ⟨receipt, sel, hmeets, -, -, hrun⟩ := herror _ rfl
  -- nothing waits to be taken and there is no deadline, so the channel was found closed
  cases hmeets with
  | message hsent => cases hsent
  | expired hdeadline => cases hdeadline
  | closed => exact ⟨_, meter, hpool, rfl, hlost, hrun⟩

end Pool

end SelectMerge

import SelectMerge.Proofs.Block.Failure
import SelectMerge.Proofs.Run.Joining

/-!
# Runs by turns

Whatever a run is fed, blocks, encoded tables, producers or what a pool delivers (`Job`), it takes
turns: it reads the clock, where there is something to read it for, and then meets one thing
(`Turn`). It passes a turn exactly if the turn comes in time and brings a block that can be folded
(`turn_eq_ok_iff`), and halts in the first that it does not pass (`exists_halting_turn`); what would
have come later plays no part.

Every fold of `Run` is `Run.turns` over the turns of its inputs, so a job is performed by taking its
turns (`Reducer.perform_eq_run`). What blocks keep carries over to jobs by `turns_induction`, and
what relates two runs by `turns_relate`. Turns that all come in time are passed as a run without a
deadline passes their blocks (`fst_run_turns_eq_reduce`).
-/

namespace SelectMerge

/-! ## Turns -/

/-- A turn of a run: the reading of the clock, if it is read, and what is met, or what stops the run
at once. -/
structure Turn where
  now? : Option Nat
  met : Except Halt Receipt

/-- The turn of a coordinator that waits for a receipt. -/
def Turn.ofReceipt (r : Receipt) : Turn := ⟨none, .ok r⟩

/-- What comes of an encoded table. -/
def Payload.met (t : Payload) : Except Halt Receipt :=
  match t.toBlock with
  | .ok b => .ok (.block b)
  | .error (.failed e) => .error (.failed (.decode e))
  | .error (.outside _ _) => .error .crashed

/-- What comes of a producer that a run waits for. -/
def Producer.met : Producer → Except Halt Receipt
  | .returns b => .ok (.block b)
  | .fails e => .ok (.failed e)
  | .crashes => .error .crashed

/-- What a run takes in, one after another. -/
inductive Feed where
  | blocks (bs : List (Timed Block))
  | tables (ts : List (Timed Payload))
  | producers (ps : List (Timed Producer))

def Feed.turns : Feed → List Turn
  | blocks bs => bs.map fun b => ⟨some b.now, .ok (.block b.item)⟩
  | tables ts => ts.map fun t => ⟨some t.now, t.item.met⟩
  | producers ps => ps.map fun p => ⟨some p.now, p.item.met⟩

/-- What is met by one who waits for `n` receipts. -/
def awaited : Nat → List Receipt → List Receipt
  | 0, _ => []
  | _ + 1, [] => [.closed]
  | n + 1, r :: rs => r :: awaited n rs

theorem awaited_length (rs : List Receipt) : awaited rs.length rs = rs := by
  induction rs with
  | nil => rfl
  | cons r rs ih => exact congrArg (r :: ·) ih

theorem exists_awaited_append_cons {before : List Receipt} {n : Nat} (r : Receipt)
    (rest : List Receipt) (hn : before.length < n) :
    ∃ after, awaited n (before ++ r :: rest) = before ++ r :: after := by
  induction before generalizing n with
  | nil =>
    obtain ⟨n, rfl⟩ := Nat.exists_eq_succ_of_ne_zero (Nat.ne_of_gt hn)
    exact ⟨awaited n rest, rfl⟩
  | cons r' before ih =>
    obtain ⟨n, rfl⟩ := Nat.exists_eq_succ_of_ne_zero (Nat.ne_of_gt (Nat.zero_lt_of_lt hn))
    obtain ⟨after, hafter⟩ := ih (Nat.lt_of_succ_lt_succ hn)
    exact ⟨after, congrArg (r' :: ·) hafter⟩

/-- What a run is set to do: to take in a feed, or to wait for the producers of a pool. -/
inductive Job where
  | feed (f : Feed)
  | receipts (expected : Nat) (rs : List Receipt)

def Job.turns : Job → List Turn
  | feed f => f.turns
  | receipts expected rs => (awaited expected rs).map Turn.ofReceipt

namespace Turn

/-- Whether the deadline has come when the clock is read. -/
def late (deadline : Option Nat) (t : Turn) : Bool := t.now?.any fun now => deadline.any (· ≤ now)

/-- The block that the turn brings. -/
def block? (t : Turn) : Option Block :=
  match t.met with
  | .ok (.block b) => some b
  | _ => none

/-- Whether the deadline stops a run in the turn. -/
def expires (deadline : Option Nat) (t : Turn) : Bool :=
  t.late deadline || match t.met with
    | .ok .expired => true
    | _ => false

/-- Whether the turn brings a block in time. -/
def folds (deadline : Option Nat) (t : Turn) : Bool := !t.late deadline && t.block?.isSome

/-- The blocks that come in time before anything else does. -/
def folded (deadline : Option Nat) (ts : List Turn) : List Block :=
  (ts.takeWhile (folds deadline)).filterMap block?

/-- The turns from the first that brings no block in time. -/
def rest (deadline : Option Nat) (ts : List Turn) : List Turn := ts.dropWhile (folds deadline)

variable {deadline : Option Nat} {before after : List Turn}

@[simp] theorem late_ofReceipt (r : Receipt) : (ofReceipt r).late deadline = false := rfl

@[simp] theorem block?_ofReceipt (b : Block) : (ofReceipt (.block b)).block? = some b := rfl

theorem folds_iff {t : Turn} :
    t.folds deadline ↔ t.late deadline = false ∧ ∃ b, t.block? = some b := by
  rw [folds, Bool.and_eq_true, Bool.not_eq_true', Option.isSome_iff_exists]

theorem folded_append (hall : before.all (folds deadline)) :
    folded deadline (before ++ after) = before.filterMap block? ++ folded deadline after := by
  rw [folded, List.takeWhile_append_of_pos fun t => List.all_eq_true.mp hall t,
    List.filterMap_append, folded]

theorem folded_eq (hall : before.all (folds deadline)) :
    folded deadline before = before.filterMap block? := by
  have happend : folded deadline (before ++ []) = before.filterMap block? ++ [] :=
    folded_append hall
  rwa [List.append_nil, List.append_nil] at happend

theorem folded_append_cons (hall : before.all (folds deadline)) {t : Turn}
    (ht : t.folds deadline = false) :
    folded deadline (before ++ t :: after) = before.filterMap block? := by
  rw [folded_append hall, folded, List.takeWhile_cons_of_neg (by simp [ht])]
  exact List.append_nil _

theorem rest_append_cons (hall : before.all (folds deadline)) {t : Turn}
    (ht : t.folds deadline = false) : rest deadline (before ++ t :: after) = t :: after := by
  rw [rest, List.dropWhile_append_of_pos fun t => List.all_eq_true.mp hall t,
    List.dropWhile_cons_of_neg (by simp [ht])]

theorem expires_iff {t : Turn} :
    t.expires deadline ↔ t.late deadline = true ∨ t.met = .ok .expired := by
  obtain ⟨now?, h | b | e | _ | _⟩ := t <;> simp [expires]

theorem folds_eq_false_of_expires {t : Turn} (h : t.expires deadline) :
    t.folds deadline = false := by
  obtain ⟨now?, h | b | e | _ | _⟩ := t <;> simp_all [expires, folds, block?]

theorem map_block?_blocks (bs : List (Timed Block)) :
    (Feed.blocks bs).turns.map block? = (bs.map (·.item)).map some := by
  simp [Feed.turns, block?]

theorem all_folds_of_map_block? {ts : List Turn} {bs : List Block}
    (h : ts.map block? = bs.map some) :
    ts.all (folds none) ∧ ts.filterMap block? = bs := by
  constructor
  · have hsome : (ts.map block?).all Option.isSome := by simp [h]
    simpa [folds, late, Function.comp_def] using hsome
  · calc ts.filterMap block? = (ts.map block?).filterMap id := by
          rw [List.filterMap_map, Function.id_comp]
      _ = (bs.map some).filterMap id := by rw [h]
      _ = bs := by rw [List.filterMap_map, Function.id_comp, List.filterMap_some]

end Turn

/-! ## Merges of a combiner -/

namespace Combiner

/-- What a combiner does to a target to merge a block into it. -/
def action (c : Combiner) (source : Block) : Block.Action :=
  match c with
  | firstRows k => .mergeUnordered source k
  | bestRows _ k => .mergeOrdered source k

theorem perform_action (c : Combiner) (t source : Block) :
    t.perform (c.action source) =
      (((c.merge source).run.run t).1.map some, ((c.merge source).run.run t).2) := by
  cases c <;> rfl

theorem merge_eq_error {c : Combiner} {t t' source : Block} {e : MergeError}
    (h : (c.merge source).run.run t = (.error e, t')) :
    (∃ left right, e = .schemaMismatch left right) ∨ ∃ what, e = .strategyMismatch what := by
  have hperform : (t.perform (c.action source)).1 = .error e := by
    rw [perform_action, h]
    rfl
  exact Block.refusal?_cases (Block.perform_eq_of_error hperform).1

end Combiner

namespace Run

/-- What a run does with what it meets. -/
def take (c : Combiner) : Except Halt Receipt → Run Unit
  | .ok r => meet c r
  | .error h => throw h

/-- Reads the clock if there is a reading. -/
def glance (deadline : Option Nat) : Option Nat → Run Unit
  | some now => check deadline now
  | none => pure ()

def turn (c : Combiner) (deadline : Option Nat) (t : Turn) : Run Unit := do
  glance deadline t.now?
  take c t.met

def turns (c : Combiner) (deadline : Option Nat) (ts : List Turn) : Run Unit :=
  ts.forM (turn c deadline)

variable {c : Combiner} {deadline : Option Nat}

theorem forM_eq_turns {α : Type} {step : α → Run Unit} {f : α → Turn}
    (h : ∀ a, step a = turn c deadline (f a)) (l : List α) :
    l.forM step = turns c deadline (l.map f) := by
  induction l with
  | nil => rfl
  | cons a l ih =>
    show (step a >>= fun _ => l.forM step) =
      turn c deadline (f a) >>= fun _ => turns c deadline (l.map f)
    rw [h a, ih]

theorem blocks_eq_turns (bs : List (Timed Block)) :
    blocks c deadline bs = turns c deadline (Feed.blocks bs).turns := by
  refine forM_eq_turns (fun b => ?_) bs
  rfl

theorem tables_eq_turns (ts : List (Timed Payload)) :
    tables c deadline ts = turns c deadline (Feed.tables ts).turns := by
  refine forM_eq_turns (fun t => ?_) ts
  simp only [turn, Payload.met, decoded]
  rcases t.item.toBlock with (e | ⟨index, length⟩) | b <;> rfl

theorem producers_eq_turns (ps : List (Timed Producer)) :
    producers c deadline ps = turns c deadline (Feed.producers ps).turns := by
  refine forM_eq_turns (fun p => ?_) ps
  simp only [turn]
  cases p.item <;> rfl

theorem receipts_eq_turns (c : Combiner) (deadline : Option Nat) (n : Nat) (rs : List Receipt) :
    receipts c n rs = turns c deadline ((awaited n rs).map Turn.ofReceipt) := by
  fun_induction awaited n rs with
  | case1 rs => rfl
  | case2 n => exact (bind_pure_unit (m := Run) (x := meet c .closed)).symm
  | case3 n r rs ih =>
    rw [receipts, ih]
    rfl

/-! ## One turn -/

variable {p p' : Progress} {t : Turn} {h : Halt} {b : Block}

theorem run_turn (c : Combiner) (deadline : Option Nat) (t : Turn) (p : Progress) :
    (turn c deadline t).run.run p =
      if t.late deadline then expire.run.run { p with now := t.now?.getD p.now }
      else (take c t.met).run.run { p with now := t.now?.getD p.now } := by
  obtain ⟨_ | now, met⟩ := t
  · rfl
  · simp only [turn, glance, check, run_bind, run_modify, Turn.late, Option.any_some,
      Option.getD_some]
    by_cases hlate : deadline.any (· ≤ now)
    · simp only [hlate, if_true]
      rfl
    · simp only [hlate, Bool.false_eq_true, if_false, run_pure]

theorem run_turn_of_block (hlate : t.late deadline = false) (hb : t.block? = some b)
    (p : Progress) : (turn c deadline t).run.run p =
      (offer c b).run.run { p with now := t.now?.getD p.now } := by
  rw [run_turn, hlate, if_neg Bool.false_ne_true]
  obtain ⟨now?, h | b' | e | _ | _⟩ := t
  case ok.block =>
    obtain rfl := Option.some.inj hb
    rfl
  all_goals cases hb

theorem turn_eq_ok_iff : (turn c deadline t).run.run p = (.ok (), p') ↔ t.late deadline = false ∧
    ∃ b, t.block? = some b ∧
      (offer c b).run.run { p with now := t.now?.getD p.now } = (.ok (), p') := by
  constructor
  · intro hrun
    rw [run_turn] at hrun
    cases hlate : t.late deadline with
    | true =>
      rw [hlate, if_pos rfl] at hrun
      cases hrun
    | false =>
      rw [hlate, if_neg Bool.false_ne_true] at hrun
      obtain ⟨now?, h | b | e | _ | _⟩ := t
      case ok.block => exact ⟨rfl, b, rfl, hrun⟩
      all_goals cases hrun
  · rintro ⟨hlate, b, hb, hoffer⟩
    rw [run_turn_of_block hlate hb, hoffer]

theorem folds_of_turn_eq_ok (h : (turn c deadline t).run.run p = (.ok (), p')) :
    t.folds deadline := by
  obtain ⟨hlate, b, hb, -⟩ := turn_eq_ok_iff.mp h
  exact Turn.folds_iff.mpr ⟨hlate, b, hb⟩

/-! ## Turn after turn -/

variable {ts us before after : List Turn}

theorem run_turns_cons (t : Turn) (ts : List Turn) (p : Progress) :
    (turns c deadline (t :: ts)).run.run p =
      match (turn c deadline t).run.run p with
      | (.ok _, p) => (turns c deadline ts).run.run p
      | (.error h, p) => (.error h, p) := by
  have hcons : turns c deadline (t :: ts) =
      turn c deadline t >>= fun _ => turns c deadline ts := rfl
  rw [hcons, run_bind]
  rcases (turn c deadline t).run.run p with ⟨_ | _, _⟩ <;> rfl

theorem run_turns_append (ts us : List Turn) (p : Progress) :
    (turns c deadline (ts ++ us)).run.run p =
      match (turns c deadline ts).run.run p with
      | (.ok _, p) => (turns c deadline us).run.run p
      | (.error h, p) => (.error h, p) := by
  induction ts generalizing p with
  | nil => rfl
  | cons t ts ih =>
    rw [List.cons_append, run_turns_cons, run_turns_cons]
    rcases (turn c deadline t).run.run p with ⟨_ | _, q⟩
    · rfl
    · exact ih q

theorem run_turns_singleton (t : Turn) (p : Progress) :
    (turns c deadline [t]).run.run p = (turn c deadline t).run.run p := by
  rw [run_turns_cons]
  rcases (turn c deadline t).run.run p with ⟨_ | _, _⟩ <;> rfl

theorem exists_halting_turn (hrun : (turns c deadline ts).run.run p = (.error h, p')) :
    ∃ before t after q, ts = before ++ t :: after ∧
      (turns c deadline before).run.run p = (.ok (), q) ∧
      (turn c deadline t).run.run q = (.error h, p') := by
  induction ts generalizing p with
  | nil => cases hrun
  | cons t ts ih =>
    rw [run_turns_cons] at hrun
    rcases hturn : (turn c deadline t).run.run p with ⟨e | u, q⟩
    · rw [hturn] at hrun
      obtain ⟨he, rfl⟩ := Prod.mk.inj hrun
      obtain rfl := Except.error.inj he
      exact ⟨[], t, ts, p, rfl, rfl, hturn⟩
    · rw [hturn] at hrun
      obtain ⟨before, t', after, q', rfl, hbefore, ht'⟩ := ih hrun
      refine ⟨t :: before, t', after, q', rfl, ?_, ht'⟩
      rw [run_turns_cons, hturn]
      exact hbefore

theorem run_turns_of_halt {q : Progress} (after : List Turn)
    (hbefore : (turns c deadline before).run.run p = (.ok (), q))
    (ht : (turn c deadline t).run.run q = (.error h, p')) :
    (turns c deadline (before ++ t :: after)).run.run p = (.error h, p') := by
  rw [run_turns_append, hbefore]
  simp only [run_turns_cons, ht]

theorem run_turns_concat (ts : List Turn) (t : Turn) (p : Progress) :
    (turns c deadline (ts ++ [t])).run.run p =
      match (turns c deadline ts).run.run p with
      | (.ok _, p) => (turn c deadline t).run.run p
      | (.error h, p) => (.error h, p) := by
  rw [run_turns_append]
  rcases (turns c deadline ts).run.run p with ⟨_ | _, q⟩
  · rfl
  · exact run_turns_singleton t q

/-- What holds before a run and is kept by every turn that it passes holds after the turns that it
passes, of the blocks that they brought. -/
theorem turns_induction {P : List Block → Progress → Prop}
    (hrun : (turns c deadline ts).run.run p = (.ok (), p')) (hp : P [] p)
    (hread : ∀ bs q now, P bs q → P bs { q with now })
    (hoffer : ∀ bs b q q', P bs q → b ∈ ts.filterMap Turn.block? →
      (offer c b).run.run q = (.ok (), q') → P (bs ++ [b]) q') :
    P (ts.filterMap Turn.block?) p' := by
  induction ts using List.reverseRecOn generalizing p' with
  | nil =>
    cases hrun
    exact hp
  | append_singleton ts t ih =>
    rw [run_turns_concat] at hrun
    rcases hbefore : (turns c deadline ts).run.run p with ⟨e | u, q⟩
    · rw [hbefore] at hrun
      cases hrun
    · rw [hbefore] at hrun
      obtain ⟨-, b, hb, hdone⟩ := turn_eq_ok_iff.mp hrun
      have hblocks : (ts ++ [t]).filterMap Turn.block? = ts.filterMap Turn.block? ++ [b] := by
        simp [hb]
      rw [hblocks] at hoffer ⊢
      have hq := ih hbefore fun bs b' q q' hq hb' =>
        hoffer bs b' q q' hq (List.mem_append_left _ hb')
      exact hoffer _ b _ _ (hread _ _ _ hq) (by simp) hdone

/-- What relates two runs and is kept whenever they fold blocks that correspond, with one result,
relates them after turns that bring such blocks in time. -/
theorem turns_relate {P : Progress → Progress → Prop} {M : Block → Block → Prop}
    {deadline' : Option Nat} {q : Progress}
    (hread : ∀ p q now now', P p q → P { p with now } { q with now := now' })
    (hoffer : ∀ p q b b', P p q → M b b' →
      ((offer c b).run.run p).1 = ((offer c b').run.run q).1 ∧
        P ((offer c b).run.run p).2 ((offer c b').run.run q).2)
    (hts : ts.all (Turn.folds deadline)) (hus : us.all (Turn.folds deadline'))
    (hblocks : List.Forall₂ M (ts.filterMap Turn.block?) (us.filterMap Turn.block?)) (hp : P p q) :
    ((turns c deadline ts).run.run p).1 = ((turns c deadline' us).run.run q).1 ∧
      P ((turns c deadline ts).run.run p).2 ((turns c deadline' us).run.run q).2 := by
  -- the blocks of both lists correspond one by one, so neither run has turns left over
  induction ts generalizing us p q with
  | nil =>
    cases us with
    | nil => exact ⟨rfl, hp⟩
    | cons u us =>
      rw [List.all_cons, Bool.and_eq_true] at hus
      obtain ⟨-, b', hb'⟩ := Turn.folds_iff.mp hus.1
      rw [List.filterMap_cons_some hb'] at hblocks
      cases hblocks
  | cons t ts ih =>
    rw [List.all_cons, Bool.and_eq_true] at hts
    obtain ⟨hlate, b, hb⟩ := Turn.folds_iff.mp hts.1
    rw [List.filterMap_cons_some hb] at hblocks
    cases us with
    | nil => cases hblocks
    | cons u us =>
      rw [List.all_cons, Bool.and_eq_true] at hus
      obtain ⟨hlate', b', hb'⟩ := Turn.folds_iff.mp hus.1
      rw [List.filterMap_cons_some hb'] at hblocks
      obtain ⟨hbb', hrest⟩ := List.forall₂_cons.mp hblocks
      obtain ⟨hresult, hafter⟩ :=
        hoffer _ _ b b' (hread p q (t.now?.getD p.now) (u.now?.getD q.now) hp) hbb'
      simp only [run_turns_cons, run_turn_of_block hlate hb, run_turn_of_block hlate' hb']
      rcases hp : (offer c b).run.run { p with now := t.now?.getD p.now } with ⟨result, p'⟩
      rcases hq : (offer c b').run.run { q with now := u.now?.getD q.now } with ⟨result', q'⟩
      rw [hp, hq] at hresult hafter
      obtain rfl : result = result' := hresult
      cases result with
      | error e => exact ⟨rfl, hafter⟩
      | ok u => exact ih hts.2 hus.2 hrest hafter

theorem all_folds_of_turns (hrun : (turns c deadline ts).run.run p = (.ok (), p')) :
    ts.all (Turn.folds deadline) := by
  induction ts generalizing p with
  | nil => rfl
  | cons t ts ih =>
    rw [run_turns_cons] at hrun
    rcases hturn : (turn c deadline t).run.run p with ⟨e | u, q⟩
    · rw [hturn] at hrun
      cases hrun
    · rw [hturn] at hrun
      rw [List.all_cons, folds_of_turn_eq_ok hturn, ih hrun]
      rfl

/-! ## Folding a block -/

theorem offer_ne_timeout {n : Nat} {collected : Option Block} :
    (offer c b).run.run p ≠ (.error (.failed (.timeout n collected)), p') := by
  intro hoffer
  cases hb : b.isEmpty with
  | true =>
    rw [offer_of_isEmpty hb] at hoffer
    cases hoffer
  | false =>
    rw [offer_of_not_isEmpty hb] at hoffer
    rcases hbase : p.base c b.schema with e | t
    · rw [hbase] at hoffer
      cases hoffer
      have hcreate := Progress.create_of_base_eq_error hbase
      rcases Combiner.create_eq_error hcreate with ⟨_, he⟩ | ⟨_, _, he⟩ <;> cases he
    · rw [hbase] at hoffer
      rcases hmerge : (c.merge b).run.run t with ⟨e | tally, t'⟩
      · simp only [hmerge] at hoffer
        cases hoffer
        rcases Combiner.merge_eq_error hmerge with ⟨_, _, he⟩ | ⟨_, he⟩ <;> cases he
      · simp only [hmerge] at hoffer
        cases hoffer

/-! ## Stopping at the deadline -/

theorem run_turn_of_expires (ht : t.expires deadline) (p : Progress) :
    (turn c deadline t).run.run p = (.error (.failed (.timeout p.merged p.target)),
      { p with now := t.now?.getD p.now }.stop) := by
  rw [run_turn]
  cases hlate : t.late deadline with
  | true => rfl
  | false =>
    obtain ⟨now?, h | b | e | _ | _⟩ := t
    case ok.expired => rfl
    all_goals simp [Turn.expires, hlate] at ht

theorem exists_run_turn_of_failed {e : MergeError} (hlate : t.late deadline = false)
    (hmet : t.met = .ok (.failed e)) (p : Progress) :
    ∃ p', (turn c deadline t).run.run p = (.error (.failed e), p') := by
  rw [run_turn, hlate, if_neg Bool.false_ne_true, hmet]
  exact ⟨_, rfl⟩

theorem turn_eq_timeout {n : Nat} {collected : Option Block}
    (hturn : (turn c deadline t).run.run p = (.error (.failed (.timeout n collected)), p')) :
    t.expires deadline = true ∨ t.late deadline = false ∧
      (t.met = .ok (.failed (.timeout n collected)) ∨
        t.met = .error (.failed (.timeout n collected))) := by
  rw [run_turn] at hturn
  cases hlate : t.late deadline with
  | true => exact .inl (by simp [Turn.expires, hlate])
  | false =>
    rw [hlate, if_neg Bool.false_ne_true] at hturn
    obtain ⟨now?, h | b | e | _ | _⟩ := t
    case ok.block => exact absurd hturn offer_ne_timeout
    case ok.expired => exact .inl (by simp [Turn.expires])
    all_goals
      cases hturn
    · exact .inr ⟨rfl, .inr rfl⟩
    · exact .inr ⟨rfl, .inl rfl⟩

theorem folds_eq_false_of_timeout {n : Nat} {collected : Option Block}
    (hturn : (turn c deadline t).run.run p = (.error (.failed (.timeout n collected)), p')) :
    t.folds deadline = false := by
  rcases turn_eq_timeout hturn with hexpires | ⟨-, hmet | hmet⟩
  · exact Turn.folds_eq_false_of_expires hexpires
  · simp [Turn.folds, Turn.block?, hmet]
  · simp [Turn.folds, Turn.block?, hmet]

end Run

/-! ## Runs that see the same blocks -/

namespace Progress

variable {c : Combiner} {p q : Progress}

/-- Whether two runs are in the same state but for the clock and the meter. -/
structure Alike (p q : Progress) : Prop where
  target : p.target = q.target
  fallback : p.fallback = q.fallback
  merged : p.merged = q.merged

theorem Alike.base_eq (h : p.Alike q) (s : Schema) : p.base c s = q.base c s := by
  rw [base, base, h.target]

theorem Alike.offer_with {R : Option Meter → Option Meter → Prop} (h : p.Alike q)
    (hR : R p.meter q.meter)
    (hrecord : ∀ p q tally, R p.meter q.meter → R (record tally p).meter (record tally q).meter)
    (b : Block) :
    ((Run.offer c b).run.run p).1 = ((Run.offer c b).run.run q).1 ∧
      ((Run.offer c b).run.run p).2.Alike ((Run.offer c b).run.run q).2 ∧
      R ((Run.offer c b).run.run p).2.meter ((Run.offer c b).run.run q).2.meter := by
  cases hb : b.isEmpty with
  | true =>
    rw [Run.offer_of_isEmpty hb, Run.offer_of_isEmpty hb, h.fallback]
    exact ⟨rfl, ⟨h.target, rfl, h.merged⟩, hR⟩
  | false =>
    rw [Run.offer_of_not_isEmpty hb, Run.offer_of_not_isEmpty hb, h.base_eq]
    rcases q.base c b.schema with e | t
    · exact ⟨rfl, h, hR⟩
    · simp only
      rcases (c.merge b).run.run t with ⟨e | tally, t'⟩
      · exact ⟨rfl, ⟨rfl, h.fallback, h.merged⟩, hR⟩
      · exact ⟨rfl, ⟨rfl, h.fallback, congrArg (· + 1) h.merged⟩, hrecord _ _ tally hR⟩

theorem Alike.offer (h : p.Alike q) (b : Block) :
    ((Run.offer c b).run.run p).1 = ((Run.offer c b).run.run q).1 ∧
      ((Run.offer c b).run.run p).2.Alike ((Run.offer c b).run.run q).2 := by
  obtain ⟨hresult, halike, -⟩ :=
    h.offer_with (R := fun _ _ => True) trivial (fun _ _ _ _ => trivial) b
  exact ⟨hresult, halike⟩

theorem Alike.at (h : p.Alike q) (now now' : Nat) :
    ({ p with now } : Progress).Alike { q with now := now' } := ⟨h.target, h.fallback, h.merged⟩

theorem Alike.turns {deadline : Option Nat} {ts : List Turn} {bs : List (Timed Block)}
    (h : p.Alike q) (hall : ts.all (Turn.folds deadline))
    (hblocks : bs.map (·.item) = ts.filterMap Turn.block?) :
    ((Run.turns c deadline ts).run.run p).1 = ((Run.blocks c none bs).run.run q).1 ∧
      ((Run.turns c deadline ts).run.run p).2.Alike ((Run.blocks c none bs).run.run q).2 := by
  rw [Run.blocks_eq_turns]
  obtain ⟨hin, hitems⟩ := Turn.all_folds_of_map_block? (Turn.map_block?_blocks bs)
  refine Run.turns_relate (M := Eq) (fun _ _ now now' h => h.at now now') ?_ hall hin ?_ h
  · rintro p q b b' h rfl
    exact h.offer b
  · rw [hitems, hblocks, List.forall₂_eq_eq_eq]

theorem merged_selection (p : Progress) : p.selection.merged = p.merged := by
  rw [selection]
  cases p.target <;> rfl

theorem Alike.selection_eq (h : p.Alike q) : p.selection = q.selection := by
  rw [selection, selection, h.target, h.fallback, h.merged]

end Progress

/-! ## Reducers -/

namespace Reducer

/-- The reducer without a deadline. -/
def untimed (r : Reducer) : Reducer := { r with settings := { r.settings with timeoutMs := none } }

/-- Does a job, in the way of the reducer that is meant for it. -/
def perform (r : Reducer) : Job → Outcome × Reducer
  | .feed (.blocks bs) => r.reduce bs
  | .feed (.tables ts) => r.reduceTables ts
  | .feed (.producers ps) => r.reduceProducers ps
  | .receipts expected rs => r.reduceReceipts expected rs

/-- The reducer after some jobs. -/
def performAll (r : Reducer) (jobs : List Job) : Reducer :=
  jobs.foldl (fun r job => (r.perform job).2) r

variable {r : Reducer}

theorem perform_eq_run (r : Reducer) (job : Job) : r.perform job =
    r.run (Run.turns r.combiner r.settings.timeoutMs job.turns) := by
  rcases job with (bs | ts | ps) | ⟨expected, rs⟩
  · exact congrArg r.run (Run.blocks_eq_turns bs)
  · exact congrArg r.run (Run.tables_eq_turns ts)
  · exact congrArg r.run (Run.producers_eq_turns ps)
  · exact congrArg r.run (Run.receipts_eq_turns r.combiner _ expected _)

theorem run_eq (r : Reducer) (fold : Run Unit) : r.run fold =
    match fold.run.run (.start r.meter) with
    | (.ok _, p) => (.ok p.selection, { r with meter := p.stop.meter })
    | (.error h, p) => (.error h, { r with meter := p.meter }) := by
  simp only [run, run_bind]
  rcases fold.run.run (.start r.meter) with ⟨_ | _, p⟩ <;> rfl

theorem run_turns_cases (r : Reducer) (deadline : Option Nat) (ts : List Turn) :
    (∃ p, (Run.turns r.combiner deadline ts).run.run (.start r.meter) = (.ok (), p) ∧
        r.run (Run.turns r.combiner deadline ts) =
          (.ok p.selection, { r with meter := p.stop.meter })) ∨
      ∃ before t after q h p, ts = before ++ t :: after ∧
        (Run.turns r.combiner deadline before).run.run (.start r.meter) = (.ok (), q) ∧
        (Run.turn r.combiner deadline t).run.run q = (.error h, p) ∧
        r.run (Run.turns r.combiner deadline ts) = (.error h, { r with meter := p.meter }) := by
  rw [run_eq]
  rcases hrun : (Run.turns r.combiner deadline ts).run.run (.start r.meter) with ⟨h | u, p⟩
  · obtain ⟨before, t, after, q, hts, hbefore, ht⟩ := Run.exists_halting_turn hrun
    exact .inr ⟨before, t, after, q, h, p, hts, hbefore, ht, rfl⟩
  · exact .inl ⟨p, rfl, rfl⟩

theorem untimed_eq (hdeadline : r.settings.timeoutMs = none) : r.untimed = r := by
  obtain ⟨c, ⟨nulls, mode, timeoutMs, metrics⟩, meter⟩ := r
  obtain rfl : timeoutMs = none := hdeadline
  rfl

/-- A run over blocks that come in time ends as a run without a deadline over these blocks. -/
theorem fst_run_turns_eq_reduce {deadline : Option Nat} {ts : List Turn} {bs : List (Timed Block)}
    (hall : ts.all (Turn.folds deadline)) (hblocks : bs.map (·.item) = ts.filterMap Turn.block?) :
    (r.run (Run.turns r.combiner deadline ts)).1 = (r.untimed.reduce bs).1 := by
  have hstart : (Progress.start r.meter).Alike (Progress.start r.meter) := ⟨rfl, rfl, rfl⟩
  obtain ⟨hresult, halike⟩ := hstart.turns (c := r.combiner) hall hblocks
  have hreduce : r.untimed.reduce bs = r.untimed.run (Run.blocks r.combiner none bs) := rfl
  have hmeter : r.untimed.meter = r.meter := rfl
  rw [hreduce, run_fst, run_fst, hmeter]
  rcases hp : (Run.turns r.combiner deadline ts).run.run (.start r.meter) with ⟨result, p⟩
  rcases hq : (Run.blocks r.combiner none bs).run.run (.start r.meter) with ⟨result', q⟩
  rw [hp, hq] at hresult halike
  obtain rfl : result = result' := hresult
  cases result with
  | error e => rfl
  | ok u => exact congrArg Except.ok halike.selection_eq

theorem reduce_untimed_of_turns {ts : List Turn} {q : Progress} {bs : List (Timed Block)}
    (hrun : (Run.turns r.combiner r.settings.timeoutMs ts).run.run (.start r.meter) = (.ok (), q))
    (hblocks : bs.map (·.item) = ts.filterMap Turn.block?) :
    (r.untimed.reduce bs).1 = .ok q.selection := by
  rw [← fst_run_turns_eq_reduce (Run.all_folds_of_turns hrun) hblocks, run_eq, hrun]

/-- Whether turns all bring blocks in time, and the blocks can be reduced. -/
def Passes (r : Reducer) (ts : List Turn) : Prop :=
  ts.all (Turn.folds r.settings.timeoutMs) ∧
    ∃ sel, (r.untimed.reduce ((ts.filterMap Turn.block?).map (Timed.mk 0))).1 = .ok sel

theorem passes_iff {ts : List Turn} : r.Passes ts ↔
    ∃ q, (Run.turns r.combiner r.settings.timeoutMs ts).run.run (.start r.meter) = (.ok (), q) := by
  have hitems : ((ts.filterMap Turn.block?).map (Timed.mk 0)).map (·.item) =
      ts.filterMap Turn.block? := by
    rw [List.map_map]
    exact List.map_id _
  constructor
  · rintro ⟨hall, sel, hsel⟩
    rw [← fst_run_turns_eq_reduce hall hitems, run_eq] at hsel
    rcases hrun : (Run.turns r.combiner r.settings.timeoutMs ts).run.run (.start r.meter) with
      ⟨h | u, q⟩
    · rw [hrun] at hsel
      cases hsel
    · exact ⟨q, rfl⟩
  · rintro ⟨q, hrun⟩
    exact ⟨Run.all_folds_of_turns hrun, _, reduce_untimed_of_turns hrun hitems⟩

end Reducer

end SelectMerge

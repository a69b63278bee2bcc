import SelectMerge.Proofs.Run.Turns

/-!
# Runs that meet their deadline

A run that takes in a feed looks at the clock before each input. If the deadline has come it stops
there, whatever the inputs from there on are, and hands over what it holds: nothing if no block
before had rows, and otherwise the rows that a run without a deadline makes of the blocks before,
under their schema.

`StopsAt` says at which input a run stops: it gets to look at it (`Reaches`), and the deadline has
come. A run ends as of a deadline only so, or because a producer hands it such an error of its own
(`stopsAt_or_forwards`); `exists_perform_of_stopsAt` tells what it hands over, and
`stops_at_deadline` has both directions.
-/

namespace SelectMerge

/-- The blocks that the first inputs of a feed bring. -/
def Feed.brought (f : Feed) (i : Nat) : List Block := (f.turns.take i).filterMap Turn.block?

namespace Reducer

/-- Whether a run over a feed gets to look at its input at an index: all earlier ones bring blocks
in time, and the blocks can be reduced. -/
def Reaches (r : Reducer) (f : Feed) (i : Nat) : Prop :=
  (f.turns.take i).all (Turn.folds r.settings.timeoutMs) ∧
    ∃ sel, (r.untimed.reduce ((f.brought i).map (Timed.mk 0))).1 = .ok sel

/-- Whether a run over a feed finds that the deadline has come before the input at an index. -/
def StopsAt (r : Reducer) (f : Feed) (i : Nat) : Prop :=
  r.Reaches f i ∧ ∃ t, f.turns[i]? = some t ∧ t.late r.settings.timeoutMs

/-- Whether a producer fails in time with an error that tells of a deadline, its own. -/
def Forwards (r : Reducer) (f : Feed) (i : Nat) : Prop :=
  r.Reaches f i ∧ ∃ ps p n collected, f = .producers ps ∧ ps[i]? = some p ∧
    InTime r.settings.timeoutMs p.now ∧ p.item = .fails (.timeout n collected)

variable {r : Reducer} {f : Feed} {i : Nat}

theorem reaches_iff : r.Reaches f i ↔
    ∃ q, (Run.turns r.combiner r.settings.timeoutMs (f.turns.take i)).run.run (.start r.meter) =
      (.ok (), q) := passes_iff

end Reducer

/-! ## Blocks merged -/

namespace Progress

theorem merged_turns {c : Combiner} {deadline : Option Nat} {ts : List Turn} {meter : Option Meter}
    {q : Progress} (hrun : (Run.turns c deadline ts).run.run (.start meter) = (.ok (), q)) :
    q.merged = (nonempty (ts.filterMap Turn.block?)).length ∧
      (q.target = none ↔ q.merged = 0) := by
  refine Run.turns_induction (P := fun seen p =>
    p.merged = (nonempty seen).length ∧ (p.target = none ↔ p.merged = 0)) hrun
    ⟨rfl, by simp [start]⟩ (fun _ _ _ hq => hq) ?_
  rintro bs b q q' ⟨hmerged, hnone⟩ - hoffer
  cases hempty : b.isEmpty with
  | true =>
    rw [Run.offer_of_isEmpty hempty] at hoffer
    cases hoffer
    rw [nonempty_concat_of_isEmpty hempty]
    exact ⟨hmerged, hnone⟩
  | false =>
    obtain ⟨t, tally, t', -, -, rfl⟩ := Run.offer_eq_ok hempty hoffer
    rw [nonempty_concat hempty, List.length_append, ← hmerged]
    exact ⟨rfl, by simp [record]⟩

end Progress

/-! ## Where a run stops -/

namespace Feed

variable {f : Feed} {i : Nat} {t : Turn} {n : Nat} {collected : Option Block}

theorem met_ne_expired (ht : t ∈ f.turns) : t.met ≠ .ok .expired := by
  rcases f with bs | ts | ps
  · obtain ⟨b, -, rfl⟩ := List.mem_map.mp ht
    simp
  · obtain ⟨b, -, rfl⟩ := List.mem_map.mp ht
    simp only [Payload.met]
    split <;> simp
  · obtain ⟨p, -, rfl⟩ := List.mem_map.mp ht
    cases p.item <;> simp [Producer.met]

theorem exists_producer (ht : f.turns[i]? = some t)
    (hmet : t.met = .ok (.failed (.timeout n collected)) ∨
      t.met = .error (.failed (.timeout n collected))) :
    ∃ ps p, f = .producers ps ∧ ps[i]? = some p ∧ t.now? = some p.now ∧
      p.item = .fails (.timeout n collected) := by
  rcases f with bs | ts | ps
  · rw [turns, List.getElem?_map, Option.map_eq_some_iff] at ht
    obtain ⟨b, -, rfl⟩ := ht
    simp at hmet
  · rw [turns, List.getElem?_map, Option.map_eq_some_iff] at ht
    obtain ⟨b, -, rfl⟩ := ht
    simp only [Payload.met] at hmet
    split at hmet <;> simp at hmet
  · rw [turns, List.getElem?_map, Option.map_eq_some_iff] at ht
    obtain ⟨p, hp, rfl⟩ := ht
    refine ⟨ps, p, rfl, hp, rfl, ?_⟩
    cases hitem : p.item <;> simp_all [Producer.met]

end Feed

namespace Reducer

variable {r : Reducer} {f : Feed} {i : Nat} {t : Turn} {q p : Progress} {h : Halt}

theorem perform_feed (r : Reducer) (f : Feed) : r.perform (.feed f) =
    r.run (Run.turns r.combiner r.settings.timeoutMs f.turns) := r.perform_eq_run (.feed f)

theorem perform_feed_of_halt (hget : f.turns[i]? = some t)
    (hbefore : (Run.turns r.combiner r.settings.timeoutMs (f.turns.take i)).run.run
      (.start r.meter) = (.ok (), q))
    (ht : (Run.turn r.combiner r.settings.timeoutMs t).run.run q = (.error h, p)) :
    r.perform (.feed f) = (.error h, { r with meter := p.meter }) := by
  obtain ⟨hlt, rfl⟩ := List.getElem?_eq_some_iff.mp hget
  have hsplit : f.turns = f.turns.take i ++ f.turns[i] :: f.turns.drop (i + 1) := by
    rw [← List.drop_eq_getElem_cons, List.take_append_drop]
  rw [perform_feed, run_eq]
  rw [hsplit, Run.run_turns_of_halt _ hbefore ht]

/-- A run that stops at an input hands over what it holds, whatever that input and the later ones
are. -/
theorem exists_perform_of_stopsAt (hstops : r.StopsAt f i) : ∃ q p : Progress,
    (Run.turns r.combiner r.settings.timeoutMs (f.turns.take i)).run.run (.start r.meter) =
        (.ok (), q) ∧
      ∀ f' : Feed, f'.turns.take i = f.turns.take i →
        (f'.turns[i]?).map (·.now?) = (f.turns[i]?).map (·.now?) →
        r.perform (.feed f') =
          (.error (.failed (.timeout q.merged q.target)), { r with meter := p.meter }) := by
  obtain ⟨hreaches, t, hget, hlate⟩ := hstops
  obtain ⟨q, hq⟩ := reaches_iff.mp hreaches
  refine ⟨q, { q with now := t.now?.getD q.now }.stop, hq, fun f' htake hnow => ?_⟩
  rw [hget, Option.map_some, Option.map_eq_some_iff] at hnow
  obtain ⟨t', hget', hnow⟩ := hnow
  have hexpires : t'.expires r.settings.timeoutMs := by
    rw [Turn.expires, Turn.late, hnow]
    exact Bool.or_eq_true_iff.mpr (.inl hlate)
  have ht' := Run.run_turn_of_expires (c := r.combiner) hexpires q
  rw [hnow] at ht'
  rw [← htake] at hq
  exact perform_feed_of_halt hget' hq ht'

theorem perform_of_forwards (hforwards : r.Forwards f i) :
    ∃ n collected, (r.perform (.feed f)).1 = .error (.failed (.timeout n collected)) := by
  obtain ⟨hreaches, ps, p, n, collected, rfl, hget, htime, hitem⟩ := hforwards
  obtain ⟨q, hq⟩ := reaches_iff.mp hreaches
  have hget' : (Feed.producers ps).turns[i]? = some ⟨some p.now, p.item.met⟩ := by
    rw [Feed.turns, List.getElem?_map, hget, Option.map_some]
  have hlate : Turn.late r.settings.timeoutMs ⟨some p.now, p.item.met⟩ = false :=
    htime.any_eq_false
  have hmet : p.item.met = .ok (.failed (.timeout n collected)) := by rw [hitem, Producer.met]
  obtain ⟨q', ht⟩ := Run.exists_run_turn_of_failed (c := r.combiner) hlate hmet q
  exact ⟨n, collected, congrArg Prod.fst (perform_feed_of_halt hget' hq ht)⟩

/-- A run ends as of a deadline only if it finds that its own has come, or is handed such an
error. -/
theorem stopsAt_or_forwards {n : Nat} {collected : Option Block}
    (herror : (r.perform (.feed f)).1 = .error (.failed (.timeout n collected))) :
    (∃ i, r.StopsAt f i) ∨ ∃ i, r.Forwards f i := by
  rw [perform_feed] at herror
  rcases r.run_turns_cases r.settings.timeoutMs f.turns with
    ⟨p, -, hrun⟩ | ⟨before, t, after, q, h, p, hts, hbefore, ht, hrun⟩
  · rw [hrun] at herror
    cases herror
  · rw [hrun] at herror
    obtain rfl := Except.error.inj herror
    have htake : f.turns.take before.length = before := by rw [hts, List.take_left]
    have hget : f.turns[before.length]? = some t := by
      rw [hts, List.getElem?_append_right (Nat.le_refl _), Nat.sub_self, List.getElem?_cons_zero]
    have hreaches : r.Reaches f before.length := reaches_iff.mpr ⟨q, htake.symm ▸ hbefore⟩
    rcases Run.turn_eq_timeout ht with hexpires | ⟨hlate, hmet⟩
    · refine .inl ⟨before.length, hreaches, t, hget, ?_⟩
      have hmem : t ∈ f.turns := List.mem_of_getElem? hget
      exact (Turn.expires_iff.mp hexpires).resolve_right (Feed.met_ne_expired hmem)
    · obtain ⟨ps, p', rfl, hget', hnow, hitem⟩ := Feed.exists_producer hget hmet
      rw [Turn.late, hnow, Option.any_some] at hlate
      exact .inr ⟨before.length, hreaches, ps, p', n, collected, rfl, hget',
        inTime_of_any_eq_false hlate, hitem⟩

/-- A run over a feed ends as of a deadline exactly if it finds that the deadline has come, with all
earlier inputs folded in time, or if a producer hands it such an error of its own. In the first case
it tells how many blocks with rows it merged, and hands over nothing if there were none, and else
what a run without a deadline makes of the blocks before. The input at which it stops and those
behind it play no part: whatever they are, the run and its meter end alike. -/
theorem stops_at_deadline (r : Reducer) (f : Feed) :
    ((∃ n collected, (r.perform (.feed f)).1 = .error (.failed (.timeout n collected))) ↔
      (∃ i, r.StopsAt f i) ∨ ∃ i, r.Forwards f i) ∧
    ∀ i, r.StopsAt f i → ∃ sel collected,
      (r.perform (.feed f)).1 = .error (.failed (.timeout sel.merged collected)) ∧
      (∀ bs : List (Timed Block), bs.map (·.item) = f.brought i →
        (r.untimed.reduce bs).1 = .ok sel) ∧
      sel.merged = (nonempty (f.brought i)).length ∧ (collected = none ↔ sel.merged = 0) ∧
      (∀ b ∈ collected, b.schema = sel.schema ∧ b.output = sel.rows) ∧
      ∀ f' : Feed, f'.turns.take i = f.turns.take i →
        (f'.turns[i]?).map (·.now?) = (f.turns[i]?).map (·.now?) →
        r.perform (.feed f') = r.perform (.feed f) := by
  constructor
  · constructor
    · rintro ⟨n, collected, herror⟩
      exact stopsAt_or_forwards herror
    · rintro (⟨i, hstops⟩ | ⟨i, hforwards⟩)
      · obtain ⟨q, p, -, hperform⟩ := exists_perform_of_stopsAt hstops
        exact ⟨_, _, congrArg Prod.fst (hperform f rfl rfl)⟩
      · exact perform_of_forwards hforwards
  · intro i hstops
    obtain ⟨q, p, hq, hperform⟩ := exists_perform_of_stopsAt hstops
    obtain ⟨hmerged, hnone⟩ := Progress.merged_turns hq
    have hselection := q.merged_selection
    refine ⟨q.selection, q.target, ?_, ?_, ?_, ?_, ?_, ?_⟩
    · rw [hperform f rfl rfl, hselection]
    · exact fun bs hbs => reduce_untimed_of_turns hq hbs
    · rw [hselection, hmerged, Feed.brought]
    · rw [hselection, hnone]
    · intro b hb
      rw [Progress.selection, Option.mem_def.mp hb]
      exact ⟨rfl, rfl⟩
    · intro f' htake hnow
      rw [hperform f' htake hnow, hperform f rfl rfl]

/-! ### Slow segments -/

/-- A reducer that has five milliseconds for the first two players. -/
def promptReducer : Reducer :=
  .ofCombiner (.firstRows 2) { Settings.sequential with timeoutMs := some 5 }

/-- The deadline comes before a producer that would crash. -/
def slowSegments : Feed :=
  .producers [⟨0, .returns (.ofRows .placeholder [])⟩, ⟨1, .returns juniors⟩, ⟨5, .crashes⟩,
    ⟨7, .returns seniors⟩]

/-- A run hands over the two players that it has when its deadline comes, as it does if the late
producers do something else. -/
theorem stops_at_deadline_segments : promptReducer.StopsAt slowSegments 2 ∧
    ∃ b, (promptReducer.perform (.feed slowSegments)).1 = .error (.failed (.timeout 1 (some b))) ∧
      b.schema = juniors.schema ∧ b.output = juniors.output.take 2 ∧
      promptReducer.perform (.feed (.blocks [⟨0, .ofRows .placeholder []⟩, ⟨1, juniors⟩,
        ⟨5, seniors⟩])) = promptReducer.perform (.feed slowSegments) := by
  have hstops : promptReducer.StopsAt slowSegments 2 := ⟨⟨rfl, _, rfl⟩, _, rfl, rfl⟩
  obtain ⟨sel, collected, hperform, hreduce, hmerged, hnone, hcollected, hsame⟩ :=
    (stops_at_deadline promptReducer slowSegments).2 2 hstops
  have hsel : ⟨juniors.schema, juniors.output.take 2, 1⟩ = sel :=
    Except.ok.inj ((hreduce [⟨0, .ofRows .placeholder []⟩, ⟨0, juniors⟩] rfl).symm.trans rfl).symm
  subst hsel
  cases collected with
  | none => cases hnone.mp rfl
  | some b =>
    obtain ⟨hschema, houtput⟩ := hcollected b rfl
    exact ⟨hstops, b, hperform, hschema, houtput, hsame _ rfl rfl⟩

end Reducer

end SelectMerge

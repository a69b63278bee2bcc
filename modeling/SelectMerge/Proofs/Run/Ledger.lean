import SelectMerge.Proofs.Block.Stock
import SelectMerge.Proofs.Run.Reduction

/-!
# Runs by their ledgers

A `Ledger` notes what a run has seen: all rows in the order of arrival, the cover of their schemas
and the first schema that an empty block lends. It has no heap and lets go of no row; which rows are
kept is worked out at the end (`keep`). While the order of the combiner is consistent on all rows, a
run and its ledger end alike, in a selection or in an error, and also when the deadline stops them
(`reduce_eq_run`).

`Posts` relates a run to its ledger. Every block keeps it or ends both (`Posts.offer`,
`Posts.blocks`), and what a combiner keeps of some rows can stand for them, whatever follows or came
before (`keep_keep_append`, `keep_append_keep`), also group by group (`keep_flatMap`).
-/

namespace SelectMerge

/-! ## Settled errors -/

/-- The error, with the rows that it carries along listed in output order. -/
def MergeError.settle : MergeError → MergeError
  | .timeout merged collected => .timeout merged (collected.map Block.settle)
  | e => e

/-- What a run halted on, with the rows that it carries along listed in output order. -/
def Halt.settle : Halt → Halt
  | .failed e => .failed e.settle
  | .crashed => .crashed

/-! ## Ledgers -/

namespace Combiner

/-- The rows that a combiner keeps of some rows, as it lists them. -/
def keep (c : Combiner) (rows : List Row) : List Row := (c.arrange rows).take c.bound

variable {c : Combiner} {rows xs ys : List Row}

theorem Consistent.mono (h : c.Consistent rows) (hsub : xs ⊆ rows) : c.Consistent xs :=
  fun o ho => (h o ho).mono fun _ hr => hsub hr

theorem keep_subset (c : Combiner) (rows : List Row) : c.keep rows ⊆ rows :=
  fun _ hr => (c.arrange_perm rows).subset (List.mem_of_mem_take hr)

theorem length_keep (c : Combiner) (rows : List Row) :
    (c.keep rows).length = min c.bound rows.length := by
  rw [keep, List.length_take, (c.arrange_perm rows).length_eq]

theorem keep_keep_append (hcons : c.Consistent (xs ++ ys)) :
    c.keep (c.keep xs ++ ys) = c.keep (xs ++ ys) := by
  cases c with
  | firstRows k =>
    show (xs.take k ++ ys).take k = (xs ++ ys).take k
    rw [List.take_append, List.take_append, List.take_take, Nat.min_self, List.length_take]
    congr 2
    omega
  | bestRows o k =>
    exact best_append_best (hcons o rfl) (fun r hr => List.mem_append_left _ hr)
      (fun r hr => List.mem_append_right _ hr) k

theorem keep_append_keep (hcons : c.Consistent ys) :
    c.keep (xs ++ c.keep ys) = c.keep (xs ++ ys) := by
  cases c with
  | firstRows k =>
    show (xs ++ ys.take k).take k = (xs ++ ys).take k
    rw [List.take_append, List.take_append, List.take_take, Nat.min_eq_left (Nat.sub_le k _)]
  | bestRows o k => exact best_append_best_right (hcons o rfl) (fun _ hr => hr) (Nat.le_refl k) xs

/-- Rows that are kept group by group are those that are kept of all. -/
theorem keep_flatMap {α : Type} (f : α → List Row) {l : List α}
    (hcons : c.Consistent (l.flatMap f)) :
    c.keep (l.flatMap fun a => c.keep (f a)) = c.keep (l.flatMap f) := by
  induction l with
  | nil => rfl
  | cons a l ih =>
    rw [List.flatMap_cons] at hcons
    have hrest : c.Consistent (l.flatMap f) := hcons.mono (List.subset_append_right _ _)
    have hkept : (l.flatMap fun a => c.keep (f a)) ⊆ l.flatMap f := by
      intro r hr
      obtain ⟨b, hb, hr⟩ := List.mem_flatMap.mp hr
      exact List.mem_flatMap.mpr ⟨b, hb, c.keep_subset (f b) hr⟩
    have hall : (f a ++ l.flatMap fun a => c.keep (f a)) ⊆ f a ++ l.flatMap f :=
      List.append_subset.mpr
        ⟨List.subset_append_left _ _, List.subset_append_of_subset_right _ hkept⟩
    rw [List.flatMap_cons, List.flatMap_cons]
    calc c.keep (c.keep (f a) ++ l.flatMap fun a => c.keep (f a))
        = c.keep (f a ++ l.flatMap fun a => c.keep (f a)) :=
          keep_keep_append (hcons.mono hall)
      _ = c.keep (f a ++ c.keep (l.flatMap fun a => c.keep (f a))) :=
          (keep_append_keep (hrest.mono hkept)).symm
      _ = c.keep (f a ++ c.keep (l.flatMap f)) := by rw [ih hrest]
      _ = c.keep (f a ++ l.flatMap f) := keep_append_keep hrest

/-- A settled target with some rows. -/
def settled (c : Combiner) (schema : Schema) (rows : List Row) : Block :=
  match c with
  | firstRows _ => .ofRows schema rows
  | bestRows o _ => ⟨schema, .settled o rows⟩

end Combiner

/-- What a run has seen: the cover of the schemas of blocks with rows, these rows, the first schema
that an empty block lends, and the number of blocks with rows. -/
structure Ledger where
  schema : Option Schema
  rows : List Row
  fallback : Option Schema
  merged : Nat

namespace Ledger

def empty : Ledger := ⟨none, [], none, 0⟩

/-- The schema of the target for blocks of a schema. -/
def base (c : Combiner) (s : Schema) (l : Ledger) : Except MergeError Schema :=
  match l.schema with
  | some u => .ok u
  | none => (c.create s).map (·.schema)

/-- The ledger with one more block noted. -/
def enter (c : Combiner) (b : Block) (l : Ledger) : Except MergeError Ledger :=
  if b.isEmpty then .ok { l with fallback := l.fallback.or b.lent? }
  else do
    let u ← (← l.base c b.schema).cover b.schema
    return ⟨some u, l.rows ++ b.output, l.fallback, l.merged + 1⟩

def selection (c : Combiner) (l : Ledger) : Selection :=
  ⟨l.schema.getD (l.fallback.getD .placeholder), c.keep l.rows, l.merged⟩

/-- What a run hands over when its deadline stops it. -/
def collected (c : Combiner) (l : Ledger) : Option Block :=
  l.schema.map fun u => c.settled u (c.keep l.rows)

/-- The end of a run over some blocks. -/
def run (c : Combiner) (deadline : Option Nat) : List (Timed Block) → Ledger → Outcome
  | [], l => .ok (l.selection c)
  | b :: bs, l =>
    if deadline.any (· ≤ b.now) then .error (.failed (.timeout l.merged (l.collected c)))
    else
      match l.enter c b.item with
      | .ok l => run c deadline bs l
      | .error e => .error (.failed e)

variable {c : Combiner} {l l' : Ledger} {b : Block}

theorem enter_of_isEmpty (hb : b.isEmpty) :
    l.enter c b = .ok { l with fallback := l.fallback.or b.lent? } := if_pos hb

theorem enter_of_not_isEmpty (hb : b.isEmpty = false) : l.enter c b =
    (l.base c b.schema).bind fun u => (u.cover b.schema).map fun v =>
      ⟨some v, l.rows ++ b.output, l.fallback, l.merged + 1⟩ := by
  rw [enter, if_neg (by simp [hb])]
  cases l.base c b.schema with
  | error e => rfl
  | ok u =>
    show (u.cover b.schema).bind _ = (u.cover b.schema).map _
    cases u.cover b.schema <;> rfl

theorem rows_of_enter (h : l.enter c b = .ok l') : l'.rows = l.rows ++ b.output := by
  cases hb : b.isEmpty with
  | true =>
    rw [enter_of_isEmpty hb] at h
    obtain rfl := Except.ok.inj h
    rw [Block.output_eq_nil hb, List.append_nil]
  | false =>
    rw [enter_of_not_isEmpty hb] at h
    obtain ⟨u, -, h⟩ := bind_eq_ok_iff.mp h
    obtain ⟨v, -, rfl⟩ := map_eq_ok_iff.mp h
    rfl

end Ledger

/-! ## Targets -/

namespace Combiner

variable {c : Combiner} {rows : List Row} {t source : Block} {s : Schema} {e : MergeError}

theorem create_eq_error (h : c.create s = .error e) :
    (∃ name, e = .unknownColumn name) ∨ ∃ column type, e = .unorderableColumn column type := by
  cases c with
  | firstRows k => cases h
  | bestRows o k =>
    cases hvalid : o.validate s with
    | ok u =>
      rw [create, hvalid] at h
      cases h
    | error e' =>
      rw [create, hvalid] at h
      obtain rfl := Except.error.inj h
      obtain ⟨key, -, hkey⟩ := exists_of_forM_eq_error hvalid
      split at hkey
      · split at hkey
        · cases hkey
        · exact .inr ⟨_, _, (Except.error.inj hkey).symm⟩
      · exact .inl ⟨_, (Except.error.inj hkey).symm⟩

theorem settle_of_create_error (h : c.create s = .error e) : e.settle = e := by
  rcases create_eq_error h with ⟨name, rfl⟩ | ⟨column, type, rfl⟩ <;> rfl

theorem Combined.settle_eq (hc : c.Consistent rows) (h : c.Combined rows t) :
    t.settle = c.settled t.schema (c.keep rows) := by
  have hout : t.output = c.keep rows := h.output hc
  rw [← hout]
  cases c with
  | firstRows k =>
    obtain ⟨schema, rows'⟩ := t
    obtain rfl : rows' = _ := h
    rfl
  | bestRows o k =>
    obtain ⟨schema, rows'⟩ := t
    obtain ⟨s, rfl, -, -⟩ := h
    rfl

theorem Combined.merge_of_not_isCompatible (h : c.Combined rows t)
    (hcompat : ¬ t.schema.isCompatible source.schema) :
    (c.merge source).run.run t =
      (.error (.schemaMismatch t.schema.text source.schema.text), t) := by
  cases c with
  | firstRows k =>
    refine Block.mergeUnordered_of_not_isCompatible ?_ hcompat k
    rw [Block.isOrdered, Block.order?, show t.rows = _ from h]
    exact Bool.false_ne_true
  | bestRows o k =>
    obtain ⟨s, hrows, -, -⟩ := h
    refine Block.mergeOrdered_of_not_isCompatible ?_ hcompat k
    rw [Block.isOrdered, Block.order?, hrows]
    rfl

end Combiner

/-! ## Runs -/

namespace Progress

variable {c : Combiner} {l : Ledger} {p : Progress} {b : Block}

/-- Whether a run has seen what its ledger notes. -/
structure Posts (c : Combiner) (l : Ledger) (p : Progress) : Prop where
  fallback : p.fallback = l.fallback
  merged : p.merged = l.merged
  schema : p.target.map (·.schema) = l.schema
  rows : ∀ t, p.target = some t → c.Combined l.rows t
  none : p.target = none → l.rows = []

theorem Posts.selection_eq (h : p.Posts c l) (hcons : c.Consistent l.rows) :
    p.selection = l.selection c := by
  rw [selection, Ledger.selection, ← h.schema, ← h.fallback, ← h.merged]
  cases hp : p.target with
  | none =>
    have hnil : c.arrange [] = [] := List.perm_nil.mp (c.arrange_perm [])
    simp [h.none hp, Combiner.keep, hnil]
  | some t =>
    have hout : t.output = c.keep l.rows := (h.rows t hp).output hcons
    simp [hout]

theorem Posts.collected_eq (h : p.Posts c l) (hcons : c.Consistent l.rows) :
    p.target.map Block.settle = l.collected c := by
  rw [Ledger.collected, ← h.schema]
  cases hp : p.target with
  | none => rfl
  | some t => exact congrArg some ((h.rows t hp).settle_eq hcons)

theorem Posts.skip (h : p.Posts c l) (hb : b.isEmpty) :
    ∃ p', (Run.offer c b).run.run p = (.ok (), p') ∧
      p'.Posts c { l with fallback := l.fallback.or b.lent? } := by
  refine ⟨_, Run.offer_of_isEmpty hb p, ?_, h.merged, h.schema, h.rows, h.none⟩
  rw [← h.fallback]

theorem Posts.target (h : p.Posts c l) (s : Schema) :
    (∃ t, l.base c s = .ok t.schema ∧ p.base c s = .ok t ∧ c.Combined l.rows t) ∨
      ∃ e, l.base c s = .error e ∧ e.settle = e ∧ p.base c s = .error e := by
  rw [Ledger.base, ← h.schema]
  cases hp : p.target with
  | some t => exact .inl ⟨t, rfl, base_of_some hp, h.rows t hp⟩
  | none =>
    rw [base_of_none hp]
    cases hcreate : c.create s with
    | error e =>
      exact .inr ⟨e, rfl, Combiner.settle_of_create_error hcreate, rfl⟩
    | ok t =>
      refine .inl ⟨t, rfl, rfl, ?_⟩
      rw [h.none hp]
      exact (Combiner.combined_of_create hcreate).2

theorem Posts.offer (h : p.Posts c l) (hb : b.isEmpty = false)
    (hcons : c.Consistent (l.rows ++ b.output)) :
    (∃ l' p', l.enter c b = .ok l' ∧ (Run.offer c b).run.run p = (.ok (), p') ∧ p'.Posts c l') ∨
      ∃ e p', l.enter c b = .error e ∧ e.settle = e ∧
        (Run.offer c b).run.run p = (.error (.failed e), p') := by
  rw [Ledger.enter_of_not_isEmpty hb, Run.offer_of_not_isEmpty hb]
  rcases h.target b.schema with ⟨t, hbase, htarget, hcombined⟩ | ⟨e, hbase, he, htarget⟩
  · simp only [hbase, htarget, Except.bind]
    by_cases hcompat : t.schema.isCompatible b.schema
    · obtain ⟨u, hcov⟩ := Schema.exists_cover? hcompat
      obtain ⟨tally, t', hmerge, rfl, hcombined'⟩ := hcombined.merge hcons hcompat hcov
      simp only [hmerge, Schema.cover_eq_ok_iff.mpr hcov]
      refine .inl ⟨_, _, rfl, rfl, h.fallback, congrArg (· + 1) h.merged, rfl, ?_, ?_⟩
      · intro t'' ht''
        obtain rfl := Option.some.inj ht''
        exact hcombined'
      · intro ht''
        cases ht''
    · simp only [hcombined.merge_of_not_isCompatible hcompat,
        Schema.cover_of_not_isCompatible hcompat]
      exact .inr ⟨_, _, rfl, rfl, rfl⟩
  · simp only [hbase, htarget]
    exact .inr ⟨e, p, rfl, he, rfl⟩

theorem Posts.blocks (h : p.Posts c l) (deadline : Option Nat) {bs : List (Timed Block)}
    (hcons : c.Consistent (l.rows ++ bs.flatMap (·.item.output))) :
    (∃ p', (Run.blocks c deadline bs).run.run p = (.ok (), p') ∧
        Ledger.run c deadline bs l = .ok p'.selection) ∨
      ∃ e p', (Run.blocks c deadline bs).run.run p = (.error e, p') ∧
        Ledger.run c deadline bs l = .error e.settle := by
  have hseen : c.Consistent l.rows := fun o ho => (hcons o ho).append_left
  induction bs generalizing p l with
  | nil => exact .inl ⟨p, rfl, congrArg Except.ok (h.selection_eq hseen).symm⟩
  | cons b bs ih =>
    have hclock : ({ p with now := b.now } : Progress).Posts c l :=
      ⟨h.fallback, h.merged, h.schema, h.rows, h.none⟩
    simp only [Run.run_blocks_cons, Ledger.run]
    by_cases hlate : deadline.any (· ≤ b.now)
    · simp only [hlate, if_true, Run.expire, run_bind, run_modify, run_get, Run.fail, run_throw]
      refine .inr ⟨_, _, rfl, ?_⟩
      rw [← h.collected_eq hseen, ← h.merged]
      rfl
    · simp only [hlate, Bool.false_eq_true, if_false]
      cases hb : b.item.isEmpty with
      | true =>
        obtain ⟨p', hoffer, hp'⟩ := hclock.skip hb
        rw [List.flatMap_cons, Block.output_eq_nil hb, List.nil_append] at hcons
        simp only [hoffer, Ledger.enter_of_isEmpty hb]
        exact ih hp' hcons hseen
      | false =>
        rw [List.flatMap_cons, ← List.append_assoc] at hcons
        have hwith : c.Consistent (l.rows ++ b.item.output) := fun o ho => (hcons o ho).append_left
        rcases hclock.offer hb hwith with
          ⟨l', p', henter, hoffer, hp'⟩ | ⟨e, p', henter, he, hoffer⟩
        · simp only [henter, hoffer]
          rw [← Ledger.rows_of_enter henter] at hcons hwith
          exact ih hp' hcons hwith
        · simp only [henter, hoffer]
          refine .inr ⟨_, _, rfl, ?_⟩
          rw [Halt.settle, he]

end Progress

namespace Reducer

variable {r : Reducer} {bs : List (Timed Block)}

/-- A reduction ends as its ledger does. -/
theorem reduce_eq_run (hcons : r.combiner.Consistent (bs.flatMap (·.item.output))) :
    (r.reduce bs).1.mapError Halt.settle =
      Ledger.run r.combiner r.settings.timeoutMs bs .empty := by
  have hstart : (Progress.start r.meter).Posts r.combiner .empty :=
    ⟨rfl, rfl, rfl, by simp [Progress.start], fun _ => rfl⟩
  rw [reduce, run_fst]
  have hblocks := hstart.blocks r.settings.timeoutMs hcons
  rcases hblocks with ⟨p, hp, hrun⟩ | ⟨e, p, hp, hrun⟩
  · rw [hp, hrun]
    rfl
  · rw [hp, hrun]
    rfl

end Reducer

end SelectMerge

import SelectMerge.Block.Combiner
import SelectMerge.Run.Meter
import SelectMerge.Wire.Payload

/-!
# Runs in progress

A `Run` folds blocks into one target and counts as it goes (`Progress`). Times are milliseconds
since the run began; each input carries the reading of the clock taken before it is looked at
(`Timed`), so a run is a function of its inputs. A run that meets its deadline stops and hands over
what it has merged (`Run.expire`).

`Run.offer` folds one block; an empty one only lends its schema to a result without rows. Over it
stand the folds of blocks (`Run.blocks`), encoded tables (`Run.tables`), producers one after another
(`Run.producers`) and what a coordinator receives (`Run.receipts`). The clock is read before each
input of the first three (`Run.check`), and before none of the last: its deadline comes as a
receipt. A run that completes ends in a `Selection`; a `Halt` is an error or a crash.
-/

namespace SelectMerge

/-- An input and the reading of the clock before it. -/
structure Timed (α : Type) where
  now : Nat
  item : α

/-- What becomes of the producer of a segment: it returns a block or an error, or it crashes. -/
inductive Producer where
  | returns (b : Block)
  | fails (e : MergeError)
  | crashes

/-- What a coordinator meets when it waits for the next block of a pool. -/
inductive Receipt where
  | block (b : Block)
  | failed (e : MergeError)
  | expired
  | closed

/-- Why a run has no result: an error, or a crash that took it down. -/
inductive Halt where
  | failed (e : MergeError)
  | crashed

/-- The state of a run. -/
structure Progress where
  target : Option Block
  fallback : Option Schema
  merged : Nat
  meter : Option Meter
  now : Nat

/-- The rows of a finished run under their common schema, before any cast. -/
structure Selection where
  schema : Schema
  rows : List Row
  merged : Nat

/-- A run that may halt; its state is seen either way. -/
abbrev Run := ExceptT Halt (StateM Progress)

namespace Progress

/-- A run that has just begun; its meter counts from zero. -/
def start (meter : Option Meter) : Progress :=
  ⟨none, none, 0, meter.map fun m => m.reset.start 0, 0⟩

/-- The state with the end of the run recorded. -/
def stop (p : Progress) : Progress := { p with meter := p.meter.map (·.stop p.now) }

/-- The result: the target's rows, or no rows under the schema of the first empty block. -/
def selection (p : Progress) : Selection :=
  match p.target with
  | some b => ⟨b.schema, b.output, p.merged⟩
  | none => ⟨p.fallback.getD .placeholder, [], p.merged⟩

/-- The state with one more merge counted. -/
def record (t : MergeTally) (p : Progress) : Progress :=
  { p with
    merged := p.merged + 1
    meter := p.meter.map fun m =>
      m.increment Meter.blocksMerged 1 |>.increment Meter.rowsMerged t.rowsIn
        |>.increment Meter.rowsDiscarded t.rowsDiscarded
        |>.increment Meter.schemaUpgrades t.schemaUpgraded.toNat }

end Progress

namespace Run

/-! ## Ends -/

def fail {α : Type} (e : MergeError) : Run α := throw (.failed e)

/-- The result of a step that may fail. -/
def ofExcept {α : Type} : Except MergeError α → Run α
  | .ok x => pure x
  | .error e => fail e

/-- Ends a run at its deadline. -/
def expire : Run Unit := do
  modify Progress.stop
  let p ← get
  fail (.timeout p.merged p.target)

/-- Ends a run for the failure of a segment. -/
def segmentFailed (e : MergeError) : Run Unit := do
  modify fun p => { p with meter := p.meter.map (·.increment Meter.segmentsFailed 1) }
  modify Progress.stop
  fail e

/-- Ends a run that has seen all its inputs. -/
def finish : Run Selection := do
  modify Progress.stop
  return (← get).selection

/-! ## Steps -/

/-- Reads the clock, and ends the run if the deadline has come. -/
def check (deadline : Option Nat) (now : Nat) : Run Unit := do
  modify fun p => { p with now }
  if deadline.any (· ≤ now) then expire

/-- The target, created for a schema if there is none yet. -/
def target (c : Combiner) (schema : Schema) : Run Block := do
  match (← get).target with
  | some b => return b
  | none => ofExcept (c.create schema)

/-- Folds a block. An empty one only lends its schema to a result without rows. -/
def offer (c : Combiner) (b : Block) : Run Unit := do
  if b.isEmpty then
    modify fun p =>
      if p.fallback.isNone && !b.schema.isPlaceholder then { p with fallback := some b.schema }
      else p
  else
    let t ← target c b.schema
    let (result, t) := (c.merge b).run.run t
    modify fun p => { p with target := some t }
    modify (Progress.record (← ofExcept result))

/-! ## Inputs -/

/-- Folds blocks in turn. -/
def blocks (c : Combiner) (deadline : Option Nat) (bs : List (Timed Block)) : Run Unit :=
  bs.forM fun b => do
    check deadline b.now
    offer c b.item

/-- The block of a table. -/
def decoded (t : Payload) : Run Block :=
  match t.toBlock with
  | .ok b => pure b
  | .error (.failed e) => fail (.decode e)
  | .error (.outside _ _) => throw .crashed

/-- Decodes and folds tables in turn. -/
def tables (c : Combiner) (deadline : Option Nat) (ts : List (Timed Payload)) : Run Unit :=
  ts.forM fun t => do
    check deadline t.now
    offer c (← decoded t.item)

/-- Runs producers one after another and folds what they return. -/
def producers (c : Combiner) (deadline : Option Nat) (ps : List (Timed Producer)) : Run Unit :=
  ps.forM fun p => do
    check deadline p.now
    match p.item with
    | .returns b => offer c b
    | .fails e => segmentFailed e
    | .crashes => throw .crashed

/-- The failure of a producer that never sent a block. -/
def lost : MergeError := .segment "segment producer exited without a block"

/-- What a coordinator does with what it meets. -/
def meet (c : Combiner) : Receipt → Run Unit
  | .block b => offer c b
  | .failed e => segmentFailed e
  | .expired => expire
  | .closed => segmentFailed lost

/-- Folds the blocks of `expected` producers as they arrive. Nothing more arrives once the producers
are done. -/
def receipts (c : Combiner) : Nat → List Receipt → Run Unit
  | 0, _ => pure ()
  | _ + 1, [] => meet c .closed
  | n + 1, r :: rs => do
    meet c r
    receipts c n rs

end Run

namespace Producer

/-- What arrives from producers that workers start in turn; `none` stands for one that outlasts the
deadline. Its worker starts no other, and waiting for it, or for producers that nobody can start,
ends at the deadline. A producer that crashes sends nothing. -/
def arrivals : Nat → Bool → List (Option Producer) → List Receipt
  | _, outlasted, [] => if outlasted then [.expired] else []
  | 0, _, _ :: _ => [.expired]
  | workers + 1, outlasted, p :: ps =>
    match p with
    | some (.returns b) => .block b :: arrivals (workers + 1) outlasted ps
    | some (.fails e) => .failed e :: arrivals (workers + 1) outlasted ps
    | some .crashes => arrivals (workers + 1) outlasted ps
    | none => arrivals workers true ps

end Producer

end SelectMerge

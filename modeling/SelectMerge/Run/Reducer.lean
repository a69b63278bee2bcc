import SelectMerge.Query.Order
import SelectMerge.Run.Progress
import SelectMerge.Run.Settings

/-!
# Reductions

A `Reducer` combines the blocks of one query under its settings, run after run; its meter describes
the latest run. `Reducer.run` runs any fold to its end. Blocks come as they are (`reduce`), as
encoded tables (`reduceTables`), from producers one after another (`reduceProducers`), or from a
pool (`reduceReceipts`, whatever its coordinator meets).

`reduceSegments` picks the way by the mode of the settings. There the schedule is fixed: segments
end in the order of the list but for those that outlast the deadline (`clocked`, `delivered`), and a
deadline of nothing comes before anything else.
-/

namespace SelectMerge

/-- A combiner, its settings, and the meter when runs are counted. -/
structure Reducer where
  combiner : Combiner
  settings : Settings
  meter : Option Meter

/-- The producer of a segment, and whether it outlasts the deadline. -/
structure SegmentTask where
  producer : Producer
  outlasts : Bool

/-- The producer, unless it outlasts the deadline. -/
def SegmentTask.inTime (t : SegmentTask) : Option Producer :=
  if t.outlasts then none else some t.producer

/-- The end of a run: a result, or what it halted on. -/
abbrev Outcome := Except Halt Selection

namespace Reducer

/-- A reducer that has not run yet. -/
def ofCombiner (c : Combiner) (s : Settings) : Reducer :=
  ⟨c, s, if s.collectMetrics then some .empty else none⟩

/-- The reducer of a query: the best rows when it has an order, else the first. -/
def ofQuery (q : Query) (e : Evaluation) (s : Settings) : Except MergeError Reducer := do
  if q.hasOrder then
    return ofCombiner (.bestRows (← RowOrder.ofQuery q e s.nulls) q.bound) s
  else return ofCombiner (.firstRows q.bound) s

/-- Runs a fold of inputs to its end. -/
def run (r : Reducer) (fold : Run Unit) : Outcome × Reducer :=
  let (result, p) := ((do fold; Run.finish) : Run Selection).run.run (.start r.meter)
  (result, { r with meter := p.meter })

/-- Reduces blocks. -/
def reduce (r : Reducer) (bs : List (Timed Block)) : Outcome × Reducer :=
  r.run (Run.blocks r.combiner r.settings.timeoutMs bs)

/-- Reduces encoded tables. -/
def reduceTables (r : Reducer) (ts : List (Timed Payload)) : Outcome × Reducer :=
  r.run (Run.tables r.combiner r.settings.timeoutMs ts)

/-- Reduces the blocks of producers that run one after another. -/
def reduceProducers (r : Reducer) (ps : List (Timed Producer)) : Outcome × Reducer :=
  r.run (Run.producers r.combiner r.settings.timeoutMs ps)

/-- Reduces what arrives from `expected` producers on a pool. -/
def reduceReceipts (r : Reducer) (expected : Nat) (rs : List Receipt) : Outcome × Reducer :=
  r.run (Run.receipts r.combiner expected rs)

/-- Producers one after another: once one has outlasted the deadline the others come late. -/
def clocked (deadline : Nat) (late : Bool) : List SegmentTask → List (Timed Producer)
  | [] => []
  | t :: ts =>
    ⟨if late then deadline else 0, t.producer⟩ :: clocked deadline (late || t.outlasts) ts

/-- What arrives from segments that a pool runs in their order. A deadline of nothing is taken to
pass before anything arrives. -/
def delivered (deadline : Option Nat) (workers : Nat) (ts : List SegmentTask) : List Receipt :=
  if deadline = some 0 then [.expired]
  else Producer.arrivals workers false (ts.map SegmentTask.inTime)

/-- Reduces the blocks of segments, in the mode of the settings. -/
def reduceSegments (r : Reducer) (processors : Nat) (ts : List SegmentTask) : Outcome × Reducer :=
  match r.settings.mode with
  | .sequential => r.reduceProducers (clocked (r.settings.timeoutMs.getD 0) false ts)
  | mode =>
    r.reduceReceipts ts.length (delivered r.settings.timeoutMs (mode.threads processors) ts)

/-- The reducer by its bound and settings. -/
def text (r : Reducer) : String :=
  "SelectionReducer \x7b max_num_rows: " ++ toString r.combiner.bound ++ ", config: " ++
    r.settings.text ++ ", .. \x7d"

end Reducer

end SelectMerge

import SelectMerge.Json.Print
import SelectMerge.Text.Quoted

/-!
# Metrics

A `Meter` counts what a run does and knows when it began and ended: `elapsed?` is the time between,
once both are known. Counters (`increment`) stop at `greatest` and entries are kept in the order of
their names (`alter`). Besides its counters a meter reports gauges and counts that callers register
(`Metric`); a registered metric hides a counter of its name. `reset` forgets the counters and the
times and keeps what is registered.
-/

namespace SelectMerge

/-- A metric that a caller registers. -/
inductive Metric where
  | count (name : String) (n : Nat)
  | gauge (name : String) (x : Binary64) (description : Option String)
deriving DecidableEq, Repr

namespace Metric

def name : Metric → String
  | count name _ => name
  | gauge name _ _ => name

/-- The reading; a gauge that is not finite has none. -/
def value : Metric → Json
  | count _ n => .int n
  | gauge _ x _ => if x.isFinite then .real x else .null

def description? : Metric → Option String
  | count _ _ => none
  | gauge _ _ description => description

def kind : Metric → String
  | count _ _ => "counter"
  | gauge _ _ _ => "gauge"

end Metric

/-- Counters by name, registered metrics by name, and the times when a run began and ended. -/
structure Meter where
  counters : List (String × Nat)
  registered : List (String × Metric)
  began : Option Nat
  ended : Option Nat
deriving DecidableEq, Repr

namespace Meter

/-- The names of the counters that runs keep. -/
def blocksMerged : String := "blocks_merged"
def rowsMerged : String := "rows_merged"
def rowsDiscarded : String := "rows_discarded"
def schemaUpgrades : String := "schema_upgrades"
def segmentsFailed : String := "segments_failed"

/-- The entry that reports the time between beginning and end. -/
def elapsedName : String := "elapsed_ms"

def elapsedDescription : String := "Wall time of the reduction in milliseconds"

/-- A counter never passes this. -/
def greatest : Nat := UInt64.size - 1

def empty : Meter := ⟨[], [], none, none⟩

/-! ## Recording -/

/-- Gives the entry of a name a value made from the one it had, keeping names in order. -/
def alter {α : Type} (name : String) (f : Option α → α) : List (String × α) → List (String × α)
  | [] => [(name, f none)]
  | (n, x) :: rest =>
    if name < n then (name, f none) :: (n, x) :: rest
    else if n = name then (name, f (some x)) :: rest
    else (n, x) :: alter name f rest

/-- Adds to a counter, which starts at zero. -/
def increment (name : String) (n : Nat) (m : Meter) : Meter :=
  { m with counters := alter name (fun old => min (old.getD 0 + n) greatest) m.counters }

def set (name : String) (n : Nat) (m : Meter) : Meter :=
  { m with counters := alter name (fun _ => n) m.counters }

/-- The value of a counter, zero if it was never touched. -/
def counter (m : Meter) (name : String) : Nat := (m.counters.lookup name).getD 0

/-- Registers a metric in place of the one of its name. -/
def register (x : Metric) (m : Meter) : Meter :=
  { m with registered := alter x.name (fun _ => x) m.registered }

/-- Forgets counters and times; registered metrics stay. -/
def reset (m : Meter) : Meter := { m with counters := [], began := none, ended := none }

def start (now : Nat) (m : Meter) : Meter := { m with began := some now, ended := none }

def stop (now : Nat) (m : Meter) : Meter := { m with ended := some now }

/-- The time between beginning and end, once both are known. -/
def elapsed? (m : Meter) : Option Nat :=
  match m.began, m.ended with
  | some b, some e => some (e - b)
  | _, _ => none

/-! ## Reports -/

/-- What is known of a metric: its value and description. -/
def entry (value : Json) (description : Option String) : Json :=
  match description with
  | none => .object [("value", value)]
  | some d => .object [("description", .text d), ("value", value)]

/-- All metrics by name. -/
def json (m : Meter) : Json :=
  let counters := m.counters.map fun (n, c) => (n, entry (.int c) none)
  let registered := m.registered.map fun (n, x) => (n, entry x.value x.description?)
  let time := m.elapsed?.toList.map fun (t : Nat) => (elapsedName, entry (.int t) elapsedDescription)
  .ofFields (counters ++ registered ++ time)

/-- The values of counters and registered metrics by name. -/
def snapshot (m : Meter) : Json :=
  .ofFields (m.counters.map (fun (n, c) => (n, .int c)) ++
    m.registered.map fun (n, x) => (n, x.value))

/-- The report as a file holds it. -/
def fileText (m : Meter) : String := m.json.printIndented

/-- Why a report could not be written to a file. -/
def unwritable (path : String) : String := "writing metrics to " ++ path

/-- The counters, by name. -/
def text (m : Meter) : String :=
  let counters := m.counters.map fun (n, c) => Text.quoted n ++ ": " ++ toString c
  "MetricsCollector \x7b counters: \x7b" ++ ", ".intercalate counters ++ "\x7d, .. \x7d"

end Meter

end SelectMerge

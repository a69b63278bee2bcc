import SelectMerge.Json.Print
import SelectMerge.Json.Typed
import SelectMerge.Rank.RowOrder

/-!
# Settings

How a reduction runs (`Settings`): where nulls go, whether segments run side by side (`RunMode`),
how long it may take and whether it counts what it does. Settings are read from JSON
(`Settings.ofText`), as a record or as the list of its fields; what is missing takes its default. A
member that is no setting is refused, except inside the mode, where it is skipped (`mode?`).
`validate` refuses a pool without workers.
-/

namespace SelectMerge

/-- How the producers of segments are run: one after another, or on a pool of workers. -/
inductive RunMode where
  | sequential
  | parallel (threads : Option Nat)
deriving DecidableEq, Repr

/-- The settings of a reduction. -/
structure Settings where
  nulls : NullOrder
  mode : RunMode
  timeoutMs : Option Nat
  collectMetrics : Bool
deriving DecidableEq, Repr

/-- Why settings could not be had. -/
inductive SettingsError where
  | malformed
  | noThreads
  | unreadable (path : String)
  | inFile (path : String) (cause : SettingsError)
deriving DecidableEq, Repr

namespace SettingsError

def message : SettingsError → String
  | malformed => "parsing merge config"
  | noThreads => "exec_mode.threads must be at least 1"
  | unreadable path => "reading merge config " ++ path
  | inFile path _ => "in " ++ path

end SettingsError

namespace RunMode

/-- The number of workers; a pool without a number has one for each processor. -/
def threads (processors : Nat) : RunMode → Nat
  | sequential => 1
  | parallel threads => threads.getD (max processors 1)

end RunMode

namespace Settings

/-! ## Construction -/

/-- Settings where nothing is said. -/
def standard : Settings := ⟨.last, .parallel none, none, true⟩

def sequential : Settings := { standard with mode := .sequential }

/-- The greatest number that a setting can hold. -/
def greatest : Nat := UInt64.size - 1

/-- With a deadline given in seconds and nanoseconds, cut to whole milliseconds. -/
def withTimeout (s : Settings) (seconds nanos : Nat) : Settings :=
  { s with timeoutMs := some (min (seconds * 1000 + nanos / 1000000) greatest) }

/-- Refuses a pool without workers. -/
def validate (s : Settings) : Except SettingsError Unit :=
  if s.mode = .parallel (some 0) then .error .noThreads else .ok ()

/-! ## Reading -/

/-- A count of 64 bits. -/
def count? (t : JsonTree) : Option Nat := do
  let n ← t.int?
  if 0 ≤ n ∧ n ≤ greatest then some n.toNat else none

/-- The name of the member that says which mode it is. -/
def modeMember : String := "mode"

/-- The name of the member that says how many workers there are. -/
def threadsMember : String := "threads"

/-- How deep the members of a mode may nest, two levels down. -/
def modeDepth : Nat := Json.depthLimit - 2

/-- A mode by its name and the values given for its threads. -/
def modeOf? (name : String) (threads : List JsonTree) : Option RunMode :=
  if name = "sequential" then some .sequential
  else if name = "parallel" then
    match threads with
    | [] => some (.parallel none)
    | [t] => (JsonTree.orNull? count? t).map .parallel
    | _ => none
  else none

/-- The mode: its name and, side by side with it, its own fields. -/
def mode? : JsonTree → Option RunMode
  | .object ms => do
    let ms ← ms.mapM fun (n, x) => n.map (·, x)
    let others := ms.filter fun m => m.1 != modeMember
    if others.any fun m => (m.2.doc? modeDepth).isNone then none
    match ms.filter fun m => m.1 == modeMember with
    | [(_, tag)] =>
      modeOf? (← tag.text?) ((others.filter fun m => m.1 == threadsMember).map (·.2))
    | _ => none
  | .list (tag :: rest) => do
    let name ← tag.text?
    if rest.any fun x => (x.doc? modeDepth).isNone then none
    if name = "sequential" ∧ rest ≠ [] then none
    modeOf? name rest
  | _ => none

/-- The names of the settings, in order. -/
def fieldNames : List String := ["null_ordering", "exec_mode", "timeout_ms", "collect_metrics"]

/-- A setting that is read where it is given. -/
def orDefault {α : Type} (default : α) (read : JsonTree → Option α) : Option JsonTree → Option α
  | none => some default
  | some t => read t

/-- The settings of a text as written. -/
def ofTree? (t : JsonTree) : Option Settings := do
  match ← t.record? .refuse fieldNames with
  | [nulls, mode, timeout, metrics] =>
    return ⟨← orDefault standard.nulls (fun t => t.variantName? >>= NullOrder.ofName?) nulls,
      ← orDefault standard.mode mode? mode,
      ← orDefault standard.timeoutMs (JsonTree.orNull? count?) timeout,
      ← orDefault standard.collectMetrics JsonTree.bool? metrics⟩
  | _ => none

/-- The settings that a text holds. -/
def ofText (cs : List Char) : Except SettingsError Settings :=
  match JsonTree.read? cs >>= ofTree? with
  | some s => s.validate.map fun _ => s
  | none => .error .malformed

/-- The settings of a file, given what could be read of it. -/
def ofFile (path : String) : Option (List Char) → Except SettingsError Settings
  | none => .error (.unreadable path)
  | some cs => (ofText cs).mapError (.inFile path)

/-! ## Writing -/

/-- A number or null. -/
def countJson : Option Nat → Json
  | some n => .int n
  | none => .null

def modeJson : RunMode → Json
  | .sequential => .object [(modeMember, .text "sequential")]
  | .parallel threads => .object [(modeMember, .text "parallel"), (threadsMember, countJson threads)]

/-- The settings as a document, the fields in their own order. -/
def json (s : Settings) : Json :=
  .object [("null_ordering", .text s.nulls.name), ("exec_mode", modeJson s.mode),
    ("timeout_ms", countJson s.timeoutMs), ("collect_metrics", .bool s.collectMetrics)]

/-! ## Display -/

/-- A count that may be missing. -/
def countText : Option Nat → String
  | some n => "Some(" ++ toString n ++ ")"
  | none => "None"

def modeText : RunMode → String
  | .sequential => "Sequential"
  | .parallel threads => "Parallel \x7b threads: " ++ countText threads ++ " \x7d"

/-- The settings by field. -/
def text (s : Settings) : String :=
  "MergeConfig \x7b null_ordering: " ++ (if s.nulls = .first then "NullsFirst" else "NullsLast") ++
    ", exec_mode: " ++ modeText s.mode ++ ", timeout_ms: " ++ countText s.timeoutMs ++
    ", collect_metrics: " ++ (if s.collectMetrics then "true" else "false") ++ " \x7d"

end Settings

end SelectMerge

import SelectMerge.Schema.Project

/-!
# Merging blocks

A source block is folded into a target block, by `mergeUnordered` or `mergeOrdered`. Both begin with
`reconcile`: the target's schema becomes the cover of both, and rows already in the target are not
recast. Without an order the target takes rows of the source while it has room (`append`); with one
every row of the source is offered to the target's selection (`select`), which is the open one under
a new bound (`rebound`) or that of a settled target taken up again (`reopen`).

`Merging` carries the target as its state, so a failed merge shows what it left. `MergeTally`
reports what was offered, kept and discarded, and whether the schema changed; a row may count as
kept and later, evicted by another, as discarded.
-/

namespace SelectMerge

/-- What one merge did. -/
structure MergeTally where
  rowsIn : Nat
  rowsKept : Nat
  rowsDiscarded : Nat
  schemaUpgraded : Bool
deriving DecidableEq, Repr

/-- An operation on a target block that may fail part of the way. -/
abbrev Merging := ExceptT MergeError (StateM Block)

namespace Merging

/-- Widens the target's schema to cover the source's, and tells whether it changed. -/
def reconcile (source : Schema) : Merging Bool := do
  let target := (← get).schema
  unless target.isCompatible source do throw (.schemaMismatch target.text source.text)
  let cover ← ExceptT.mk (pure (target.cover source))
  if cover = target then return false
  modify fun b => { b with schema := cover }
  return true

/-- Appends rows of the source until the target holds `bound`. -/
def append (source : Block) (bound : Nat) : Merging MergeTally := do
  match (← get).rows with
  | .arrived _ =>
    let upgraded ← reconcile source.schema
    let incoming := source.output
    let room := bound - (← get).length
    let kept := min room incoming.length
    modify fun b => { b with rows := .arrived (b.output ++ incoming.take kept) }
    return ⟨incoming.length, kept, incoming.length - kept, upgraded⟩
  | _ => throw (.strategyMismatch "unordered merge into an ordered block")

/-- The number of offers that discarded a row. -/
def discards (offers : List (Offer Row)) : Nat :=
  offers.countP fun
    | .inserted => false
    | _ => true

/-- The number of offers that turned the newcomer away. -/
def rejections (offers : List (Offer Row)) : Nat :=
  offers.countP fun
    | .rejected _ => true
    | _ => false

/-- The selection of a settled block, taken up again under a bound, and the rows that went. -/
def reopen (order : RowOrder) (rows : List Row) (bound : Nat) : Nat × TopK order.compare :=
  let (offers, best) := TopK.offerAll rows (.empty bound)
  (discards offers, best)

/-- The selection of an open block under a new bound, and the rows that went. -/
def rebound (order : RowOrder) (best : TopK order.compare) (bound : Nat) :
    Nat × TopK order.compare :=
  if best.capacity = bound then (0, best)
  else
    let (gone, best) := best.setCapacity bound
    (gone.length, best)

/-- Offers the source's rows to a selection that has just lost `gone` rows. -/
def offerRows (order : RowOrder) (gone : Nat) (best : TopK order.compare) (source : Block)
    (upgraded : Bool) : Merging MergeTally := do
  let incoming := source.output
  let (offers, best) := TopK.offerAll incoming best
  modify fun b => { b with rows := .ranked order best }
  return ⟨incoming.length, incoming.length - rejections offers, gone + discards offers, upgraded⟩

/-- Offers every row of the source to the target's selection, bounded anew. A settled target takes
its selection up again. -/
def select (source : Block) (bound : Nat) : Merging MergeTally := do
  match (← get).rows with
  | .arrived _ => throw (.strategyMismatch "ordered merge into a block without ordering")
  | .ranked order best =>
    let upgraded ← reconcile source.schema
    let (gone, best) := rebound order best bound
    offerRows order gone best source upgraded
  | .settled order rows =>
    let upgraded ← reconcile source.schema
    let (gone, best) := reopen order rows bound
    offerRows order gone best source upgraded

end Merging

namespace Block

/-- Folds a source into a target without order. -/
def mergeUnordered (target source : Block) (bound : Nat) :
    Except MergeError MergeTally × Block :=
  (Merging.append source bound).run.run target

/-- Folds a source into a target with an order. -/
def mergeOrdered (target source : Block) (bound : Nat) :
    Except MergeError MergeTally × Block :=
  (Merging.select source bound).run.run target

end Block

end SelectMerge

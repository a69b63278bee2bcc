import SelectMerge.Rank.RowOrder
import SelectMerge.Rank.TopK
import SelectMerge.Schema.Basic

/-!
# Blocks

A `Block` pairs a schema with rows made under it. Without an order its `BlockRows` stay as they
arrived; with one a bounded selection (`TopK`) keeps the best of them until the block is settled.

`Block.output` lists the rows in output order, whatever state they are in, and `Block.settle` turns
an open selection into that list. Blocks are made by `ofRows` (no order), `ordered` (no rows yet)
and `orderedOfRows` (the best rows of a segment that trims its own output). Only `output` is
observable: how a heap lies inside an open block is nobody's concern but `Rank/`'s.
-/

namespace SelectMerge

/-- The rows of a block. -/
inductive BlockRows where
  | arrived (rows : List Row)
  | ranked (order : RowOrder) (best : TopK order.compare)
  | settled (order : RowOrder) (rows : List Row)

/-- A schema and the rows made or collected under it. -/
structure Block where
  schema : Schema
  rows : BlockRows

namespace Block

/-- A block without an order. -/
def ofRows (schema : Schema) (rows : List Row) : Block := ⟨schema, .arrived rows⟩

/-- A block under an order, without rows yet, that keeps at most `bound`. -/
def ordered (schema : Schema) (order : RowOrder) (bound : Nat) : Block :=
  ⟨schema, .ranked order (.empty bound)⟩

/-- A block of the best `bound` of some rows, as a segment trims its own output. -/
def orderedOfRows (schema : Schema) (rows : List Row) (order : RowOrder) (bound : Nat) : Block :=
  ⟨schema, .ranked order (TopK.offerAll rows (.empty bound)).2⟩

def length (b : Block) : Nat :=
  match b.rows with
  | .arrived rows => rows.length
  | .ranked _ best => best.size
  | .settled _ rows => rows.length

def isEmpty (b : Block) : Bool := b.length == 0

/-- The order the block keeps, if any. -/
def order? (b : Block) : Option RowOrder :=
  match b.rows with
  | .arrived _ => none
  | .ranked order _ => some order
  | .settled order _ => some order

def isOrdered (b : Block) : Bool := b.order?.isSome

/-- The rows in output order. -/
def output (b : Block) : List Row :=
  match b.rows with
  | .arrived rows => rows
  | .ranked _ best => best.sorted
  | .settled _ rows => rows

/-- The block with its selection listed in output order. -/
def settle (b : Block) : Block :=
  match b.rows with
  | .ranked order best => ⟨b.schema, .settled order best.sorted⟩
  | _ => b

end Block

end SelectMerge

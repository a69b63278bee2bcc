import SelectMerge.Block.Merge

/-!
# Combiners

How the blocks of a query become one: a target is created for the first of them (`Combiner.create`),
the others are merged into it (`Combiner.merge`), and its rows are listed at the end. The combiner
of a query without an order, `firstRows`, keeps the first rows that arrive; that of a query with
one, `bestRows`, keeps the best. Creation is the only place where the order is checked against a
schema, and `Combiner.bound` is the bound that every merge is made under.
-/

namespace SelectMerge

/-- A way to combine blocks, keeping a bounded number of rows. -/
inductive Combiner where
  | firstRows (bound : Nat)
  | bestRows (order : RowOrder) (bound : Nat)
deriving DecidableEq, Repr

namespace Combiner

/-- The number of rows that every merge keeps at most. -/
def bound : Combiner → Nat
  | firstRows bound => bound
  | bestRows _ bound => bound

def order? : Combiner → Option RowOrder
  | firstRows _ => none
  | bestRows order _ => some order

/-- An empty target for blocks of a schema. -/
def create (c : Combiner) (schema : Schema) : Except MergeError Block :=
  match c with
  | firstRows _ => .ok (.ofRows schema [])
  | bestRows order bound => (order.validate schema).map fun _ => .ordered schema order bound

/-- Merges a block into the target. -/
def merge (c : Combiner) (source : Block) : Merging MergeTally :=
  match c with
  | firstRows bound => Merging.append source bound
  | bestRows _ bound => Merging.select source bound

end Combiner

end SelectMerge

import SelectMerge.Column.Cast

/-!
# Comparing cells

`Cell.compare` compares cells by what they mean: whole numbers and booleans exactly, a whole number
with a floating point one after rounding it to DOUBLE, text by code points, bytes and times in their
own order. Cells of unlike kinds follow the order of their types (`compareTypes`), and what cannot
be ordered ties.

Numbers are compared as a `Quantity`, whole or real; `Quantity.rank` is their place among the
doubles. That whole numbers are told apart where their ranks are not is why the comparison need not
be transitive.
-/

namespace SelectMerge

/-- A number as the comparison sees it. -/
inductive Quantity where
  | whole (n : Int)
  | real (x : Binary64)
deriving DecidableEq, Repr

namespace Quantity

/-- The place of a quantity among the doubles. -/
def rank : Quantity → Int
  | whole n => (Binary64.ofInt n).rank
  | real x => x.rank

/-- Whole numbers compare exactly, all others by rank. -/
def compare : Quantity → Quantity → Ordering
  | whole m, whole n => Ord.compare m n
  | a, b => Ord.compare a.rank b.rank

end Quantity

namespace Cell

/-- The number in a cell; a boolean counts as zero or one. -/
def quantity? : Cell → Option Quantity
  | one .int x => some (.whole (Int32.toInt x))
  | one .long x => some (.whole (Int64.toInt x))
  | one .boolean b => some (.whole (Scalar.boolInt b))
  | one .float x => some (.real (Binary32.widen x))
  | one .double x => some (.real x)
  | _ => none

/-- The order of two cells by their types. -/
def compareTypes (a b : Cell) : Ordering :=
  match a.type?, b.type? with
  | some s, some t => Ord.compare s.ordinal t.ordinal
  | _, _ => .eq

/-- The order of two cells that are not null. -/
def compare (a b : Cell) : Ordering :=
  match a.quantity?, b.quantity? with
  | some x, some y => x.compare y
  | _, _ =>
    match a, b with
    | one .string x, one .string y => List.compareLex Ord.compare (String.toList x) (String.toList y)
    | one .bytes x, one .bytes y => List.compareLex (α := UInt8) Ord.compare x y
    | one .timestamp x, one .timestamp y => Ord.compare (Int64.toInt x) (Int64.toInt y)
    | a, b => compareTypes a b

end Cell

end SelectMerge

import SelectMerge.Column.Compare

/-!
# Row orders

A `RowOrder` is a list of sort keys, the first that tells two rows apart deciding (`compareBy`). A
`SortKey` may list its column downwards; nulls go first or last whatever the direction
(`NullOrder.side`), and a column that a row does not have counts as null (`Row.cell`). Of two rows
the one that compares as `lt` is listed first.
-/

namespace SelectMerge

/-- Where nulls are listed. -/
inductive NullOrder where
  | first
  | last
deriving DecidableEq, Repr, Inhabited

namespace NullOrder

def all : List NullOrder := [.first, .last]

def name : NullOrder → String
  | first => "nulls_first"
  | last => "nulls_last"

def ofName? (s : String) : Option NullOrder := all.find? fun n => n.name == s

/-- How a null compares to a value. -/
def side : NullOrder → Ordering
  | first => .lt
  | last => .gt

end NullOrder

/-- A column to order by, and whether upwards. -/
structure SortKey where
  column : Nat
  ascending : Bool
deriving DecidableEq, Repr

/-- An order of rows; `lt` means listed first. -/
structure RowOrder where
  keys : List SortKey
  nulls : NullOrder
deriving DecidableEq, Repr

/-- The cell of a row in a column, null where there is none. -/
def Row.cell (r : Row) (column : Nat) : Cell := r.getD column .null

namespace SortKey

/-- The order of two cells under a key. -/
def compareCells (key : SortKey) (nulls : NullOrder) (a b : Cell) : Ordering :=
  match a.isNull, b.isNull with
  | true, true => .eq
  | true, false => nulls.side
  | false, true => nulls.side.swap
  | false, false => if key.ascending then a.compare b else (a.compare b).swap

/-- The order of two rows under one key. -/
def compare (key : SortKey) (nulls : NullOrder) (a b : Row) : Ordering :=
  key.compareCells nulls (a.cell key.column) (b.cell key.column)

end SortKey

namespace RowOrder

/-- The order of two rows under keys in turn. -/
def compareBy (nulls : NullOrder) : List SortKey → Row → Row → Ordering
  | [], _, _ => .eq
  | key :: keys, a, b => (key.compare nulls a b).then (compareBy nulls keys a b)

/-- The order of two rows. -/
def compare (o : RowOrder) (a b : Row) : Ordering := compareBy o.nulls o.keys a b

end RowOrder

end SelectMerge

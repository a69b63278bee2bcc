import SelectMerge.Column.SharedRow
import SelectMerge.Schema.Basic

/-!
# Checking rows

Checks for tests that reduce selections: lists of rows are equal (`equal`), are the very same rows
(`same`), or fit a schema exactly (`fit`). A check that fails tells where, by a `RowFault`.
-/

namespace SelectMerge

/-- Where a check of rows failed. -/
inductive RowFault where
  | count
  | differs (row : Nat)
  | notShared (row : Nat)
  | arity (row values : Nat) (schema : Schema)
  | type (row : Nat) (column : String) (expected found : ColumnType)
deriving DecidableEq, Repr

namespace RowFault

def message : RowFault → String
  | count => "row count mismatch:"
  | differs row => "row " ++ toString row ++ " differs:"
  | notShared row => "row " ++ toString row ++ " is not the expected shared row:"
  | arity row values schema =>
    "row " ++ toString row ++ " has " ++ toString values ++ " values for schema " ++ schema.text
  | type row column expected found =>
    "row " ++ toString row ++ " column " ++ column ++ ": expected " ++ expected.name ++
      ", found " ++ found.name

end RowFault

namespace RowCheck

/-- Checks pairs of items in turn, from row `i` on. -/
def pairs {α : Type} (agree : α → α → Bool) (fault : Nat → RowFault) :
    Nat → List α → List α → Except RowFault Unit
  | i, a :: as, b :: bs =>
    if agree a b then pairs agree fault (i + 1) as bs else .error (fault i)
  | _, _, _ => .ok ()

/-- Checks two lists of one length pair by pair. -/
def lists {α : Type} (agree : α → α → Bool) (fault : Nat → RowFault) (actual expected : List α) :
    Except RowFault Unit :=
  if actual.length = expected.length then pairs agree fault 0 actual expected else .error .count

/-- Checks that rows are equal in order and content. -/
def equal (actual expected : List Row) : Except RowFault Unit :=
  lists Row.same .differs actual expected

/-- Checks that rows are the same rows in order, none of them a copy. -/
def same (actual expected : List SharedRow) : Except RowFault Unit :=
  lists SharedRow.isSame .notShared actual expected

/-- Checks that a row has one cell a column, each null or of the column's type. -/
def fits (s : Schema) (i : Nat) (r : Row) : Except RowFault Unit :=
  if r.length ≠ s.length then .error (.arity i r.length s)
  else (s.columns.zip r).forM fun ((name, expected), c) =>
    match c.type? with
    | some found => if found = expected then .ok () else .error (.type i name expected found)
    | none => .ok ()

/-- Checks that all rows fit a schema. -/
def fit (rows : List Row) (s : Schema) : Except RowFault Unit :=
  rows.zipIdx.forM fun (r, i) => fits s i r

end RowCheck

end SelectMerge

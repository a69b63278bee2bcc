import SelectMerge.Column.Cell

/-!
# Casting cells

`Cell.cast?` casts a cell along the widening of its kind: booleans to zero or one, integers to wider
integers and to the nearest floating point word, FLOAT to DOUBLE exactly. It is `none` just where
the type of the cell does not widen to the other. `Scalar.conversion?` has the conversions of single
values. Arrays are cast element by element by `Scalar.elementConversion?`, which is the same but for
booleans: arrays of booleans stay as they are.
-/

namespace SelectMerge

namespace Scalar

/-- A boolean as an integer. -/
def boolInt (b : Bool) : Int := if b then 1 else 0

/-- The conversion of values of `s` to values of `t`, if there is one. -/
def conversion? : (s t : Scalar) → Option (s.Carrier → t.Carrier)
  | int, int => some fun x => x
  | int, long => some fun (x : Int32) => x.toInt64
  | int, float => some fun (x : Int32) => Binary32.ofInt x.toInt
  | int, double => some fun (x : Int32) => Binary64.ofInt x.toInt
  | long, long => some fun x => x
  | long, float => some fun (x : Int64) => Binary32.ofInt x.toInt
  | long, double => some fun (x : Int64) => Binary64.ofInt x.toInt
  | float, float => some fun x => x
  | float, double => some Binary32.widen
  | double, double => some fun x => x
  | boolean, boolean => some fun x => x
  | boolean, int => some fun (b : Bool) => Int32.ofInt (boolInt b)
  | boolean, long => some fun (b : Bool) => Int64.ofInt (boolInt b)
  | boolean, float => some fun (b : Bool) => Binary32.ofInt (boolInt b)
  | boolean, double => some fun (b : Bool) => Binary64.ofInt (boolInt b)
  | string, string => some fun x => x
  | bytes, bytes => some fun x => x
  | timestamp, timestamp => some fun x => x
  | object, object => some fun x => x
  | _, _ => none

/-- The conversion of array elements: that of single values, except that booleans do not become
numbers. -/
def elementConversion? (s t : Scalar) : Option (s.Carrier → t.Carrier) :=
  if s = .boolean ∧ t ≠ .boolean then none else conversion? s t

end Scalar

namespace Cell

/-- The cell as a cell of the type, if its own type widens to it; null stays null. -/
def cast? (t : ColumnType) : Cell → Option Cell
  | null => some null
  | one s x =>
    match t with
    | .one t => (s.conversion? t).map fun f => one t (f x)
    | .many _ => none
  | many s xs =>
    match t with
    | .many t => (s.elementConversion? t).map fun f => many t (xs.map f)
    | .one _ => none

end Cell

end SelectMerge

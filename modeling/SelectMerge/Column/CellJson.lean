import SelectMerge.Column.Cell
import SelectMerge.Json.Typed

/-!
# Cells as JSON

`Cell.json` writes a cell as an object whose one field names its kind (`Scalar.label`), and null as
a name alone (`nullLabel`). Numbers that are not finite are written as null; FLOAT numbers are
written as doubles. `Cell.ofTree?` reads a cell back: it takes numbers in their range
(`intWithin?`), and rounds to FLOAT what is not one. Documents inside cells nest less deep than
elsewhere by what the cell itself takes.
-/

namespace SelectMerge

namespace Scalar

/-- The name of a kind in a cell. -/
def label : Scalar → String
  | int => "Int"
  | long => "Long"
  | float => "Float"
  | double => "Double"
  | boolean => "Boolean"
  | string => "String"
  | bytes => "Bytes"
  | timestamp => "Timestamp"
  | object => "Object"

/-- A double, or null for what is not finite. -/
def realJson (x : Binary64) : Json := if x.isFinite then .real x else .null

/-- A value as a document. -/
def json : (s : Scalar) → s.Carrier → Json
  | int => fun (x : Int32) => .int x.toInt
  | long => fun (x : Int64) => .int x.toInt
  | float => fun (x : Binary32) => realJson x.widen
  | double => realJson
  | boolean => .bool
  | string => .text
  | bytes => fun (bs : List UInt8) => .list (bs.map fun b => .int b.toNat)
  | timestamp => fun (x : Int64) => .int x.toInt
  | object => id

/-- An integer within bounds. -/
def intWithin? (low high : Int) (t : JsonTree) : Option Int := do
  let n ← t.int?
  if low ≤ n ∧ n ≤ high then some n else none

def int32? (t : JsonTree) : Option Int32 :=
  (intWithin? Int32.minValue.toInt Int32.maxValue.toInt t).map Int32.ofInt

def int64? (t : JsonTree) : Option Int64 :=
  (intWithin? Int64.minValue.toInt Int64.maxValue.toInt t).map Int64.ofInt

/-- The value that a text holds, `depth` lists or objects deep at most. -/
def ofTree? (depth : Nat) : (s : Scalar) → JsonTree → Option s.Carrier
  | int => int32?
  | long => int64?
  | float => fun t => t.numberValue?.map fun
    | .int n => Binary32.ofInt n
    | .real x => x.narrow
  | double => fun t => t.numberValue?.map fun
    | .int n => Binary64.ofInt n
    | .real x => x
  | boolean => JsonTree.bool?
  | string => JsonTree.text?
  | bytes => JsonTree.listOf? fun t => (intWithin? 0 255 t).map fun n => UInt8.ofNat n.toNat
  | timestamp => int64?
  | object => JsonTree.doc? depth

end Scalar

namespace Cell

/-- The name of null as a cell. -/
def nullLabel : String := "Null"

/-- The cell as a document. -/
def json : Cell → Json
  | null => .text nullLabel
  | one s x => .object [(s.label, s.json x)]
  | many s xs => .object [(s.label ++ "Array", .list (xs.map s.json))]

/-- The cell that a text holds. -/
def ofTree? (t : JsonTree) : Option Cell :=
  if t.variantName? = some nullLabel then some null
  else do
    let (name, content) ← t.variant?
    match Scalar.all.find? fun s => s.label == name with
    | some s => (s.ofTree? (Json.depthLimit - 1) content).map (one s)
    | none =>
      let s ← Scalar.all.find? fun s => s.label ++ "Array" == name
      (content.listOf? (s.ofTree? (Json.depthLimit - 2))).map (many s)

end Cell

end SelectMerge

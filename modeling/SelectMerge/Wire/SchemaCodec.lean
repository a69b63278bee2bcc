import SelectMerge.Wire.Bytes

/-!
# Encoded schemas

`Schema.encode` writes the number of names, then for each column its name and the number of its type
(`encodeColumn`); `Schema.ofBytes` reads them back. A name without a type is counted, and then not
written.
-/

namespace SelectMerge.Schema

/-- A column: its name, then the number of its type. -/
def encodeColumn (name : String) (type : ColumnType) : Except MergeError Bytes := do
  return (← Bytes.blob (Bytes.ofText name)) ++ Bytes.ofNat 4 type.ordinal

/-- The bytes of a schema. -/
def encode (s : Schema) : Except MergeError Bytes := do
  let count ← Bytes.ofLength s.length
  let columns ← s.columns.mapM fun (name, type) => encodeColumn name type
  return count ++ columns.flatten

/-- Reads a column. -/
def decodeColumn : Decoder (String × ColumnType) := do
  let name ← Decoder.text "column name"
  let ordinal := (← Decoder.int32).toInt
  match ColumnType.ofOrdinal? ordinal with
  | some type => return (name, type)
  | none => throw (.unknownType ordinal)

/-- Reads a schema; a column takes at least a length and a type. -/
def decode : Decoder Schema := do
  let count ← Decoder.length 8
  return ofColumns (← Decoder.times decodeColumn count)

/-- The schema that a buffer holds and nothing else. -/
def ofBytes (bs : Bytes) : Except DecodeError Schema := decode.runAll bs

end SelectMerge.Schema

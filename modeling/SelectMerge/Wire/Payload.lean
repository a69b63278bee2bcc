import SelectMerge.Schema.Project
import SelectMerge.Wire.ScalarCodec
import SelectMerge.Wire.SchemaCodec

/-!
# Tables on the wire

A `Payload` holds rows column by column. After the schema and the number of rows comes a `Section`
for each column: one bit a row that marks nulls (`bitmap`), then one slot a row, which is the value
itself for words and else a place in the pool that all columns share. The pool with its length ends
the payload. Slots of nulls are zero.

`Payload.ofRows` casts rows to a schema and writes them, `Payload.ofBytes` takes a buffer apart.
Reading checks every section and every place in the pool that a value is looked for at
(`checkPlaces`), not the values there; those are decoded with their rows (`Payload.row`). Columns
are looked up by their number in rows and among the sections (`Abort.item`): nothing here checks
that a schema has as many types as names.
-/

namespace SelectMerge

/-! ## Layout -/

namespace ColumnType

/-- The width of the types whose values are words. -/
def width? : ColumnType → Option Nat
  | one s => s.width?
  | many _ => none

/-- The width of a column's slots. -/
def slotWidth (t : ColumnType) : Nat := t.width?.getD 4

end ColumnType

/-- The bytes that one bit a row takes. -/
def bitmapLength (rows : Nat) : Nat := (rows + 7) / 8

/-- Eight bits as a byte, the first one least. -/
def byteOfBits (bit : Nat → Bool) : UInt8 :=
  UInt8.ofNat ((List.range 8).foldr (fun k n => (if bit k then 1 <<< k else 0) + n) 0)

/-- One bit a row, eight to a byte. -/
def bitmap (bits : List Bool) : Bytes :=
  (List.range (bitmapLength bits.length)).map fun j =>
    byteOfBits fun k => bits.getD (8 * j + k) false

/-- The column of a payload: the null bits and the slots. -/
structure Section where
  nulls : Bytes
  slots : Bytes
deriving DecidableEq, Repr

namespace Section

/-- Whether the cell of a row is null. -/
def isNull (s : Section) (row : Nat) : Bool := (s.nulls.getD (row / 8) 0).toNat.testBit (row % 8)

/-- The bytes of a row's slot. -/
def slot (s : Section) (width row : Nat) : Bytes := (s.slots.drop (row * width)).take width

end Section

/-- An encoded table and its parts. -/
structure Payload where
  bytes : Bytes
  schema : Schema
  rowCount : Nat
  sections : List Section
  pool : Bytes
deriving DecidableEq, Repr

/-! ## Writing -/

namespace Cell

/-- The slot of a cell whose type has words for values. -/
def encodeWord (t : ColumnType) : Cell → Except MergeError Bytes
  | null => .ok (List.replicate t.slotWidth 0)
  | one s x =>
    if s.width?.isSome then s.encode x else .error (.unsupportedCast (.one s) t)
  | many s _ => .error (.unsupportedCast (.many s) t)

/-- What the pool holds for a cell. -/
def encodePooled (t : ColumnType) : Cell → Except MergeError Bytes
  | null => .error (.unsupportedCast t t)
  | one s x =>
    if s.width?.isSome then .error (.unsupportedCast (.one s) t) else s.encode x
  | many s xs => do
    let count ← Bytes.ofLength xs.length
    let items ← xs.mapM s.encode
    return count ++ items.flatten

/-- The slot of a cell, and the pool with what it adds. -/
def encodeSlot (t : ColumnType) (pool : Bytes) (c : Cell) : Except MergeError (Bytes × Bytes) :=
  if t.width?.isSome then do return (← c.encodeWord t, pool)
  else if c.isNull then .ok (Bytes.ofNat 4 0, pool)
  else do
    let place ← Bytes.ofLength pool.length
    return (place, pool ++ (← c.encodePooled t))

end Cell

namespace Section

/-- The slots of a column, and the pool with what they add. -/
def encodeSlots (t : ColumnType) : Bytes → List Cell → Except MergeError (Bytes × Bytes)
  | pool, [] => .ok ([], pool)
  | pool, c :: cs => do
    let (slot, pool) ← c.encodeSlot t pool
    let (slots, pool) ← encodeSlots t pool cs
    return (slot ++ slots, pool)

/-- The sections of columns from `first` on, and the pool they fill. -/
def encodeAll (rows : List Row) (first : Nat) :
    Bytes → List ColumnType → Except (Abort MergeError) (List Section × Bytes)
  | pool, [] => .ok ([], pool)
  | pool, t :: ts => do
    let cells ← rows.mapM fun r => Abort.item r first
    let (slots, pool) ← Abort.ofExcept (encodeSlots t pool cells)
    let (sections, pool) ← encodeAll rows (first + 1) pool ts
    return (⟨bitmap (cells.map Cell.isNull), slots⟩ :: sections, pool)

end Section

namespace Payload

/-- Casts rows to a schema and encodes them. -/
def ofRows (schema : Schema) (rows : List Row) : Except (Abort MergeError) Payload := do
  let rows ← Abort.ofExcept (schema.project rows)
  let header ← Abort.ofExcept schema.encode
  let count ← Abort.ofExcept (Bytes.ofLength rows.length)
  let (sections, pool) ← Section.encodeAll rows 0 [] schema.types
  let poolLength ← Abort.ofExcept (Bytes.ofLength pool.length)
  let body := sections.flatMap fun s => s.nulls ++ s.slots
  return ⟨header ++ count ++ body ++ poolLength ++ pool, schema, rows.length, sections, pool⟩

/-! ## Reading -/

/-- Takes the section of a column. -/
def decodeSection (rowCount : Nat) (t : ColumnType) : Decoder Section := do
  let nulls ← Decoder.take (bitmapLength rowCount)
  let slots ← Decoder.take (rowCount * t.slotWidth)
  return ⟨nulls, slots⟩

/-- Takes all parts of a payload. -/
def decodeParts : Decoder (Schema × Nat × List Section × Bytes) := do
  let schema ← Schema.decode
  let rowCount ← Decoder.length 0
  let sections ← schema.types.mapM (decodeSection rowCount)
  let poolLength ← Decoder.length 1
  let pool ← Decoder.take poolLength
  return (schema, rowCount, sections, pool)

/-- The greatest offset that an error can name; it stands for a negative one. -/
def greatestOffset : Nat := UInt64.size - 1

/-- The place in the pool that a slot names. -/
def place (pool : Bytes) (s : Section) (row : Nat) : Except DecodeError Nat :=
  let n := (Bytes.toInt32 (s.slot 4 row)).toInt
  if n < 0 then .error (.offsetOutOfRange greatestOffset pool.length)
  else if n.toNat < pool.length then .ok n.toNat
  else .error (.offsetOutOfRange n.toNat pool.length)

/-- Checks the places that a column's values are looked for at. -/
def checkPlaces (rowCount : Nat) (pool : Bytes) (s : Section) : Except DecodeError Unit :=
  (List.range rowCount).forM fun row =>
    if s.isNull row then .ok () else (place pool s row).map fun _ => ()

/-- The payload that a buffer holds and nothing else. -/
def ofBytes (bs : Bytes) : Except DecodeError Payload := do
  let (schema, rowCount, sections, pool) ← decodeParts.runAll bs
  (schema.types.zip sections).forM fun (t, s) =>
    if t.width?.isSome then .ok () else checkPlaces rowCount pool s
  return ⟨bs, schema, rowCount, sections, pool⟩

/-! ## Rows -/

/-- Reads an array: the number of its elements, then each. -/
def decodeArray (s : Scalar) : Decoder (List s.Carrier) := do
  let count ← Decoder.length s.leastSize
  Decoder.times (s.decode "string element") count

/-- Reads a value of a type. -/
def decodeCell : ColumnType → Decoder Cell
  | .one s => Cell.one s <$> s.decode "string value"
  | .many s => Cell.many s <$> decodeArray s

/-- The cell of a row in a column. -/
def cell (p : Payload) (t : ColumnType) (s : Section) (row : Nat) : Except DecodeError Cell :=
  if s.isNull row then .ok .null
  else
    match t.width? with
    | some width => (decodeCell t).run' ⟨0, s.slot width row⟩
    | none => do
      let offset ← place p.pool s row
      (decodeCell t).run' ⟨offset, p.pool.drop offset⟩

def isEmpty (p : Payload) : Bool := p.rowCount == 0

/-- The row of an index, with a cell for every name of the schema. -/
def row (p : Payload) (index : Nat) : Except (Abort DecodeError) Row :=
  if index < p.rowCount then
    (List.range p.schema.length).mapM fun column => do
      let (t, s) ← Abort.item (p.schema.types.zip p.sections) column
      Abort.ofExcept (p.cell t s index)
  else .error (.failed (.offsetOutOfRange index p.rowCount))

/-- All rows. -/
def rows (p : Payload) : Except (Abort DecodeError) (List Row) :=
  (List.range p.rowCount).mapM p.row

/-- The rows as a block, as a segment hands them over. -/
def toBlock (p : Payload) : Except (Abort DecodeError) Block :=
  p.rows.map (Block.ofRows p.schema)

end Payload

end SelectMerge

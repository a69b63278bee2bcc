import Mathlib.Algebra.Group.Nat.Defs
import SelectMerge.Wire.Payload

/-!
# Tables read in place

The reading of a table by positions in its one buffer: a `Table` is its bytes and the places where
its parts start, and a cell is looked up by arithmetic on these and on the numbers in the buffer
(`Table.cell`, `Table.row`). Positions are words of 64 bits. A position that outgrows its word
(`word`) is a `Fault`, and so is an access that the buffer does not reach (`item`, `slice`);
malformed bytes are not, they are answered with an error. `Table.ofBytes` takes a buffer as a table,
with the checks that `Payload.ofBytes` makes.
-/

namespace SelectMerge.Addressed

/-! ## Accesses -/

/-- What reading in place must never come to. -/
inductive Fault where
  | overflow (n : Nat)
  | outside (position length : Nat)

/-- A step that ends with a value, with an error about malformed bytes, or with a fault. -/
abbrev Access := ExceptT DecodeError (Except Fault)

/-- One more than the greatest position. -/
def wordLimit : Nat := 2 ^ 64

/-- A step that comes to no fault, but maybe to an error. -/
def ofExcept {α : Type} (x : Except DecodeError α) : Access α := ExceptT.mk (.ok x)

def fault {α : Type} (f : Fault) : Access α := ExceptT.mk (.error f)

/-- A position, if it fits its word. -/
def word (n : Nat) : Access Nat := if n < wordLimit then pure n else fault (.overflow n)

def item {α : Type} (l : List α) (i : Nat) : Access α :=
  match l[i]? with
  | some x => pure x
  | none => fault (.outside i l.length)

/-- The bytes from `start` up to `stop`. -/
def slice (buffer : Bytes) (start stop : Nat) : Access Bytes :=
  if start ≤ stop ∧ stop ≤ buffer.length then pure ((buffer.drop start).take (stop - start))
  else fault (.outside stop buffer.length)

/-! ## Readers -/

/-- A reader of a buffer, at a position. -/
abbrev Reader := ReaderT Bytes (StateT Nat Access)

namespace Reader

variable {α : Type}

/-- The value that a reader finds at a position. -/
def readAt (d : Reader α) (buffer : Bytes) (position : Nat) : Access α :=
  (d.run buffer).run' position

def remaining : Reader Nat := do return (← read).length - (← get)

def take (n : Nat) : Reader Bytes := do
  let start ← get
  let available ← remaining
  if available < n then throw (.truncated start n available)
  else
    let stop ← word (start + n)
    let bytes ← slice (← read) start stop
    set stop
    return bytes

def int32 : Reader Int32 := Bytes.toInt32 <$> take 4

def int64 : Reader Int64 := Bytes.toInt64 <$> take 8

/-- A length whose items, of at least `itemSize` bytes each, are still to come; a product that
outgrows its word stands at the greatest one. -/
def length (itemSize : Nat) : Reader Nat := do
  let n := (← int32).toInt
  if n < 0 then throw (.negativeLength n)
  else
    let start ← get
    let available ← remaining
    let needed := min (n.toNat * itemSize) (wordLimit - 1)
    if available < needed then throw (.truncated start needed available)
    else return n.toNat

def blob : Reader Bytes := do take (← length 1)

def text (what : String) : Reader String := do
  match Bytes.text? (← blob) with
  | some s => return s
  | none => throw (.invalidText what)

def times (item : Reader α) : Nat → Reader (List α)
  | 0 => return []
  | n + 1 => do return (← item) :: (← times item n)

/-! ### Values -/

def scalar (what : String) : (s : Scalar) → Reader s.Carrier
  | .int => int32
  | .long => int64
  | .float => do return (⟨UInt32.ofNat (← take 4).toNat⟩ : Binary32)
  | .double => do return (⟨UInt64.ofNat (← take 8).toNat⟩ : Binary64)
  | .boolean => do return (← int32) != 0
  | .string => text what
  | .bytes => blob
  | .timestamp => int64
  | .object => do
    match Scalar.document? (← blob) with
    | some j => return j
    | none => throw .invalidObject

def array (s : Scalar) : Reader (List s.Carrier) := do
  let count ← length s.leastSize
  times (scalar "string element" s) count

def cell : ColumnType → Reader Cell
  | .one s => Cell.one s <$> scalar "string value" s
  | .many s => Cell.many s <$> array s

/-! ### Tables -/

def column : Reader (String × ColumnType) := do
  let name ← text "column name"
  let ordinal := (← int32).toInt
  match ColumnType.ofOrdinal? ordinal with
  | some type => return (name, type)
  | none => throw (.unknownType ordinal)

def schema : Reader Schema := do
  let count ← length 8
  return .ofColumns (← times column count)

/-- Passes over the section of a column and tells where it starts. -/
def columnStart (rowCount : Nat) (t : ColumnType) : Reader Nat := do
  let start ← get
  let _ ← take (bitmapLength rowCount)
  if rowCount * t.slotWidth < wordLimit then
    let _ ← take (rowCount * t.slotWidth)
    return start
  else throw (.truncated (← get) (wordLimit - 1) (← remaining))

/-- The schema, the number of rows, where each column starts, and where the pool starts and how long
it is. -/
def parts : Reader (Schema × Nat × List Nat × Nat × Nat) := do
  let schema ← schema
  let rowCount ← length 0
  let starts ← schema.types.mapM (columnStart rowCount)
  let poolLength ← length 1
  let poolStart ← get
  let _ ← take poolLength
  return (schema, rowCount, starts, poolStart, poolLength)

end Reader

/-! ## Tables -/

/-- An encoded table and the places of its parts: where each column starts, and the pool. -/
structure Table where
  bytes : Bytes
  schema : Schema
  rowCount : Nat
  columnStarts : List Nat
  poolStart : Nat
  poolLength : Nat

namespace Table

variable (T : Table)

def isNull (column row : Nat) : Access Bool := do
  let start ← item T.columnStarts column
  let place ← word (start + row / 8)
  return (← item T.bytes place).toNat.testBit (row % 8)

/-- Where the slot of a row is, in a column with slots of a width. -/
def slot (column row width : Nat) : Access Nat := do
  let start ← item T.columnStarts column
  let values ← word (start + bitmapLength T.rowCount)
  let offset ← word (row * width)
  word (values + offset)

/-- The place in the pool that a slot names. -/
def place (column row : Nat) : Access Nat := do
  let n := (← Reader.int32.readAt T.bytes (← T.slot column row 4)).toInt
  if n < 0 then throw (.offsetOutOfRange Payload.greatestOffset T.poolLength)
  else if n.toNat < T.poolLength then return n.toNat
  else throw (.offsetOutOfRange n.toNat T.poolLength)

/-- The cell of a row; what is not a word is read in the pool alone. -/
def cell (column row : Nat) : Access Cell := do
  if ← T.isNull column row then return .null
  let t ← item T.schema.types column
  match t.width? with
  | some width => (Reader.cell t).readAt T.bytes (← T.slot column row width)
  | none =>
    let place ← T.place column row
    let stop ← word (T.poolStart + T.poolLength)
    let pool ← slice T.bytes T.poolStart stop
    (Reader.cell t).readAt pool place

def row (i : Nat) : Access Row :=
  if T.rowCount ≤ i then throw (.offsetOutOfRange i T.rowCount)
  else (List.range T.schema.length).mapM fun column => T.cell column i

/-- Checks the places that the values of a column are looked for at. -/
def checkColumn (column : Nat) : Access Unit := do
  let t ← item T.schema.types column
  if t.width?.isSome then pure ()
  else (List.range T.rowCount).forM fun row => do
    if ← T.isNull column row then pure ()
    else discard (T.place column row)

/-- The table that a buffer holds and nothing else. -/
def ofBytes (bytes : Bytes) : Access Table := do
  let ((schema, rowCount, starts, poolStart, poolLength), stop) ← (Reader.parts.run bytes).run 0
  if bytes.length - stop = 0 then
    let T : Table := ⟨bytes, schema, rowCount, starts, poolStart, poolLength⟩
    (List.range starts.length).forM T.checkColumn
    return T
  else throw (.trailingBytes (bytes.length - stop))

end Table

end SelectMerge.Addressed

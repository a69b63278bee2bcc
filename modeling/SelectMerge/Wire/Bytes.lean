import SelectMerge.Error

/-!
# Bytes on the wire

Words are written most significant byte first (`Bytes.ofNat`); texts and other runs of bytes follow
their length (`Bytes.blob`), which `Bytes.ofLength` refuses beyond `wireLimit`.

A `Decoder` reads from a `Cursor` that knows its place in the buffer, so an error can name it. A
length is read together with the least size of what it counts (`Decoder.length`): if the buffer has
no room for so many items it is refused before any of them is read. `runAll` reads a buffer that
holds nothing else.
-/

namespace SelectMerge

/-- The bytes of an encoding. -/
abbrev Bytes := List UInt8

namespace Bytes

/-! ## Words -/

/-- The last `width` base-256 digits of a number. -/
def ofNat : Nat → Nat → Bytes
  | 0, _ => []
  | width + 1, n => UInt8.ofNat (n >>> (8 * width)) :: ofNat width n

/-- The number that base-256 digits stand for. -/
def toNat (bs : Bytes) : Nat := bs.foldl (fun n b => n * 256 + b.toNat) 0

def ofInt32 (x : Int32) : Bytes := ofNat 4 x.toUInt32.toNat

def toInt32 (bs : Bytes) : Int32 := (UInt32.ofNat bs.toNat).toInt32

def ofInt64 (x : Int64) : Bytes := ofNat 8 x.toUInt64.toNat

def toInt64 (bs : Bytes) : Int64 := (UInt64.ofNat bs.toNat).toInt64

/-! ## Lengths and texts -/

/-- The bytes of a text. -/
def ofText (s : String) : Bytes := s.toUTF8.toList

/-- The text of bytes that are one. -/
def text? (bs : Bytes) : Option String := String.fromUTF8? ⟨bs.toArray⟩

/-- A length, as long as it fits the wire. -/
def ofLength (n : Nat) : Except MergeError Bytes :=
  if n ≤ wireLimit then .ok (ofNat 4 n) else .error (.lengthOverflow n)

/-- A run of bytes after its length. -/
def blob (bs : Bytes) : Except MergeError Bytes := do
  return (← ofLength bs.length) ++ bs

end Bytes

/-! ## Reading -/

/-- A place in a buffer and the bytes from there on. -/
structure Cursor where
  offset : Nat
  rest : Bytes
deriving DecidableEq, Repr

/-- A reader of bytes. -/
abbrev Decoder := StateT Cursor (Except DecodeError)

namespace Decoder

/-- Takes `n` bytes. -/
def take (n : Nat) : Decoder Bytes := fun c =>
  if n ≤ c.rest.length then .ok (c.rest.take n, ⟨c.offset + n, c.rest.drop n⟩)
  else .error (.truncated c.offset n c.rest.length)

def int32 : Decoder Int32 := Bytes.toInt32 <$> take 4

def int64 : Decoder Int64 := Bytes.toInt64 <$> take 8

/-- A length whose items, of at least `itemSize` bytes each, are still to come. -/
def length (itemSize : Nat) : Decoder Nat := do
  let n := (← int32).toInt
  if n < 0 then throw (.negativeLength n)
  let c ← get
  let needed := n.toNat * itemSize
  if needed ≤ c.rest.length then return n.toNat
  else throw (.truncated c.offset needed c.rest.length)

/-- Bytes after their length. -/
def blob : Decoder Bytes := do take (← length 1)

/-- A text after its length. -/
def text (what : String) : Decoder String := do
  match Bytes.text? (← blob) with
  | some s => return s
  | none => throw (.invalidText what)

/-- A number of items. -/
def times {α : Type} (item : Decoder α) : Nat → Decoder (List α)
  | 0 => return []
  | n + 1 => do return (← item) :: (← times item n)

/-- Reads a buffer that holds nothing else. -/
def runAll {α : Type} (d : Decoder α) (bs : Bytes) : Except DecodeError α := do
  let (x, c) ← d.run ⟨0, bs⟩
  if c.rest.length = 0 then return x else throw (.trailingBytes c.rest.length)

end Decoder

end SelectMerge

import SelectMerge.Json.Print
import SelectMerge.Json.Tree
import SelectMerge.Wire.Bytes

/-!
# Encoded scalars

`Scalar.encode` and `Scalar.decode`. Numbers, booleans and times are words of four or eight bytes
(`Scalar.width?`). Text, bytes and documents follow their length, documents as compact JSON text
(`Scalar.document?`). `Scalar.leastSize` is what a list of values asks for before it is read.
-/

namespace SelectMerge.Scalar

/-- The width of the kinds that are words. -/
def width? : Scalar → Option Nat
  | int | float | boolean => some 4
  | long | double | timestamp => some 8
  | string | bytes | object => none

/-- The least number of bytes that a value takes. -/
def leastSize (s : Scalar) : Nat := s.width?.getD 4

/-- The bytes of a value. -/
def encode : (s : Scalar) → s.Carrier → Except MergeError Bytes
  | int => fun (x : Int32) => .ok (Bytes.ofInt32 x)
  | long => fun (x : Int64) => .ok (Bytes.ofInt64 x)
  | float => fun (x : Binary32) => .ok (Bytes.ofNat 4 x.bits.toNat)
  | double => fun (x : Binary64) => .ok (Bytes.ofNat 8 x.bits.toNat)
  | boolean => fun (b : Bool) => .ok (Bytes.ofNat 4 b.toNat)
  | string => fun (s : String) => Bytes.blob (Bytes.ofText s)
  | bytes => fun (bs : Bytes) => Bytes.blob bs
  | timestamp => fun (x : Int64) => .ok (Bytes.ofInt64 x)
  | object => fun (j : Json) => Bytes.blob (Bytes.ofText j.print)

/-- The document in a run of bytes. -/
def document? (bs : Bytes) : Option Json := do Json.read? (← Bytes.text? bs).toList

/-- Reads a value; `what` names the text in errors. -/
def decode (what : String) : (s : Scalar) → Decoder s.Carrier
  | int => Decoder.int32
  | long => Decoder.int64
  | float => do return (⟨UInt32.ofNat (← Decoder.take 4).toNat⟩ : Binary32)
  | double => do return (⟨UInt64.ofNat (← Decoder.take 8).toNat⟩ : Binary64)
  | boolean => do return (← Decoder.int32) != 0
  | string => Decoder.text what
  | bytes => Decoder.blob
  | timestamp => Decoder.int64
  | object => do
    match document? (← Decoder.blob) with
    | some j => return j
    | none => throw .invalidObject

end SelectMerge.Scalar

import SelectMerge.Json.Basic

/-!
# Scalars

The nine kinds of single values (`Scalar`) and what a value of each kind is (`Scalar.Carrier`).
Numbers are ranked (`rank?`): a number widens to every number of higher rank, and a BOOLEAN, ranked
below them, widens to each (`covers`). Two kinds meet at `join?` without loss as far as kinds can
tell: two whole numbers at LONG, other numbers at DOUBLE.
-/

namespace SelectMerge

/-- A kind of single values. -/
inductive Scalar where
  | int
  | long
  | float
  | double
  | boolean
  | string
  | bytes
  | timestamp
  | object
deriving DecidableEq, Repr, Inhabited

namespace Scalar

/-- All kinds in wire order. -/
def all : List Scalar :=
  [.int, .long, .float, .double, .boolean, .string, .bytes, .timestamp, .object]

/-- The place in wire order. -/
def ordinal : Scalar → Nat
  | int => 0
  | long => 1
  | float => 2
  | double => 3
  | boolean => 4
  | string => 5
  | bytes => 6
  | timestamp => 7
  | object => 8

def name : Scalar → String
  | int => "INT"
  | long => "LONG"
  | float => "FLOAT"
  | double => "DOUBLE"
  | boolean => "BOOLEAN"
  | string => "STRING"
  | bytes => "BYTES"
  | timestamp => "TIMESTAMP"
  | object => "OBJECT"

def isNumber : Scalar → Bool
  | int | long | float | double => true
  | _ => false

def isWhole : Scalar → Bool
  | int | long => true
  | _ => false

/-- The rank among numbers, BOOLEAN lowest; other kinds have none. -/
def rank? : Scalar → Option Nat
  | boolean => some 0
  | int => some 1
  | long => some 2
  | float => some 3
  | double => some 4
  | _ => none

/-- Whether every value of `b` has a counterpart in `a`: the same kind, or a number ranked at least
as high. -/
def covers (a b : Scalar) : Bool :=
  a == b || (a.isNumber && match a.rank?, b.rank? with
    | some m, some n => n ≤ m
    | _, _ => false)

/-- The kind that two kinds meet at without loss: two whole numbers at LONG, other numbers at
DOUBLE. -/
def join? (a b : Scalar) : Option Scalar :=
  if a = b then some a
  else if a.isWhole && b.isWhole then some .long
  else if a.isNumber && b.isNumber then some .double
  else none

/-- What a value of a kind is. -/
def Carrier : Scalar → Type
  | int => Int32
  | long => Int64
  | float => Binary32
  | double => Binary64
  | boolean => Bool
  | string => String
  | bytes => List UInt8
  | timestamp => Int64
  | object => Json

/-- Equality of values of one kind, numbers compared as numbers. -/
def same : (s : Scalar) → s.Carrier → s.Carrier → Bool
  | int => fun (x y : Int32) => x == y
  | long => fun (x y : Int64) => x == y
  | float => Binary32.sameNumber
  | double => Binary64.sameNumber
  | boolean => fun (x y : Bool) => x == y
  | string => fun (x y : String) => x == y
  | bytes => fun (x y : List UInt8) => x == y
  | timestamp => fun (x y : Int64) => x == y
  | object => Json.same

end Scalar

end SelectMerge

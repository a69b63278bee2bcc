import SelectMerge.Json.Basic

/-!
# Reading JSON numbers

A `JsonNumber` is a number as written: digits with an optional fraction and exponent. `value?` tells
what it stands for. An integer that fits 64 bits, signed or unsigned, stays exact. Any other number
becomes a DOUBLE (`scaledCode?`): the leading digits that fit a 64-bit word are rounded once
(`takeDigits`), and the product or quotient with a power of ten (`timesTen`, `overTen`) is rounded
again, so the last place can differ from the nearest double. A number beyond the finite doubles is
refused.
-/

namespace SelectMerge

/-- A number as written: sign, digits before the point, after it, and exponent sign and digits. -/
structure JsonNumber where
  negative : Bool
  whole : List Nat
  fraction : Option (List Nat)
  exponent : Option (Bool × List Nat)
deriving DecidableEq, Repr

/-- What a written number stands for. -/
inductive NumberValue where
  | int (n : Int)
  | real (x : Binary64)
deriving DecidableEq, Repr

namespace JsonNumber

/-- Takes digits into a significand while it fits 64 bits; the others are left over. -/
def takeDigits (s : Nat) : List Nat → Nat × List Nat
  | [] => (s, [])
  | d :: ds => if s * 10 + d < UInt64.size then takeDigits (s * 10 + d) ds else (s, d :: ds)

/-- The exponent as long as it fits a signed 32-bit word. -/
def exponent? (s : Nat) : List Nat → Option Nat
  | [] => some s
  | d :: ds => if s * 10 + d < 0x80000000 then exponent? (s * 10 + d) ds else none

/-- The code of the double nearest to a power of ten. -/
def tenPower (k : Nat) : Nat := BinaryFormat.double.roundQuot (Nat.pow 10 k) 1

/-- A finite code times a power of ten, rounded. -/
def timesTen (code k : Nat) : Nat :=
  let a := BinaryFormat.double.decode code
  let b := BinaryFormat.double.decode (tenPower k)
  BinaryFormat.double.roundScaled (a.1 * b.1) (a.2 + b.2)

/-- A finite code divided by a power of ten, rounded. -/
def overTen (code k : Nat) : Nat :=
  let a := BinaryFormat.double.decode code
  let b := BinaryFormat.double.decode (tenPower k)
  let s := scaleQuot a.1 b.1 (a.2 - b.2)
  BinaryFormat.double.roundQuot s.1 s.2

/-- The code of a significand times ten to the `e`; divisors go up to ten to the 308, and dividing
by that twice leaves nothing of a 64-bit significand. -/
def scaledCode? (significand : Nat) (e : Int) : Option Nat :=
  let code := BinaryFormat.double.roundQuot significand 1
  if significand = 0 then some 0
  else if 308 < e then none
  else if 0 ≤ e then
    let product := timesTen code e.toNat
    if product = BinaryFormat.double.infinity then none else some product
  else if -308 ≤ e then some (overTen code (-e).toNat)
  else if -616 ≤ e then some (overTen (overTen code 308) (-e - 308).toNat)
  else some 0

/-- What a number stands for, unless it lies beyond the finite doubles. -/
def value? (x : JsonNumber) : Option NumberValue :=
  let (s, dropped) := takeDigits 0 x.whole
  if dropped = [] ∧ x.fraction = none ∧ x.exponent = none ∧
      (x.negative = false ∨ (0 < s ∧ s ≤ 0x8000000000000000)) then
    some (.int (if x.negative then -s else s))
  else
    let digits := x.fraction.getD []
    let (s, beyond) := takeDigits s digits
    let e : Int := (dropped.length : Int) - (digits.length - beyond.length : Nat)
    let code? :=
      match x.exponent with
      | none => scaledCode? s e
      | some (down, ds) =>
        match exponent? 0 ds with
        | some n => scaledCode? s (if down then e - n else e + n)
        | none => if s ≠ 0 ∧ down = false then none else some 0
    code?.map fun code => .real (.ofCode x.negative code)

end JsonNumber

end SelectMerge

/-!
# Binary floating point words

FLOAT and DOUBLE cells hold the words of the 32-bit and 64-bit binary interchange formats,
`Binary32` and `Binary64`. A word is a sign and a magnitude code; codes grow with the number they
stand for, so rounding (`BinaryFormat.roundQuot`, `roundScaled`) is one division to nearest, ties to
even (`roundDiv`), whose quotient is placed on the scale of codes. Everything is exact integer
arithmetic.

Words compare by `Binary64.rank`: all NaN are equal and come last, and the two zeros are equal.
`Binary64.ofInt` rounds an integer, `Binary32.widen` is exact, `Binary64.narrow` rounds.
-/

namespace SelectMerge

/-! ## Formats -/

/-- A binary interchange format: significant bits (the leading one included) and exponent bits. -/
structure BinaryFormat where
  precision : Nat
  exponentBits : Nat
deriving DecidableEq, Repr

namespace BinaryFormat

/-- The 32-bit format of FLOAT. -/
def single : BinaryFormat := ⟨24, 8⟩

/-- The 64-bit format of DOUBLE. -/
def double : BinaryFormat := ⟨53, 11⟩

/-- Codes per binade: the number of significands with a given leading bit. -/
def binade (f : BinaryFormat) : Nat := 1 <<< (f.precision - 1)

/-- The exponent of the last place of the smallest numbers. -/
def leastExponent (f : BinaryFormat) : Int :=
  3 - (1 <<< (f.exponentBits - 1) : Nat) - f.precision

/-- The magnitude code of infinity; larger codes are NaN. -/
def infinity (f : BinaryFormat) : Nat := (1 <<< f.exponentBits - 1) * f.binade

/-- The weight of the sign bit in a word. -/
def signPlace (f : BinaryFormat) : Nat := 1 <<< (f.precision - 1 + f.exponentBits)

/-- The significand and last-place exponent that a finite magnitude code stands for. -/
def decode (f : BinaryFormat) (code : Nat) : Nat × Int :=
  if code < f.binade then (code, f.leastExponent)
  else (f.binade + code % f.binade, f.leastExponent + (code / f.binade : Nat) - 1)

end BinaryFormat

/-! ## Rounding -/

/-- The quotient rounded to nearest, a tie going to the even neighbour. -/
def roundDiv (num den : Nat) : Nat :=
  let q := num / den
  let r := num % den
  if 2 * r < den then q
  else if den < 2 * r then q + 1
  else q + q % 2

/-- A positive fraction times a power of two, as a fraction. -/
def scaleQuot (num den : Nat) (e : Int) : Nat × Nat :=
  if 0 ≤ e then (num <<< e.toNat, den) else (num, den <<< (-e).toNat)

/-- The exponent of the leading bit of a positive fraction. -/
def leadingExponent (num den : Nat) : Int :=
  let k : Int := (num.log2 : Int) - den.log2
  let s := scaleQuot 1 1 k
  if num * s.2 < den * s.1 then k - 1 else k

namespace BinaryFormat

/-- The magnitude code nearest to `num / den`, infinity when it lies beyond the finite numbers. -/
def roundQuot (f : BinaryFormat) (num den : Nat) : Nat :=
  if num = 0 then 0
  else
    let e := max f.leastExponent (leadingExponent num den - (f.precision - 1 : Nat))
    let s := scaleQuot num den (-e)
    min f.infinity ((e - f.leastExponent).toNat * f.binade + roundDiv s.1 s.2)

/-- The magnitude code nearest to `m` times two to the `e`. -/
def roundScaled (f : BinaryFormat) (m : Nat) (e : Int) : Nat :=
  let s := scaleQuot m 1 e
  f.roundQuot s.1 s.2

end BinaryFormat

/-! ## Words -/

/-- A word of the 32-bit format. -/
structure Binary32 where
  bits : UInt32
deriving DecidableEq, Repr, Inhabited

/-- A word of the 64-bit format. -/
structure Binary64 where
  bits : UInt64
deriving DecidableEq, Repr, Inhabited

namespace Binary32

/-- The word with a sign and a magnitude code. -/
def ofCode (negative : Bool) (code : Nat) : Binary32 :=
  ⟨UInt32.ofNat (code + if negative then BinaryFormat.single.signPlace else 0)⟩

def isNegative (x : Binary32) : Bool := BinaryFormat.single.signPlace ≤ x.bits.toNat

/-- The magnitude code. -/
def code (x : Binary32) : Nat := x.bits.toNat % BinaryFormat.single.signPlace

def isNaN (x : Binary32) : Bool := BinaryFormat.single.infinity < x.code

/-- The word nearest to an integer. -/
def ofInt (n : Int) : Binary32 :=
  ofCode (n < 0) (BinaryFormat.single.roundQuot n.natAbs 1)

/-- The place of a word in the order of numbers; NaN is above all, both zeros are at zero. -/
def rank (x : Binary32) : Int :=
  if x.isNaN then BinaryFormat.single.signPlace else if x.isNegative then -x.code else x.code

/-- Equality of the numbers that two words stand for: NaN equals nothing, zeros are equal. -/
def sameNumber (x y : Binary32) : Bool := !x.isNaN && !y.isNaN && x.rank == y.rank

/-- The same number as a 64-bit word; a NaN keeps its sign and payload and becomes quiet. -/
def widen (x : Binary32) : Binary64 :=
  let single := BinaryFormat.single
  let double := BinaryFormat.double
  let code :=
    if x.isNaN then
      let payload := x.code - single.infinity
      let quiet := if payload < single.binade / 2 then single.binade / 2 else 0
      double.infinity + (payload + quiet) * (double.binade / single.binade)
    else if x.code = single.infinity then double.infinity
    else
      let d := single.decode x.code
      double.roundScaled d.1 d.2
  ⟨UInt64.ofNat (code + if x.isNegative then double.signPlace else 0)⟩

end Binary32

namespace Binary64

/-- The word with a sign and a magnitude code. -/
def ofCode (negative : Bool) (code : Nat) : Binary64 :=
  ⟨UInt64.ofNat (code + if negative then BinaryFormat.double.signPlace else 0)⟩

def isNegative (x : Binary64) : Bool := BinaryFormat.double.signPlace ≤ x.bits.toNat

/-- The magnitude code. -/
def code (x : Binary64) : Nat := x.bits.toNat % BinaryFormat.double.signPlace

def isNaN (x : Binary64) : Bool := BinaryFormat.double.infinity < x.code

def isFinite (x : Binary64) : Bool := x.code < BinaryFormat.double.infinity

/-- The word nearest to an integer. -/
def ofInt (n : Int) : Binary64 :=
  ofCode (n < 0) (BinaryFormat.double.roundQuot n.natAbs 1)

/-- The place of a word in the order of numbers; NaN is above all, both zeros are at zero. -/
def rank (x : Binary64) : Int :=
  if x.isNaN then BinaryFormat.double.signPlace else if x.isNegative then -x.code else x.code

/-- Equality of the numbers that two words stand for: NaN equals nothing, zeros are equal. -/
def sameNumber (x y : Binary64) : Bool := !x.isNaN && !y.isNaN && x.rank == y.rank

/-- The 32-bit word nearest to a number; beyond the finite ones it is infinity. -/
def narrow (x : Binary64) : Binary32 :=
  let single := BinaryFormat.single
  let double := BinaryFormat.double
  let code :=
    if x.isNaN then single.infinity + single.binade / 2
    else if x.code = double.infinity then single.infinity
    else
      let d := double.decode x.code
      single.roundScaled d.1 d.2
  Binary32.ofCode x.isNegative code

end Binary64

end SelectMerge

import SelectMerge.Number.Binary

/-!
# Shortest decimal form

`Binary64.shortest` gives the fewest decimal digits that read back as a finite number, and of those
the ones nearest to it. Digit counts are tried in turn (`firstGrid?`); on each decimal grid only the
two neighbours of the number (`onGrid?`) can lie in the `RoundingInterval` of reals that round to
it.
-/

namespace SelectMerge

/-- A positive fraction times a power of ten, as a fraction. -/
def scaleTen (num den : Nat) (e : Int) : Nat × Nat :=
  if 0 ≤ e then (num * Nat.pow 10 e.toNat, den) else (num, den * Nat.pow 10 (-e).toNat)

/-- The decimal digits of a number, as text. -/
def decimalDigits (n : Nat) : List Char := Nat.toDigits 10 n

/-- The place of the leading decimal digit of a positive fraction. -/
def leadingPlace (num den : Nat) : Int :=
  let k : Int := ((decimalDigits num).length : Int) - (decimalDigits den).length
  let s := scaleTen 1 1 k
  if num * s.2 < den * s.1 then k - 1 else k

/-- A decimal number: `digits` times ten to the `place`. -/
structure Decimal where
  digits : Nat
  place : Int
deriving DecidableEq, Repr

namespace Decimal

/-- The same number without trailing zeros among the digits, `steps` of them at most. -/
def strip : Nat → Decimal → Decimal
  | 0, d => d
  | n + 1, d => if d.digits % 10 = 0 then strip n ⟨d.digits / 10, d.place + 1⟩ else d

/-- The place of the leading digit. -/
def leading (d : Decimal) : Int := d.place + (decimalDigits d.digits).length - 1

end Decimal

/-! ## The reals that round to a number -/

/-- The reals between `low / den` and `high / den`, the ends included when `closed`; the number
itself is `mid / den`. -/
structure RoundingInterval where
  low : Nat
  mid : Nat
  high : Nat
  den : Nat
  closed : Bool

namespace RoundingInterval

/-- The interval of a finite magnitude code: half way to both neighbours, closed for even
significands, since a tie goes to them. -/
def ofCode (f : BinaryFormat) (code : Nat) : RoundingInterval :=
  let (m, e) := f.decode code
  let below := if m = f.binade ∧ f.leastExponent < e then 1 else 2
  let s := scaleQuot 1 4 e
  ⟨(4 * m - below) * s.1, 4 * m * s.1, (4 * m + 2) * s.1, s.2, m % 2 = 0⟩

/-- Whether a decimal number lies in the interval. -/
def has (i : RoundingInterval) (d : Decimal) : Bool :=
  let s := scaleTen d.digits 1 d.place
  let x := s.1 * i.den
  if i.closed then i.low * s.2 ≤ x && x ≤ i.high * s.2 else i.low * s.2 < x && x < i.high * s.2

/-- The point of the grid of a decimal place that lies in the interval, the nearer of two. -/
def onGrid? (i : RoundingInterval) (place : Int) : Option Decimal :=
  let s := scaleTen i.mid i.den (-place)
  let down : Decimal := ⟨s.1 / s.2, place⟩
  let up : Decimal := ⟨s.1 / s.2 + 1, place⟩
  let nearerDown := 2 * (s.1 % s.2) < s.2 || (2 * (s.1 % s.2) == s.2 && s.1 / s.2 % 2 == 0)
  match i.has down, i.has up with
  | true, true => some (if nearerDown then down else up)
  | true, false => some down
  | false, true => some up
  | false, false => none

/-- The first grid with a point in the interval, from `count` digits up, `tries` grids at most. -/
def firstGrid? (i : RoundingInterval) : Nat → Int → Option Decimal
  | 0, _ => none
  | n + 1, place => i.onGrid? place <|> i.firstGrid? n (place - 1)

end RoundingInterval

/-- The shortest decimal form of a finite nonzero magnitude; seventeen digits always suffice. -/
def Binary64.shortest (x : Binary64) : Decimal :=
  let i := RoundingInterval.ofCode .double x.code
  let d := (i.firstGrid? 17 (leadingPlace i.mid i.den)).getD ⟨0, 0⟩
  d.strip 17

end SelectMerge

import Intake.Decimal.Digits

/-!
# The shortest decimal of a double

A positive double stands for an interval of reals, those that round to it.  Its shortest decimal is
the one with the fewest digits in that interval, and of two with equally many digits the one nearer
to the double.

The search looks at ever finer decimal grids.  The grid of exponent `p` holds the multiples of
`10 ^ p`, and if any of them is in the interval then so is one of the two neighbours of the double
on that grid, because the interval holds the double.  So each grid asks for two comparisons of
natural numbers, and the first grid that has a point in the interval has the answer.  Seventeen
digits always suffice for a double.
-/

namespace Intake.Decimal

/-- Which of two equally near decimals is taken. -/
inductive Tie where
  | even
  | up
  deriving DecidableEq

/-- A decimal in scientific form: its digits, and the power of ten of the first of them. -/
structure Scientific where
  digits : List Nat
  exponent : Int
  deriving DecidableEq

/-- A positive double: a significand times a power of two.  Below a power of two the doubles lie
twice as close, which `closeBelow` records. -/
structure Dyadic where
  significand : Nat
  exponent : Int
  closeBelow : Bool
  deriving DecidableEq

namespace Dyadic

/-- The double with the given bits, of which the sign is ignored. -/
def ofBits (bits : Nat) : Dyadic :=
  let fraction := bits % 0x10000000000000
  let biased := bits / 0x10000000000000 % 0x800
  if biased = 0 then ⟨fraction, -1074, false⟩
  else ⟨0x10000000000000 + fraction, (biased : Int) - 1075, fraction = 0 ∧ 1 < biased⟩

/-- The power of ten that the double lies at or above, and below ten times of which it lies. -/
def magnitude (x : Dyadic) : Int :=
  let numerator := x.significand * Nat.pow 2 x.exponent.toNat
  let denominator := Nat.pow 2 (-x.exponent).toNat
  if denominator ≤ numerator then (Decimal.digits (numerator / denominator)).length - 1
  else -(Decimal.digits ((denominator - 1) / numerator)).length

/-- A quarter of the last binary place, on a scale that makes it and the grid of exponent `p`
integers. -/
def gridScale (x : Dyadic) (p : Int) : Nat :=
  Nat.pow 2 (x.exponent - 2).toNat * Nat.pow 10 (-p).toNat

/-- The distance of neighbours on the grid of exponent `p`, on the same scale. -/
def gridUnit (x : Dyadic) (p : Int) : Nat :=
  Nat.pow 2 (2 - x.exponent).toNat * Nat.pow 10 p.toNat

/-- The point of the grid of exponent `p` that stands for the double, as a multiple of `10 ^ p`, if
there is one.  On the common scale a multiple `n` lies at `n * unit`, the double at `centre`, and
the reals that round to the double lie from `lowest` to `highest`. -/
def onGrid (tie : Tie) (x : Dyadic) (p : Int) : Option Nat :=
  let scale := x.gridScale p
  let unit := x.gridUnit p
  let centre := 4 * x.significand * scale
  let lowest := (4 * x.significand - if x.closeBelow then 1 else 2) * scale
  let highest := (4 * x.significand + 2) * scale
  let endsBelong := x.significand % 2 = 0
  let below := centre / unit
  let above := below + 1
  let hasBelow := lowest < below * unit ∨ endsBelong ∧ lowest = below * unit
  let hasAbove := above * unit < highest ∨ endsBelong ∧ above * unit = highest
  if hasBelow ∧ hasAbove then
    let fromBelow := centre - below * unit
    let fromAbove := above * unit - centre
    if fromBelow < fromAbove then some below
    else if fromAbove < fromBelow then some above
    else match tie with
      | .up => some above
      | .even => some (if below % 2 = 0 then below else above)
  else if hasBelow then some below
  else if hasAbove then some above
  else none

/-- Removes the zeros at the end of a list of digits. -/
def dropFinalZeros (ds : List Nat) : List Nat := (ds.reverse.dropWhile (· == 0)).reverse

/-- The decimal `n * 10 ^ p` in scientific form. -/
def scientific (n : Nat) (p : Int) : Scientific :=
  let ds := Decimal.digits n
  ⟨dropFinalZeros ds, p + ds.length - 1⟩

/-- Looks for a point on the grid of exponent `p` and on the finer ones after it. -/
def searchFrom (tie : Tie) (x : Dyadic) : Nat → Int → Scientific
  | 0, p => scientific (4 * x.significand * x.gridScale p / x.gridUnit p) p
  | grids + 1, p =>
    match x.onGrid tie p with
    | some n => scientific n p
    | none => searchFrom tie x grids (p - 1)

/-- The shortest decimal of a positive double. -/
def shortest (tie : Tie) (x : Dyadic) : Scientific := x.searchFrom tie 17 x.magnitude

end Dyadic

end Intake.Decimal

import ShaderStack.Number.Decimal

/-! The shortest decimal that reads back as a given floating-point number. -/
namespace ShaderStack

/-- The positive rationals that round to one magnitude, over the denominator `den`. -/
structure RoundingInterval where
  low : Nat
  value : Nat
  high : Nat
  den : Nat
  closed : Bool

namespace RoundingInterval

/-- The gap below a power of two is half as wide as the one above it. The bounds
round to `magnitude` exactly when its significand is even. -/
def ofMagnitude (format : BinaryFormat) (magnitude : Nat) : RoundingInterval :=
  let significand := format.significand magnitude
  let unit := Nat.pow 2 (format.binade magnitude)
  let below :=
    if significand = Nat.pow 2 format.fractionBits ∧ format.binade magnitude ≠ 0 then unit
    else 2 * unit
  let value := 4 * significand * unit
  { low := value - below
    value
    high := value + 2 * unit
    den := 4 * Nat.pow 2 format.scale
    closed := significand % 2 = 0 }

/-- Whether `num / den'` rounds to the magnitude, for both sides over one denominator. -/
def holds (i : RoundingInterval) (num den : Nat) : Bool :=
  let x := num * i.den
  if i.closed then i.low * den ≤ x && x ≤ i.high * den
  else i.low * den < x && x < i.high * den

/-- The `p` with `10 ^ (p - 1) ≤ value < 10 ^ p`. -/
def magnitudeOfTen (i : RoundingInterval) : Int :=
  if i.den ≤ i.value then (Decimal.digits (i.value / i.den)).length
  else
    match (List.range 400).find? fun k => i.den ≤ i.value * Nat.pow 10 (k + 1) with
    | some k => - (k : Int)
    | none => -400

/-- The better of the two neighbours of the value on the grid `10 ^ exponent`; of two equally near
ones the larger. -/
def nearestOn (i : RoundingInterval) (exponent : Int) : Option Nat :=
  let (up, down) :=
    if 0 ≤ exponent then (Nat.pow 10 exponent.toNat, 1) else (1, Nat.pow 10 (-exponent).toNat)
  let below := i.value * down / (i.den * up)
  let above := below + 1
  match i.holds (below * up) down, i.holds (above * up) down with
  | true, true =>
    let twice := 2 * (i.value * down)
    if twice < (below + above) * (i.den * up) then some below else some above
  | true, false => some below
  | false, true => some above
  | false, false => none

/-- Coefficient and exponent of the first grid, from coarse to fine, with a hit. -/
def shortest (i : RoundingInterval) : Nat × Int :=
  let top := i.magnitudeOfTen
  let grid (n : Nat) : Option (Nat × Int) :=
    (i.nearestOn (top - (n + 1))).map fun coefficient => (coefficient, top - (n + 1))
  match (List.range 17).findSome? grid with
  | some hit => hit
  | none => (0, 0)

end RoundingInterval

/-- The fewest digits that read back, positional, no point in a whole number. -/
def BinaryFormat.text (format : BinaryFormat) (negative : Bool) (magnitude : Nat) : String :=
  let sign := if negative then "-" else ""
  if format.infinity < magnitude then "NaN"
  else if magnitude = format.infinity then sign ++ "inf"
  else if magnitude = 0 then sign ++ "0"
  else
    let (coefficient, exponent) := (RoundingInterval.ofMagnitude format magnitude).shortest
    sign ++ Decimal.positional coefficient exponent

end ShaderStack

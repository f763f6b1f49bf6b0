import ShaderStack.Number.Rounding

/-! Decimal literals, read and written exactly. -/
namespace ShaderStack

/-- The number `coefficient * 10 ^ exponent`, with a sign that zero keeps. -/
structure Decimal where
  negative : Bool
  coefficient : Nat
  exponent : Int
  deriving DecidableEq, Repr

namespace Decimal

def digitValue (c : Char) : Nat := c.toNat - '0'.toNat

/-- The value of a run of decimal digits. -/
def natOfDigits (digits : List Char) : Nat :=
  digits.foldl (fun total c => 10 * total + digitValue c) 0

/-- A literal from its digit runs before and after the point and its exponent. -/
def ofDigits (negative : Bool) (whole fraction : List Char) (exponent : Int) : Decimal :=
  ⟨negative, natOfDigits (whole ++ fraction), exponent - fraction.length⟩

def digits (n : Nat) : List Char := Nat.toDigits 10 n

/-- Optional sign of a literal. -/
def takeSign : List Char → Bool × List Char
  | '-' :: rest => (true, rest)
  | '+' :: rest => (false, rest)
  | rest => (false, rest)

/-- The exponent part of a literal, up to the end of the text. -/
def exponent? : List Char → Option Int
  | [] => some 0
  | c :: rest =>
    if c = 'e' ∨ c = 'E' then
      let (negative, ds) := takeSign rest
      if ds.isEmpty || !ds.all Char.isDigit then none
      else some (if negative then - (natOfDigits ds : Int) else natOfDigits ds)
    else none

/-- Reads a sign, digits with an optional point, and an optional exponent. There is a digit
before or after the point. -/
def ofText? (text : List Char) : Option Decimal := do
  let (negative, rest) := takeSign text
  let whole := rest.takeWhile Char.isDigit
  let rest := rest.dropWhile Char.isDigit
  let (fraction, rest) :=
    match rest with
    | '.' :: more => (more.takeWhile Char.isDigit, more.dropWhile Char.isDigit)
    | _ => ([], rest)
  if whole.isEmpty && fraction.isEmpty then none
  else return ofDigits negative whole fraction (← exponent? rest)

/-- No supported format has a finite number from `10 ^ 400` on. The coefficient is not zero. -/
def isHuge (d : Decimal) : Bool :=
  decide ((digits d.coefficient).length + d.exponent > 400)

/-- Every supported format rounds numbers below `10 ^ (-400)` to zero. -/
def isTiny (d : Decimal) : Bool :=
  decide ((digits d.coefficient).length + d.exponent < -400)

/-- The magnitude nearest to the literal, ties to even. -/
def magnitude (format : BinaryFormat) (d : Decimal) : Nat :=
  if d.coefficient = 0 || d.isTiny then 0
  else if d.isHuge then format.infinity
  else if 0 ≤ d.exponent then format.round (d.coefficient * Nat.pow 10 d.exponent.toNat) 1
  else format.round d.coefficient (Nat.pow 10 (-d.exponent).toNat)

/-- Without trailing zeros in the coefficient; `fuel` bounds their number. -/
def dropTrailingZeros : Nat → Nat → Int → Nat × Int
  | 0, coefficient, exponent => (coefficient, exponent)
  | fuel + 1, coefficient, exponent =>
    if coefficient ≠ 0 ∧ coefficient % 10 = 0 then
      dropTrailingZeros fuel (coefficient / 10) (exponent + 1)
    else (coefficient, exponent)

/-- Positional spelling of `coefficient * 10 ^ exponent`: never an exponent, and no
point in a whole number. -/
def positional (coefficient : Nat) (exponent : Int) : String :=
  let (coefficient, exponent) :=
    dropTrailingZeros (digits coefficient).length coefficient exponent
  let ds := digits coefficient
  if 0 ≤ exponent then String.ofList (ds ++ List.replicate exponent.toNat '0')
  else
    let places := (-exponent).toNat
    if places < ds.length then
      String.ofList (ds.take (ds.length - places) ++ '.' :: ds.drop (ds.length - places))
    else String.ofList ('0' :: '.' :: (List.replicate (places - ds.length) '0' ++ ds))

/-- `num / den` with exactly `places` digits after the point, a half to the even neighbour. -/
def fixed (places num den : Nat) : String :=
  let scaled := roundHalfEven (num * Nat.pow 10 places) den
  let ds := digits scaled
  let padded := List.replicate (places + 1 - ds.length) '0' ++ ds
  let cut := padded.length - places
  String.ofList (padded.take cut ++ '.' :: padded.drop cut)

end Decimal
end ShaderStack

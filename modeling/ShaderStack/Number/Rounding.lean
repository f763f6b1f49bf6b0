/-! Rounding of exact quotients to binary floating-point magnitudes.

A finite magnitude is counted in units of the least positive number of its
format, so subnormal and normal numbers need no separate treatment: the bit
pattern of `m` significand units in binade `s` is `s * 2 ^ fractionBits + m`. -/
namespace ShaderStack

/-- The integer nearest to `num / den`; a midpoint goes to the even neighbour. -/
def roundHalfEven (num den : Nat) : Nat :=
  let quotient := num / den
  let twice := 2 * (num % den)
  if twice < den then quotient
  else if den < twice then quotient + 1
  else quotient + quotient % 2

/-- The integer nearest to `num / den`; a midpoint goes up. -/
def roundHalfUp (num den : Nat) : Nat := (2 * num + den) / (2 * den)

/-- Widths of the two fields below the sign bit. -/
structure BinaryFormat where
  fractionBits : Nat
  exponentBits : Nat
  deriving DecidableEq, Repr

namespace BinaryFormat

def single : BinaryFormat := ⟨23, 8⟩

def double : BinaryFormat := ⟨52, 11⟩

/-- The least positive number is `2 ^ (-scale)`. -/
def scale (format : BinaryFormat) : Nat :=
  Nat.pow 2 (format.exponentBits - 1) - 2 + format.fractionBits

/-- The magnitude that stands for infinity; larger ones are not numbers. -/
def infinity (format : BinaryFormat) : Nat :=
  (Nat.pow 2 format.exponentBits - 1) * Nat.pow 2 format.fractionBits

/-- How many times the significand of `magnitude` is doubled. -/
def binade (format : BinaryFormat) (magnitude : Nat) : Nat :=
  magnitude / Nat.pow 2 format.fractionBits - 1

/-- The integer that is doubled `binade` times to give the value in least units. -/
def significand (format : BinaryFormat) (magnitude : Nat) : Nat :=
  let fraction := magnitude % Nat.pow 2 format.fractionBits
  if magnitude < Nat.pow 2 format.fractionBits then fraction
  else Nat.pow 2 format.fractionBits + fraction

/-- The value of a finite magnitude, in units of the least positive number. -/
def units (format : BinaryFormat) (magnitude : Nat) : Nat :=
  format.significand magnitude * Nat.pow 2 (format.binade magnitude)

/-- The magnitude nearest to `num / den`, ties to even, infinity on overflow. -/
def round (format : BinaryFormat) (num den : Nat) : Nat :=
  let scaled := num * Nat.pow 2 format.scale
  let shift := (scaled / den).log2 - format.fractionBits
  let magnitude :=
    shift * Nat.pow 2 format.fractionBits + roundHalfEven scaled (den * Nat.pow 2 shift)
  min magnitude format.infinity

end BinaryFormat
end ShaderStack

import ShaderStack.Number.Shortest

/-! Single-precision numbers by their bits, with the conversions that the library needs
computed exactly. -/
namespace ShaderStack

/-- A binary32 number. Equality is equality of bits. -/
structure Single where
  bits : UInt32
  deriving DecidableEq, Repr, Inhabited

namespace Single

/-- The weight of the highest bit, which holds the sign. -/
def signBit : Nat := 0x80000000

def ofMagnitude (negative : Bool) (magnitude : Nat) : Single :=
  ⟨UInt32.ofNat (if negative then signBit + magnitude else magnitude)⟩

def zero : Single := ⟨0⟩
def one : Single := ⟨0x3f800000⟩
def nan : Single := ⟨0x7fc00000⟩
def infinity : Single := ⟨0x7f800000⟩

def isNegative (x : Single) : Bool := signBit ≤ x.bits.toNat

def magnitude (x : Single) : Nat := x.bits.toNat % signBit

def isNaN (x : Single) : Bool := BinaryFormat.single.infinity < x.magnitude

def isFinite (x : Single) : Bool := x.magnitude < BinaryFormat.single.infinity

def isZero (x : Single) : Bool := x.magnitude = 0

/-- A number above zero, infinity included. -/
def isPositive (x : Single) : Bool := !x.isNaN && !x.isZero && !x.isNegative

/-- Absolute value in units of `2 ^ (-149)`. -/
def units (x : Single) : Nat := BinaryFormat.single.units x.magnitude

def unitsPerOne : Nat := Nat.pow 2 BinaryFormat.single.scale

/-- The number nearest to a quotient, ties to even. -/
def ofRatio (negative : Bool) (num den : Nat) : Single :=
  ofMagnitude negative (BinaryFormat.single.round num den)

def ofInt (n : Int) : Single := ofRatio (decide (n < 0)) n.natAbs 1

/-- A decimal literal read directly. -/
def ofDecimal (d : Decimal) : Single :=
  ofMagnitude d.negative (d.magnitude BinaryFormat.single)

/-- A finite or infinite binary64 magnitude, narrowed. -/
def ofDoubleMagnitude (negative : Bool) (magnitude : Nat) : Single :=
  if BinaryFormat.double.infinity ≤ magnitude then
    ofMagnitude negative BinaryFormat.single.infinity
  else
    ofRatio negative (BinaryFormat.double.units magnitude) (Nat.pow 2 BinaryFormat.double.scale)

/-- A decimal literal rounded to double precision first and narrowed after that. -/
def ofDecimalViaDouble (d : Decimal) : Single :=
  ofDoubleMagnitude d.negative (d.magnitude BinaryFormat.double)

/-- The number nearest to `1 / x`, for `x` finite and above zero. -/
def reciprocal (x : Single) : Single := ofRatio x.isNegative unitsPerOne x.units

/-- The number nearest to the product of two finite numbers. -/
def mulFinite (x y : Single) : Single :=
  ofRatio (x.isNegative != y.isNegative) (x.units * y.units) (unitsPerOne * unitsPerOne)

/-- A unit-range channel as a byte: clamped to `[0, 1]`, times 255 in single precision, a half
away from zero. What is not a number gives zero. -/
def toChannelByte (x : Single) : UInt8 :=
  if x.isNaN || x.isNegative then 0
  else if one.magnitude ≤ x.magnitude then 255
  else
    let scaled := mulFinite x (ofInt 255)
    UInt8.ofNat (roundHalfUp scaled.units unitsPerOne)

/-- Little-endian bytes. -/
def bytes (x : Single) : List UInt8 :=
  [x.bits.toUInt8, (x.bits >>> 8).toUInt8, (x.bits >>> 16).toUInt8, (x.bits >>> 24).toUInt8]

/-- Seconds as whole nanoseconds, a half to the even neighbour. -/
def toNanoseconds (x : Single) : Nat := roundHalfEven (x.units * 1000000000) unitsPerOne

def signText (x : Single) : String := if x.isNegative then "-" else ""

def text (x : Single) : String := BinaryFormat.single.text x.isNegative x.magnitude

/-- Exactly `places` decimals. A number that rounds to zero loses its sign. -/
def fixedText (places : Nat) (x : Single) : String :=
  if x.isNaN then "NaN"
  else if !x.isFinite then x.signText ++ "inf"
  else
    let scaled := roundHalfEven (x.units * Nat.pow 10 places) unitsPerOne
    (if scaled = 0 then "" else x.signText) ++ Decimal.fixed places x.units unitsPerOne

end Single
end ShaderStack

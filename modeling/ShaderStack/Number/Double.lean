import ShaderStack.Number.Single

/-! Double-precision numbers, as far as configuration files need them. -/
namespace ShaderStack

/-- A binary64 number. A magnitude above infinity is not a number. -/
structure Double where
  negative : Bool
  magnitude : Nat
  deriving DecidableEq, Repr

namespace Double

def infinity : Double := ⟨false, BinaryFormat.double.infinity⟩

def nan : Double := ⟨false, BinaryFormat.double.infinity + 1⟩

def isNaN (x : Double) : Bool := BinaryFormat.double.infinity < x.magnitude

def isFinite (x : Double) : Bool := x.magnitude < BinaryFormat.double.infinity

def withSign (negative : Bool) (x : Double) : Double := { x with negative }

/-- The number nearest to a decimal literal, ties to even. -/
def ofDecimal (d : Decimal) : Double := ⟨d.negative, d.magnitude BinaryFormat.double⟩

/-- The nearest single-precision number. -/
def toSingle (x : Double) : Single :=
  if x.isNaN then .nan else .ofDoubleMagnitude x.negative x.magnitude

/-- The fewest digits that read back; a whole number ends in a point and a zero. -/
def textWithPoint (x : Double) : String :=
  let text := BinaryFormat.double.text x.negative x.magnitude
  if x.isFinite && !text.contains '.' then text ++ ".0" else text

end Double
end ShaderStack

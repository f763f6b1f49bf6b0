import ShaderStack.Shader.DataType
import ShaderStack.Number.Single

/-! Values of uniform inputs and the entry points they are pushed through. -/
namespace ShaderStack

/-- Each constructor holds exactly the scalars of its data type. -/
inductive UniformValue
  | reals (arity : Arity) (components : Vector Single arity.toNat)
  | integers (arity : Arity) (components : Vector Int32 arity.toNat)
  | booleans (arity : Arity) (components : Vector Bool arity.toNat)
  | matrix (dimension : Dimension) (entries : Vector Single (dimension.toNat * dimension.toNat))
  deriving DecidableEq

namespace UniformValue

def dataType : UniformValue → DataType
  | reals n _ => .vector .real n
  | integers n _ => .vector .integer n
  | booleans n _ => .vector .boolean n
  | matrix n _ => .matrix n

/-- Payload of real vectors and matrices. -/
def singles? : UniformValue → Option (List Single)
  | reals _ v => some v.toList
  | matrix _ v => some v.toList
  | _ => none

/-- Payload of integer and boolean vectors; a boolean is 0 or 1. -/
def integers? : UniformValue → Option (List Int32)
  | integers _ v => some v.toList
  | booleans _ v => some (v.toList.map fun b => if b then 1 else 0)
  | _ => none

def ofSingle (x : Single) : UniformValue := reals .one #v[x]

def ofInt32 (n : Int32) : UniformValue := integers .one #v[n]

end UniformValue

/-- Scalars on their way to one uniform location. -/
inductive UniformPush
  | floats (components : Nat) (values : List Single)
  | integers (components : Nat) (values : List Int32)
  | matrix (dimension : Nat) (values : List Single)
  deriving DecidableEq, Repr

/-- Entry point of a uniform, chosen once per token. -/
inductive UniformSetter
  | floats (components : Nat)
  | integers (components : Nat)
  | matrix (dimension : Nat)
  | textureUnit
  deriving DecidableEq, Repr

namespace UniformSetter

def forType : DataType → UniformSetter
  | .sampler2D => textureUnit
  | .matrix n => matrix n.toNat
  | .vector .real n => floats n.toNat
  | .vector _ n => integers n.toNat

/-- What `value` sends through the setter; a value of another shape sends nothing. -/
def push? : UniformSetter → UniformValue → Option UniformPush
  | floats n, value => do
    let values ← value.singles?
    if values.length = n then some (.floats n values) else none
  | matrix n, value => do
    let values ← value.singles?
    if values.length = n * n then some (.matrix n values) else none
  | integers n, value => do
    let values ← value.integers?
    if values.length = n then some (.integers n values) else none
  | textureUnit, .integers .one unit => some (.integers 1 unit.toList)
  | textureUnit, _ => none

end UniformSetter
end ShaderStack

/-! Shader data types and the kinds of host elements that back them. -/
namespace ShaderStack

inductive Scalar
  | real
  | integer
  | boolean
  deriving DecidableEq, Repr

/-- How many scalars a vector holds; a single scalar is the vector of arity one. -/
inductive Arity
  | one
  | two
  | three
  | four
  deriving DecidableEq, Repr

def Arity.toNat : Arity → Nat
  | .one => 1
  | .two => 2
  | .three => 3
  | .four => 4

inductive Dimension
  | two
  | three
  | four
  deriving DecidableEq, Repr

def Dimension.toNat : Dimension → Nat
  | .two => 2
  | .three => 3
  | .four => 4

inductive DataType
  | vector (scalar : Scalar) (arity : Arity)
  | matrix (dimension : Dimension)
  | sampler2D
  deriving DecidableEq, Repr

namespace DataType

def all : List DataType :=
  let arities := [Arity.one, .two, .three, .four]
  arities.map (vector .real) ++ arities.map (vector .integer) ++ arities.map (vector .boolean) ++
    [matrix .two, matrix .three, matrix .four, sampler2D]

/-- The spelling in declarations. -/
def name : DataType → String
  | vector .real .one => "float"
  | vector .integer .one => "int"
  | vector .boolean .one => "bool"
  | vector .real n => "vec" ++ toString n.toNat
  | vector .integer n => "ivec" ++ toString n.toNat
  | vector .boolean n => "bvec" ++ toString n.toNat
  | matrix n => "mat" ++ toString n.toNat
  | sampler2D => "sampler2D"

def ofName? (name : String) : Option DataType := all.find? fun type => type.name == name

/-- Scalars in one value. A sampler is one unit number. -/
def components : DataType → Nat
  | vector _ n => n.toNat
  | matrix n => n.toNat * n.toNat
  | sampler2D => 1

def isInteger : DataType → Bool
  | vector .integer _ => true
  | _ => false

def isBoolean : DataType → Bool
  | vector .boolean _ => true
  | _ => false

def isMatrix : DataType → Bool
  | matrix _ => true
  | _ => false

/-- Integer and boolean inputs take their elements unconverted. -/
def keepsIntegers (type : DataType) : Bool := type.isInteger || type.isBoolean

def dimension? : DataType → Option Nat
  | matrix n => some n.toNat
  | _ => none

end DataType

/-- Element type of a host array. -/
inductive ElementKind
  | f32
  | i8
  | i16
  | i32
  | u8
  | u16
  | u32
  deriving DecidableEq, Repr

namespace ElementKind

def all : List ElementKind := [f32, i8, i16, i32, u8, u16, u32]

def name : ElementKind → String
  | f32 => "f32"
  | i8 => "i8"
  | i16 => "i16"
  | i32 => "i32"
  | u8 => "u8"
  | u16 => "u16"
  | u32 => "u32"

def ofName? (name : String) : Option ElementKind := all.find? fun kind => kind.name == name

def byteSize : ElementKind → Nat
  | i8 | u8 => 1
  | i16 | u16 => 2
  | f32 | i32 | u32 => 4

def isInteger (kind : ElementKind) : Bool := kind != f32

end ElementKind

/-- Element type of an index buffer. -/
inductive IndexType
  | u8
  | u16
  | u32
  deriving DecidableEq, Repr

namespace IndexType

def all : List IndexType := [u8, u16, u32]

def name : IndexType → String
  | u8 => "u8"
  | u16 => "u16"
  | u32 => "u32"

def ofName? (name : String) : Option IndexType := all.find? fun type => type.name == name

/-- Only unsigned elements can be indices. -/
def ofElement? : ElementKind → Option IndexType
  | .u8 => some u8
  | .u16 => some u16
  | .u32 => some u32
  | _ => none

end IndexType

/-- Buffer binding point: per-vertex data or indices. -/
inductive BufferTarget
  | array
  | elementArray
  deriving DecidableEq, Repr

namespace BufferTarget

def name : BufferTarget → String
  | array => "array"
  | elementArray => "element-array"

def ofName? (name : String) : Option BufferTarget :=
  [array, elementArray].find? fun target => target.name == name

end BufferTarget

/-- Primitive topology of a draw. -/
inductive DrawMode
  | points
  | lines
  | lineStrip
  | lineLoop
  | triangles
  | triangleStrip
  | triangleFan
  deriving DecidableEq, Repr

namespace DrawMode

def all : List DrawMode :=
  [points, lines, lineStrip, lineLoop, triangles, triangleStrip, triangleFan]

def name : DrawMode → String
  | points => "points"
  | lines => "lines"
  | lineStrip => "line-strip"
  | lineLoop => "line-loop"
  | triangles => "triangles"
  | triangleStrip => "triangle-strip"
  | triangleFan => "triangle-fan"

def ofName? (name : String) : Option DrawMode := all.find? fun mode => mode.name == name

end DrawMode

end ShaderStack

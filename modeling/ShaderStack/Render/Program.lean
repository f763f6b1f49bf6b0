import ShaderStack.Render.UpdateQueue
import ShaderStack.Render.Redraw
import ShaderStack.Shader.Compiled

/-! Programs as data: their bindings, the updates that run before each draw, and the draw. -/
namespace ShaderStack

inductive ShaderStage
  | vertex
  | fragment
  deriving DecidableEq, Repr

def ShaderStage.name : ShaderStage → String
  | vertex => "vertex"
  | fragment => "fragment"

/-- Why a token could not be attached to its input. -/
inductive MissingReason
  /-- Declared in the source, but optimized out. -/
  | elided
  | undeclared
  deriving DecidableEq, Repr

def MissingReason.name : MissingReason → String
  | elided => "elided"
  | undeclared => "undeclared"

/-- A binding that was skipped. The draw goes on without it. -/
structure MissingBinding where
  name : String
  type : TokenType
  stage : ShaderStage
  reason : MissingReason
  deriving DecidableEq, Repr

/-- Count and type of the indices last uploaded for a program. -/
structure IndexBuffer where
  count : Nat
  type : IndexType
  deriving DecidableEq, Repr

/-- Uploads a vertex buffer when the accessor gives another allocation. -/
structure AttributeUpdate where
  location : Location
  buffer : Handle
  type : DataType
  value : Accessor HostArray
  uploaded : HostArray

/-- Uploads indices when the accessor gives another allocation. -/
structure ElementsUpdate where
  buffer : Handle
  value : Accessor HostArray
  uploaded : HostArray

/-- Pushes the current value on every flush. -/
structure UniformUpdate where
  location : Location
  setter : UniformSetter
  value : Accessor UniformValue

/-- Binds the texture of the current source to its unit, and uploads pixels when they are another
allocation. Each texture of a surface is subscribed to once. -/
structure SamplerUpdate where
  location : Location
  unit : UInt32
  texture : Handle
  options : SamplerOptions
  value : Accessor TextureSource
  uploaded : Option HostArray
  subscribed : List Handle
  redraw : RedrawKey

inductive Update
  | attributes (u : AttributeUpdate)
  | elements (u : ElementsUpdate)
  | uniform (u : UniformUpdate)
  | sampler (u : SamplerUpdate)

/-- Objects that binding allocates for one program. -/
inductive BoundObject
  | buffer (handle : Handle)
  | texture (handle : Handle)
  deriving DecidableEq, Repr

def BoundObject.deletion : BoundObject → Command
  | buffer h => .deleteBuffer h
  | texture h => .deleteTexture h

/-- Everything that binding writes for one program. -/
structure Bindings where
  program : Handle
  vertexArray : Handle
  queue : UpdateQueue Update := {}
  objects : List BoundObject := []
  nextUnit : UInt32 := 0
  elements : Option IndexBuffer := none
  missing : List MissingBinding := []
  /-- Topologies that attributes suggest, in binding order. -/
  modes : List DrawMode := []

/-- Which vertices a draw consumes. An index token takes over from listed indices. -/
inductive Draw
  | arrays (first count : Int32)
  | elements (indices : List UInt32)
  deriving DecidableEq, Repr

def Draw.ofCount (count : Int32) : Draw := arrays 0 count

structure ProgramConfig where
  draw : Draw
  /-- Left open, the first attribute that suggests a topology decides, then triangles. -/
  mode : Option DrawMode := none
  indices : Option Token := none
  /-- Whether an identical pair of templates shares one linked program. -/
  cached : Bool := false
  /-- A label for the callback between the updates and the draw. -/
  hook : Option String := none

/-- Draws indexed from a token. -/
def ProgramConfig.withIndices (token : Token) (c : ProgramConfig) : ProgramConfig :=
  let draw :=
    match c.draw with
    | .arrays _ _ => .elements []
    | .elements indices => .elements indices
  { c with draw, indices := some token }

/-- A linked program with its bindings and its draw. -/
structure Program where
  bindings : Bindings
  mode : DrawMode
  draw : Draw
  hook : Option String
  /-- A cached program belongs to the cache, not to this value. -/
  owned : Bool

def Program.handle (p : Program) : Handle := p.bindings.program

end ShaderStack

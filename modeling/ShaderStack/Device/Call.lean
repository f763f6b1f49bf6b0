import ShaderStack.Device.RenderError

/-! Calls on a graphics device, sorted by the kind of answer they get.

Allocations answer with a handle or fail, lookups with a location if there is one, probes with
yes or no. Commands have no answer. -/
namespace ShaderStack

/-- A raw object name. -/
abbrev Handle := Nat

abbrev Location := Nat

inductive Allocation
  | program (vertex fragment : String)
  | vertexArray
  | buffer
  | texture
  | framebuffer
  | renderbuffer
  deriving DecidableEq, Repr

def Allocation.method : Allocation → String
  | program _ _ => "create_program"
  | vertexArray => "create_vertex_array"
  | buffer => "create_buffer"
  | texture => "create_texture"
  | framebuffer => "create_framebuffer"
  | renderbuffer => "create_renderbuffer"

inductive Lookup
  | attributeLocation (program : Handle) (name : String)
  | uniformLocation (program : Handle) (name : String)
  deriving DecidableEq, Repr

def Lookup.method : Lookup → String
  | attributeLocation _ _ => "attribute_location"
  | uniformLocation _ _ => "uniform_location"

inductive Probe
  | framebufferComplete
  | enableExtension (name : String)
  deriving DecidableEq, Repr

def Probe.method : Probe → String
  | framebufferComplete => "framebuffer_complete"
  | enableExtension _ => "enable_extension"

/-- How a vertex attribute reads its buffer. Integer attributes keep their values unconverted. -/
structure VertexLayout where
  components : Int32
  element : ElementKind
  integer : Bool
  deriving DecidableEq, Repr

def VertexLayout.stride (l : VertexLayout) : Int32 :=
  l.components * Int32.ofNat l.element.byteSize

structure Color where
  red : Single
  green : Single
  blue : Single
  alpha : Single
  deriving DecidableEq, Repr

namespace Color

def transparent : Color := ⟨.zero, .zero, .zero, .zero⟩

def opaqueBlack : Color := ⟨.zero, .zero, .zero, .one⟩

def channels (c : Color) : List Single := [c.red, c.green, c.blue, c.alpha]

/-- Channel of a texel component; formats have at most four. -/
def channel (c : Color) : Nat → Single
  | 0 => c.red
  | 1 => c.green
  | 2 => c.blue
  | _ => c.alpha

end Color

/-- A readback into a buffer of `bytes` bytes. -/
structure PixelRead where
  x : Int32
  y : Int32
  width : UInt32
  height : UInt32
  format : TextureFormat
  pixelType : PixelType
  bytes : Nat
  deriving DecidableEq, Repr

/-- What a readback stores at each offset of its buffer; elsewhere the buffer keeps its content. -/
abbrev Readback := Nat → Option UInt8

inductive Command
  | deleteProgram (program : Handle)
  | useProgram (program : Option Handle)
  | bindVertexArray (vertexArray : Option Handle)
  | deleteVertexArray (vertexArray : Handle)
  | bindBuffer (target : BufferTarget) (buffer : Option Handle)
  /-- Replaces the contents of the buffer bound to the target. -/
  | bufferData (target : BufferTarget) (data : List UInt8)
  | deleteBuffer (buffer : Handle)
  /-- Enables the location and points it at the bound array buffer. -/
  | vertexPointer (location : Location) (layout : VertexLayout)
  | uniform (location : Location) (push : UniformPush)
  | activeTexture (unit : UInt32)
  | bindTexture (texture : Option Handle)
  | textureParameters (parameters : TextureParameters)
  /-- Uploads the bound texture's level zero, or only gives it storage. -/
  | textureImage (image : TextureImage) (pixels : Option (List UInt8))
  | deleteTexture (texture : Handle)
  | bindFramebuffer (framebuffer : Option Handle)
  | framebufferTexture (texture : Handle)
  | renderbufferStorage (renderbuffer : Handle) (internal : InternalFormat) (width height : UInt32)
  | framebufferRenderbuffer (renderbuffer : Handle)
  | deleteFramebuffer (framebuffer : Handle)
  | deleteRenderbuffer (renderbuffer : Handle)
  | viewport (x y : Int32) (width height : UInt32)
  | clear (color : Color) (depth : Single)
  | drawArrays (mode : DrawMode) (first count : Int32)
  | drawElements (mode : DrawMode) (count : Int32) (type : IndexType)
  deriving DecidableEq, Repr

/-- A callback into the host, which makes no device calls. -/
inductive Callback
  /-- A program's hook, between its updates and its draw. -/
  | programHook (program : String)
  | resized (listener : String) (width height : UInt32)
  | customClear
  | frameListener (index : Nat)
  deriving DecidableEq, Repr

/-- One thing that happened, with the answer if it was a question. -/
inductive Event
  | allocation (a : Allocation) (answer : Except RenderError Handle)
  | lookup (l : Lookup) (answer : Option Location)
  | probe (p : Probe) (answer : Bool)
  | command (c : Command)
  | read (r : PixelRead)
  | callback (c : Callback)

/-- A graphics device. Everything that the library knows of a device is in its answers. -/
class GraphicsDevice (δ : Type) where
  allocate : Allocation → δ → Except RenderError Handle × δ
  lookup : Lookup → δ → Option Location × δ
  probe : Probe → δ → Bool × δ
  command : Command → δ → δ
  read : PixelRead → δ → Readback × δ

end ShaderStack

import ShaderStack.Render.RenderTexture

/-! Stacks: ordered programs drawing into one surface.

Render-texture layers draw first, then the programs in the order in which they were added. -/
namespace ShaderStack

structure StackOptions where
  /-- Asks for rendering into 32-bit float targets. -/
  float : Bool := true
  halfFloat : Bool := false
  deriving DecidableEq, Repr

/-- Region and pixel format of a readback. An omitted size is that of the stack. -/
structure ReadConfig where
  x : Int32 := 0
  y : Int32 := 0
  width : Option UInt32 := none
  height : Option UInt32 := none
  format : TextureFormat := .rgba
  dataType : PixelType := .unsignedByte
  internalFormat : InternalFormat := .rgba8
  deriving DecidableEq, Repr

structure ReadTarget where
  framebuffer : Handle
  renderbuffer : Handle
  deriving DecidableEq, Repr

structure Stack where
  programs : List Program := []
  /-- Keys of render textures, each of which the stack holds. -/
  layers : List Nat := []
  /-- Readback targets by configuration with the size resolved. -/
  targets : List (ReadConfig × ReadTarget) := []
  cache : ProgramCache := {}
  resizeListeners : List String := []
  redraw : RedrawKey
  options : StackOptions
  width : UInt32
  height : UInt32

namespace Stack

variable {δ : Type} [GraphicsDevice δ]

/-- Extensions that the options ask for. A stack works without those that are missing. -/
def extensions (o : StackOptions) : List String :=
  (if o.float then ["EXT_color_buffer_float"] else []) ++
    (if o.halfFloat then ["EXT_color_buffer_half_float"] else [])

/-- A stack over a surface of the given size. A surface without a context is refused. -/
def make (supported : Bool) (width height : UInt32) (options : StackOptions) :
    Attempt δ Stack := do
  if !supported then throw .noContext
  (extensions options).forM fun name =>
    discard (Engine.probe (.enableExtension name) : Engine δ Bool)
  (Engine.command (.viewport 0 0 width height) : Engine δ Unit)
  let redraw ← (Engine.newKey : Engine δ Nat)
  return { redraw, options, width, height }

/-- Compiles a program for this stack without adding it. -/
def compile (s : Stack) (vertex fragment : CompiledShader) (config : ProgramConfig) :
    Engine δ (Except RenderError Program × Stack) := do
  let (result, cache) ← s.cache.compile s.redraw vertex fragment config
  return (result, { s with cache })

def add (program : Program) (s : Stack) : Stack :=
  { s with programs := s.programs ++ [program] }

/-- Renders a texture at the start of every frame; the stack becomes one of its holders. -/
def addLayer (key : Nat) (s : Stack) : Engine δ Stack := do
  RenderTexture.retain key
  return { s with layers := s.layers ++ [key] }

/-- Draws a frame into a framebuffer, or into the default one. Requests of layers that were drawn
are answered by the frame. -/
def renderTo (framebuffer : Option Handle) (width height : UInt32) (s : Stack) :
    Engine δ Stack := do
  if framebuffer.isSome then
    Engine.commands [.bindFramebuffer framebuffer, .viewport 0 0 width height]
  s.layers.forM fun key => RenderTexture.renderInto key framebuffer width height
  let programs ← Program.renderAll s.programs
  modify fun w =>
    let drawn := s.layers.filterMap fun key => w.textureOf? (.renderTexture key)
    w.setRequests s.redraw ((w.requests s.redraw).discard drawn)
  return { s with programs }

def render (s : Stack) : Engine δ Stack := s.renderTo none s.width s.height

/-- Clears to opaque black and depth one. -/
def clear : Engine δ Unit := Engine.command (.clear .opaqueBlack .one)

/-- Calls the listeners when the size changes. -/
def resize (width height : UInt32) (s : Stack) : Engine δ Stack := do
  if s.width = width ∧ s.height = height then return s
  Engine.command (.viewport 0 0 width height)
  s.resizeListeners.forM fun listener => Engine.callback (.resized listener width height)
  return { s with width, height }

def onResize (listener : String) (s : Stack) : Stack :=
  { s with resizeListeners := s.resizeListeners ++ [listener] }

/-- Whether something asked for a redraw; the requests are taken. -/
def takeRedrawRequest (s : Stack) : Engine δ Bool :=
  modifyGet fun w =>
    let (pending, requests) := (w.requests s.redraw).take
    (pending, w.setRequests s.redraw requests)

/-- Deletes programs, layers that nothing else holds, readback targets and cached programs. -/
def drop (s : Stack) : Engine δ Unit := do
  Program.dropAll s.programs
  s.layers.forM RenderTexture.release
  s.targets.forM fun (_, t) =>
    Engine.commands [.deleteFramebuffer t.framebuffer, .deleteRenderbuffer t.renderbuffer]
  s.cache.drop

end Stack
end ShaderStack

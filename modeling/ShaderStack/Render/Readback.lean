import ShaderStack.Render.Stack

/-! Reading a stack back: it is drawn into an offscreen target of the size that is read. -/
namespace ShaderStack

/-- Pixels that were read, by their count and bytes. -/
structure PixelBuffer where
  type : PixelType
  length : Nat
  /-- The byte at an offset; the buffer holds `length * type.byteSize` of them. -/
  byteAt : Nat → UInt8

namespace PixelBuffer

def isEmpty (p : PixelBuffer) : Bool := p.length = 0

/-- The word made of the bytes of one value, least significant first. -/
def wordAt (p : PixelBuffer) (index : Nat) : UInt32 :=
  (List.range p.type.byteSize).foldr
    (fun i word => word <<< 8 ||| (p.byteAt (index * p.type.byteSize + i)).toUInt32) 0

/-- The first values, as words. -/
def head (p : PixelBuffer) (count : Nat) : List UInt32 :=
  (List.range (min count p.length)).map p.wordAt

end PixelBuffer

namespace ReadConfig

/-- Byte targets are read as bytes and float targets as floats; luminance has no target. -/
def validate (c : ReadConfig) (width height : UInt32) : Except RenderError Unit :=
  if width = 0 ∨ height = 0 then .error (.readback (.emptyRegion width height))
  else if c.format = .luminance then .error (.readback .luminance)
  else
    match c.internalFormat.isFloat, c.dataType with
    | true, .float => .ok ()
    | false, .unsignedByte => .ok ()
    | _, _ => .error (.readback (.formatMismatch c.internalFormat c.dataType))

/-- The configuration with its size made explicit. -/
def resolve (c : ReadConfig) (width height : UInt32) : ReadConfig :=
  { c with width := some width, height := some height }

/-- Values in the buffer that a readback fills, in 64-bit arithmetic. -/
def bufferLength (c : ReadConfig) (width height : UInt32) : Nat :=
  (width.toUInt64 * height.toUInt64 * UInt64.ofNat c.format.components).toNat

end ReadConfig

namespace Stack

variable {δ : Type} [GraphicsDevice δ]

/-- A new target: a renderbuffer of the size that is read, in a framebuffer of its own. -/
def makeTarget (internal : InternalFormat) (width height : UInt32) : Attempt δ ReadTarget := do
  let renderbuffer ← Engine.allocate .renderbuffer
  (Engine.command (.renderbufferStorage renderbuffer internal width height) : Engine δ Unit)
  let framebuffer ←
    tryCatch (Engine.allocate .framebuffer) fun e => do
      (Engine.command (.deleteRenderbuffer renderbuffer) : Engine δ Unit)
      throw e
  (Engine.commands [.bindFramebuffer (some framebuffer), .framebufferRenderbuffer renderbuffer] :
    Engine δ Unit)
  let complete ← (Engine.probe .framebufferComplete : Engine δ Bool)
  if !complete then
    (Engine.commands
      [.bindFramebuffer none, .deleteFramebuffer framebuffer,
        .deleteRenderbuffer renderbuffer] : Engine δ Unit)
    throw (.resource (.incompleteReadback internal))
  return { framebuffer, renderbuffer }

/-- Binds the target of a configuration; it is made on first use. -/
def bindTarget (c : ReadConfig) (width height : UInt32) (s : Stack) :
    Attempt δ (Handle × Stack) := do
  let key := c.resolve width height
  match s.targets.lookup key with
  | some target =>
    (Engine.command (.bindFramebuffer (some target.framebuffer)) : Engine δ Unit)
    return (target.framebuffer, s)
  | none =>
    let target ← makeTarget c.internalFormat width height
    return (target.framebuffer, { s with targets := s.targets ++ [(key, target)] })

/-- Clears a target, draws the stack into it, reads it and returns to the default framebuffer.
The buffer holds zeros where the device stores nothing. -/
def read (c : ReadConfig) (s : Stack) : Attempt δ (PixelBuffer × Stack) := do
  let width := c.width.getD s.width
  let height := c.height.getD s.height
  c.validate width height
  let (framebuffer, s) ← s.bindTarget c width height
  (clear : Engine δ Unit)
  let s ← (s.renderTo (some framebuffer) width height : Engine δ Stack)
  let length := c.bufferLength width height
  let stored ← (Engine.readPixels
    { x := c.x, y := c.y, width, height, format := c.format, pixelType := c.dataType,
      bytes := length * c.dataType.byteSize } : Engine δ Readback)
  (Engine.commands [.bindFramebuffer none, .viewport 0 0 s.width s.height] : Engine δ Unit)
  return (⟨c.dataType, length, fun offset => (stored offset).getD 0⟩, s)

end Stack
end ShaderStack

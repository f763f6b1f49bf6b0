import ShaderStack.Render.Readback

/-! Fragment-shader computations over a typed input array.

The input is uploaded as a sampler, a body of shader text computes one output texel per input
texel over a full-screen quad, and the result is read back from a target of the same size. -/
namespace ShaderStack

/-- Shape of a computation. Open formats follow the input: bytes give bytes, all else floats. -/
structure ComputeConfig where
  width : Option UInt32 := none
  height : Option UInt32 := none
  /-- Channels of input and output. -/
  format : Option TextureFormat := none
  dataType : Option PixelType := none
  internalFormat : Option InternalFormat := none
  deriving DecidableEq, Repr

namespace ComputeConfig

def texelFormat (c : ComputeConfig) : TextureFormat := c.format.getD .red

def output (c : ComputeConfig) (element : ElementKind) : InternalFormat × PixelType :=
  let (internal, type) : InternalFormat × PixelType :=
    if element = .u8 then (.r8, .unsignedByte) else (.r32f, .float)
  (c.internalFormat.getD internal, c.dataType.getD type)

/-- Width and height of the output for an input. Open sizes are one row of all texels. -/
def dimensions (c : ComputeConfig) (input : HostArray) : Except RenderError (UInt32 × UInt32) :=
  let height := c.height.getD 1
  let texels := input.length / c.texelFormat.components
  let width := c.width.getD (UInt32.ofNat texels / max height 1)
  if width = 0 ∨ height = 0 then .error (.readback .emptyInput) else .ok (width, height)

end ComputeConfig

structure Computation where
  stack : Stack
  input : Accessor HostArray
  config : ComputeConfig

namespace Computation

variable {δ : Type} [GraphicsDevice δ]

/-- Two triangles that cover the whole target. -/
def quad : List Single :=
  let plus := Single.one
  let minus := Single.ofInt (-1)
  [minus, minus, plus, minus, minus, plus, minus, plus, plus, minus, plus, plus]

/-- Runs an authoring step; a refused token is a failed allocation. -/
def author (action : Authoring α) : Attempt δ α := do
  match ← (Engine.readHost action.run : Engine δ (Except TokenError α)) with
  | .ok a => return a
  | .error e => throw (.resource (.token e))

/-- The vertex stage passes the corners of the quad on. -/
def vertexParts (corners : Token) : List TemplatePart :=
  [.text "#version 300 es\nvoid main() \x7b gl_Position = vec4(", .token corners,
    .text ", 0.0, 1.0); \x7d"]

/-- The fragment stage writes what the body returns. -/
def fragmentParts (body : Template) : List TemplatePart :=
  [.text ("#version 300 es\nprecision highp float;\nout vec4 outColor;\n" ++
      "vec4 compute() \x7b"), .template body,
    .text "\x7d\nvoid main() \x7b outColor = compute(); \x7d"]

/-- A stack of its own for the program that draws the quad. -/
def install (supported : Bool) (width height : UInt32) (vertex fragment : CompiledShader) :
    Attempt δ Stack := do
  let stack ← Stack.make supported width height {}
  let (result, stack) ← (stack.compile vertex fragment { draw := .ofCount 6 } :
    Engine δ (Except RenderError Program × Stack))
  let program ← (result : Except RenderError Program)
  return stack.add program

/-- Builds the computation. The body is made from the input's sampler. -/
def make (supported : Bool) (width height : UInt32) (input : Accessor HostArray)
    (body : Token → List TemplatePart) (config : ComputeConfig) : Attempt δ Computation := do
  let first ← (Engine.readHost input : Engine δ HostArray)
  let (_, texelRows) ← config.dimensions first
  let sampler ← author
    (Token.sampler (do return .pixels (← input))
      { width := config.width, height := some texelRows, format := config.texelFormat })
  let corners ← (Engine.readHost (Host.allocate (.ofSingles quad)) : Engine δ HostArray)
  let quadToken ← author (Token.vertexAttribute (.vector .real .two) (pure corners) {})
  let mint : Engine δ Identity := Engine.readHost Host.mint
  let vertex : Template := ⟨← mint, .ofParts (vertexParts quadToken)⟩
  let inner : Template := ⟨← mint, .ofParts (body sampler)⟩
  let fragment : Template := ⟨← mint, .ofParts (fragmentParts inner)⟩
  let stack ← install supported width height vertex.compile fragment.compile
  return { stack, input, config }

/-- Draws over the current input and gives one value per texel component. -/
def run (c : Computation) : Attempt δ (PixelBuffer × Computation) := do
  let input ← (Engine.readHost c.input : Engine δ HostArray)
  let (width, height) ← c.config.dimensions input
  let (internalFormat, dataType) := c.config.output input.kind
  let (pixels, stack) ← c.stack.read
    { width := some width, height := some height, format := c.config.texelFormat, dataType,
      internalFormat }
  return (pixels, { c with stack })

end Computation
end ShaderStack

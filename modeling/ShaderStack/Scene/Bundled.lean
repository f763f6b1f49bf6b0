import ShaderStack.Scene.Basic
import ShaderStack.Scene.Motion

/-! The bundled scenes. -/
namespace ShaderStack.Scene

/-- A new template at a place of its own. -/
def template (parts : List TemplatePart) : StateM Host Template := do
  return ⟨← Host.mint, .ofParts parts⟩

/-- An attribute over a new array that never changes. -/
def fixedAttribute (arity : Arity) (values : List Single) (name : String) : Authoring Token := do
  let data ← (Host.allocate (.ofSingles values) : StateM Host HostArray)
  let t ← Token.vertexAttribute (.vector .real arity) (pure data) {}
  (t.withName name : StateM Host Token)

/-- A matrix that follows the time of the scene. -/
def matrixUniform (value : Accessor (Vector Single 16)) (name : String) : StateM Host Token := do
  let t ← Token.uniformOfType (.matrix .four)
    (do return .matrix .four (← value)) none
  t.withName name

def ints (values : List Int) : List Single := values.map Single.ofInt

def half : Single := .ofRatio false 1 2

def minusHalf : Single := .ofRatio true 1 2

/-- One triangle, with the time as its only uniform. -/
def triangle : Authoring Pass := do
  let position ← fixedAttribute .two
    [minusHalf, minusHalf, half, minusHalf, .zero, half] "a_position"
  let seconds ← Token.uniformOfType (.vector .real .one) (do return .ofSingle (← time)) none
  let seconds ← (seconds.withName "u_time" : StateM Host Token)
  let vertex ← template
    [.text "#version 300 es\nvoid main() \x7b gl_Position = vec4(", .token position,
      .text ", 0.0, 1.0); \x7d"]
  let fragment ← template
    [.text "#version 300 es\nprecision highp float;\nout vec4 color;\n",
      .text "void main() \x7b color = vec4(0.5 + 0.5 * sin(", .token seconds,
      .text "), 0.3, 0.8, 1.0); \x7d"]
  return { label := "triangle", vertex, fragment, draw := .ofCount 3 }

def cubeCorners : List Int :=
  [-1, -1, -1, 1, -1, -1, 1, 1, -1, -1, 1, -1,
    -1, -1, 1, 1, -1, 1, 1, 1, 1, -1, 1, 1]

/-- Two triangles for each face. -/
def cubeFaces : List Nat :=
  [0, 1, 2, 0, 2, 3, 4, 6, 5, 4, 7, 6, 0, 4, 5, 0, 5, 1,
    3, 2, 6, 3, 6, 7, 0, 3, 7, 0, 7, 4, 1, 5, 6, 1, 6, 2]

/-- A turning cube. Its colours are its corners, moved into the unit range. -/
def cube (target : PassTarget) : Authoring Pass := do
  let position ← fixedAttribute .three (ints cubeCorners) "a_position"
  let color ← fixedAttribute .three (ints (cubeCorners.map fun c => (c + 1) / 2)) "a_color"
  let faces ← (Host.allocate ⟨.u16, cubeFaces.map UInt32.ofNat⟩ : StateM Host HostArray)
  let indices ← Token.indices (pure faces)
  let model ← matrixUniform (do return Motion.model (← time)) "u_model"
  let projection ← matrixUniform (pure (Motion.projection .one)) "u_projection"
  let varying ← Token.scope "v_color"
  let vertex ← template
    [.text "#version 300 es\nout vec3 ", .token varying, .text ";\nvoid main() \x7b\n  ",
      .token varying, .text " = ", .token color, .text ";\n  gl_Position = ",
      .token projection, .text " * ", .token model, .text " * vec4(", .token position,
      .text ", 1.0);\n\x7d"]
  let fragment ← template
    [.text "#version 300 es\nprecision highp float;\nin vec3 ", .token varying,
      .text ";\nout vec4 color;\nvoid main() \x7b color = vec4(", .token varying,
      .text ", 1.0); \x7d"]
  return { label := "cube", vertex, fragment, draw := .elements [], indices := some indices,
           cached := true, target }

/-- A quad over the whole surface that shows the scene's layer. -/
def composite : Authoring Pass := do
  let position ← fixedAttribute .two
    (ints [-1, -1, 1, -1, -1, 1, -1, 1, 1, -1, 1, 1]) "a_corner"
  let blank ← (Host.allocate ⟨.u8, [0, 0, 0, 255]⟩ : StateM Host HostArray)
  (Host.setSource layerCell (.pixels blank) : StateM Host Unit)
  let scene ← Token.sampler (Accessor.source layerCell)
    { magFilter := .linear, minFilter := .linear }
  let scene ← (scene.withName "u_scene" : StateM Host Token)
  let uv ← Token.scope "v_uv"
  let vertex ← template
    [.text "#version 300 es\nout vec2 ", .token uv, .text ";\nvoid main() \x7b\n  ", .token uv,
      .text " = ", .token position, .text " * 0.5 + 0.5;\n  gl_Position = vec4(",
      .token position, .text ", 0.0, 1.0);\n\x7d"]
  let fragment ← template
    [.text "#version 300 es\nprecision highp float;\nin vec2 ", .token uv,
      .text ";\nout vec4 color;\nvoid main() \x7b color = texture(", .token scene,
      .text ", ", .token uv, .text "); \x7d"]
  return { label := "composite", vertex, fragment, draw := .ofCount 6 }

/-- The passes of a bundled scene, in drawing order. -/
def passesOf : SceneKind → Authoring (List Pass)
  | .helloWorld => do return [← triangle]
  | .cube => do return [← cube .screen]
  | .renderTexture => do return [← cube .layer, ← composite]

/-- A bundled scene at time zero. -/
def build (kind : SceneKind) : Authoring Scene := do
  (setTime .zero : StateM Host Unit)
  return { kind, passes := ← passesOf kind }

end ShaderStack.Scene

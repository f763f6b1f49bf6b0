import ShaderStack.Render.TokenValue
import ShaderStack.Shader.Compiled

/-! Scenes: lists of passes, each a pair of templates with a draw. -/
namespace ShaderStack

/-- The scenes that come with the library. -/
inductive SceneKind
  | helloWorld
  | cube
  | renderTexture
  deriving DecidableEq, Repr

namespace SceneKind

def all : List SceneKind := [helloWorld, cube, renderTexture]

def name : SceneKind → String
  | helloWorld => "hello-world"
  | cube => "cube"
  | renderTexture => "render-texture"

def description : SceneKind → String
  | helloWorld => "array draw of one triangle with a time uniform"
  | cube => "indexed cube with per-vertex colours and a cached program"
  | renderTexture => "the cube rendered into a texture sampled by a second pass"

end SceneKind

/-- Where a pass draws: onto the surface, or into the scene's own texture. -/
inductive PassTarget
  | screen
  | layer
  deriving DecidableEq, Repr

def PassTarget.title : PassTarget → String
  | screen => "Screen"
  | layer => "Layer"

structure Pass where
  label : String
  vertex : Template
  fragment : Template
  draw : Draw
  indices : Option Token := none
  /-- Whether the pass asks for a cached program whatever the settings say. -/
  cached : Bool := false
  target : PassTarget := .screen

structure Scene where
  kind : SceneKind
  passes : List Pass

namespace Scene

/-- The cell that holds the seconds of scene time. -/
def timeCell : String := "time"

/-- The cell that a layered scene samples: blank pixels until the layer is made. -/
def layerCell : String := "layer"

def isLayered (s : Scene) : Bool := s.passes.any fun pass => pass.target = .layer

def setTime (seconds : Single) : StateM Host Unit := Host.setValue timeCell (.ofSingle seconds)

/-- The seconds of scene time; zero before they are set. -/
def time : Accessor Single := do
  match ((← get).value timeCell).singles? with
  | some [seconds] => return seconds
  | _ => return .zero

end Scene

/-- What a pass shows of itself: its sources, and its tokens with what they read. -/
structure PassView where
  pass : Pass
  vertex : CompiledShader
  fragment : CompiledShader
  indices : Option TokenValue
  /-- The vertex stage's tokens, then the fragment stage's. -/
  tokens : List (String × TokenValue)

def Pass.view (p : Pass) : Engine δ PassView := do
  let vertex := p.vertex.compile
  let fragment := p.fragment.compile
  return {
    pass := p, vertex, fragment
    indices := ← p.indices.mapM Token.read
    tokens := ← (vertex.tokens ++ fragment.tokens).mapM fun n => do
      return (n.name, ← n.token.read) }

end ShaderStack

import ShaderStack.Workspace.Basic

/-! The operations of a workspace and their answers. -/
namespace ShaderStack

/-- Where a sampler source cell gets its content from. -/
inductive SourceOrigin
  /-- The current allocation of a buffer cell. -/
  | buffer (cell : String)
  | texture (name : String)
  | surface (name : String)
  deriving DecidableEq, Repr

/-- A token to be made over named cells. A fresh accessor gives a new allocation on every read. -/
inductive TokenSpec
  | vertexAttribute (type : DataType) (cell : String) (options : AttributeOptions) (fresh : Bool)
  | indices (cell : String) (fresh : Bool)
  /-- A typed uniform is not checked: its accessor has the right type by construction. -/
  | uniform (type : DataType) (cell : String) (name : Option String) (typed : Bool)
  | sampler (cell : String) (options : SamplerOptions) (fresh : Bool)
  | scope (name : String)
  | rename (of newName : String)
  deriving DecidableEq, Repr

inductive PartSpec
  | text (segment : String)
  | token (name : String)
  | template (name : String)
  deriving DecidableEq, Repr

structure ProgramSpec where
  vertex : String
  fragment : String
  draw : Draw
  mode : Option DrawMode := none
  indices : Option String := none
  cached : Bool := false
  hook : Bool := false
  deriving DecidableEq, Repr

inductive Operation
  | setBuffer (name : String) (contents : ArrayContents)
  | aliasBuffer (name of : String)
  | setValue (name : String) (value : UniformValue)
  | setSource (name : String) (origin : SourceOrigin)
  | setSurface (name : String) (texture : Option Handle)
  | fireSurface (name : String)
  | makeToken (name : String) (spec : TokenSpec)
  | tokenValue (name : String)
  | sameToken (a b : String)
  | sameTemplate (a b : String)
  | makeTemplate (name : String) (parts : List PartSpec) (site : Option String)
  | compile (name : String) (ofTokens : Option (List String))
  | surfaceSize (width height : UInt32)
  | makeStack (stack : String) (options : StackOptions)
  | makeProgram (stack name : String) (spec : ProgramSpec)
  | addToStack (stack name : String)
  | addToTexture (texture name : String)
  | renderProgram (name : String)
  | programInfo (name : String)
  | dropProgram (name : String)
  | stackInfo (stack : String)
  | cachedProgram (stack vertex fragment : String)
  | render (stack : String)
  | clear (stack : String)
  | onResize (stack listener : String)
  | resize (stack : String) (width height : UInt32)
  | takeRedraw (stack : String)
  | read (stack : String) (config : ReadConfig)
  | dropStack (stack : String)
  | makeTexture (stack name : String) (width height : UInt32)
  | textureInfo (name : String)
  | addLayer (stack name : String)
  | renderTexture (name : String)
  | dropTexture (name : String)
  | makeDriver (name : String) (schedule : Schedule) (clear : ClearPolicy) (listeners : Nat)
  | drive (name stack : String) (step : FrameStep)
  | stats
  | reset
  deriving DecidableEq

inductive Answer
  | done
  | count (n : Nat)
  | flag (b : Bool)
  | size (width height : UInt32)
  | token (t : Token)
  | tokenValue (v : TokenValue)
  | template (t : Template)
  /-- With the names of the tokens that were asked for. -/
  | compiled (shader : CompiledShader) (ownIdentity : Bool) (names : Option (List (Option String)))
  | stack (s : Stack)
  | program (p : Program)
  | stackInfo (s : Stack)
  | handle (h : Option Handle)
  | pixels (p : PixelBuffer)
  | texture (h : Handle)
  | textureInfo (t : RenderTexture)
  | driver (d : FrameDriver)
  | driven (answer : FrameAnswer) (d : FrameDriver)
  | stats (s : CallStats)

end ShaderStack

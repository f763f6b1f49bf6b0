import ShaderStack.Render.Flush

/-! Binding compiled tokens to the inputs of a program.

Each token allocates what it needs, uploads its first value and registers one update. Binding can
stop at any allocation; what was bound until then stays in the bindings, so that it can be
released. -/
namespace ShaderStack

/-- Computations that add to the bindings of one program. -/
abbrev Binder (δ α : Type) := ExceptT RenderError (StateT Bindings (StateM (World δ))) α

namespace Binder

variable {δ : Type} [GraphicsDevice δ]

def engine (action : Engine δ α) : Binder δ α :=
  ExceptT.lift (StateT.lift action)

def attempt (action : Attempt δ α) : Binder δ α :=
  ExceptT.mk (StateT.lift action.run)

def command (c : Command) : Binder δ Unit := engine (Engine.command c)

/-- Reports a token whose input has no location. Attributes belong to the vertex stage. -/
def missing (declared : List String) (stage : ShaderStage) (name : String) (type : TokenType) :
    Binder δ Unit :=
  let reason :=
    if type = .vertexAttribute ∧ stage = .fragment then MissingReason.undeclared
    else if name ∈ declared then .elided
    else .undeclared
  modify fun b => { b with missing := b.missing ++ [⟨name, type, stage, reason⟩] }

def register (slot : BindingSlot) (update : Update) : Binder δ Unit :=
  modify fun b => { b with queue := (b.queue.register slot update).2 }

def own (object : BoundObject) : Binder δ Unit :=
  modify fun b => { b with objects := b.objects ++ [object] }

/-- A new buffer filled through the program's vertex array. -/
def uploadBuffer (target : BufferTarget) (data : List UInt8) (afterwards : List Command) :
    Binder δ Handle := do
  let buffer ← attempt (Engine.allocate .buffer)
  own (.buffer buffer)
  command (.bindVertexArray (some (← get).vertexArray))
  command (.bindBuffer target (some buffer))
  command (.bufferData target data)
  engine (Engine.commands afterwards)
  command (.bindVertexArray none)
  return buffer

def bindAttribute (declared : List String) (stage : ShaderStage) (name : String)
    (t : AttributeToken) : Binder δ Unit := do
  match ← engine (Engine.lookup (.attributeLocation (← get).program name)) with
  | none => missing declared stage name .vertexAttribute
  | some location =>
    modify fun b => { b with modes := b.modes ++ t.options.mode.toList }
    let data ← engine (Engine.readHost t.value)
    let layout : VertexLayout :=
      ⟨Int32.ofNat t.type.components, data.kind, t.type.keepsIntegers⟩
    let buffer ← uploadBuffer .array data.bytes [.vertexPointer location layout]
    register (.vertexAttribute location)
      (.attributes { location, buffer, type := t.type, value := t.value, uploaded := data })

/-- Index data of a signed or float kind bind nothing. -/
def bindElements (t : AttributeToken) : Binder δ Unit := do
  let data ← engine (Engine.readHost t.value)
  match IndexType.ofElement? data.kind with
  | none => pure ()
  | some type =>
    let buffer ← uploadBuffer .elementArray data.bytes []
    modify fun b => { b with elements := some ⟨data.length, type⟩ }
    register .elements (.elements { buffer, value := t.value, uploaded := data })

def bindUniform (declared : List String) (stage : ShaderStage) (name : String)
    (t : UniformToken) : Binder δ Unit := do
  match ← engine (Engine.lookup (.uniformLocation (← get).program name)) with
  | none => missing declared stage name .uniform
  | some location =>
    register (.uniform location)
      (.uniform { location, setter := .forType t.type, value := t.value })

def bindSampler (declared : List String) (redraw : RedrawKey) (stage : ShaderStage)
    (name : String) (t : SamplerToken) : Binder δ Unit := do
  match ← engine (Engine.lookup (.uniformLocation (← get).program name)) with
  | none => missing declared stage name .sampler2D
  | some location =>
    let texture ← attempt (Engine.allocate .texture)
    own (.texture texture)
    let unit := (← get).nextUnit
    modify fun b => { b with nextUnit := unit + 1 }
    command (.activeTexture unit)
    command (.bindTexture (some texture))
    command (.textureParameters t.options.parameters)
    let subscribed ←
      match ← engine (Engine.readHost t.value) with
      | .surface id => engine (Engine.subscribe redraw id [])
      | .pixels _ => pure []
    register (.uniform location)
      (.sampler
        { location, unit, texture, options := t.options, value := t.value, uploaded := none,
          subscribed, redraw })

def bindToken (declared : List String) (redraw : RedrawKey) (stage : ShaderStage)
    (n : NamedToken) : Binder δ Unit :=
  match n.token.kind with
  | .vertexAttribute t =>
    match t.options.target with
    | .array => bindAttribute declared stage n.name t
    | .elementArray => bindElements t
  | .uniform t => bindUniform declared stage n.name t
  | .sampler t => bindSampler declared redraw stage n.name t
  | .scope _ => pure ()

/-- Attaches the tokens of one compiled shader, in their order. -/
def bindShader (redraw : RedrawKey) (stage : ShaderStage) (shader : CompiledShader) :
    Binder δ Unit :=
  shader.tokens.forM (bindToken shader.declaredNames redraw stage)

/-- Binds an index token that stands outside of the shader texts. -/
def bindIndexToken (t : Token) : Binder δ Unit :=
  match t.kind with
  | .vertexAttribute a =>
    if a.options.target = .elementArray then bindElements a
    else throw (.resource .notAnIndexBuffer)
  | kind => throw (.resource (.notAnIndexToken kind.type))

/-- Uploads indices that are listed with the draw. -/
def uploadIndices (indices : List UInt32) : Binder δ Unit := do
  discard <| uploadBuffer .elementArray (indices.flatMap (HostArray.littleEndian 4)) []
  modify fun b => { b with elements := some ⟨indices.length, .u32⟩ }

/-- Binds everything that a draw needs. Listed indices are used when no token gives others. -/
def bindAll (redraw : RedrawKey) (vertex fragment : CompiledShader) (config : ProgramConfig) :
    Binder δ Unit := do
  bindShader redraw .vertex vertex
  bindShader redraw .fragment fragment
  match config.indices with
  | some token => bindIndexToken token
  | none => pure ()
  match config.draw, (← get).elements with
  | .elements indices, none => uploadIndices indices
  | _, _ => pure ()

end Binder
end ShaderStack

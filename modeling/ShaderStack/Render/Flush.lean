import ShaderStack.Render.World

/-! Running the updates of a program.

Uploads are decided by identity: a value is uploaded when it is another allocation than the one
uploaded last. Data that do not fit are skipped and leave everything as it was. -/
namespace ShaderStack

variable {δ : Type} [GraphicsDevice δ]

def AttributeUpdate.layout (u : AttributeUpdate) (data : HostArray) : VertexLayout :=
  ⟨Int32.ofNat u.type.components, data.kind, u.type.keepsIntegers⟩

def AttributeUpdate.run (u : AttributeUpdate) : Engine δ AttributeUpdate := do
  let current ← Engine.readHost u.value
  if current.sameBuffer u.uploaded then return u
  match checkAttribute u.type .array current with
  | .error _ => return u
  | .ok () =>
    Engine.command (.bindBuffer .array (some u.buffer))
    Engine.command (.bufferData .array current.bytes)
    if current.kind ≠ u.uploaded.kind then
      Engine.command (.vertexPointer u.location (u.layout current))
    return { u with uploaded := current }

/-- Also gives the new index count and type, if there are new indices. -/
def ElementsUpdate.run (u : ElementsUpdate) : Engine δ (ElementsUpdate × Option IndexBuffer) := do
  let current ← Engine.readHost u.value
  if current.sameBuffer u.uploaded then return (u, none)
  match IndexType.ofElement? current.kind with
  | none => return (u, none)
  | some type =>
    Engine.command (.bindBuffer .elementArray (some u.buffer))
    Engine.command (.bufferData .elementArray current.bytes)
    return ({ u with uploaded := current }, some ⟨current.length, type⟩)

def UniformUpdate.run (u : UniformUpdate) : Engine δ Unit := do
  let current ← Engine.readHost u.value
  match u.setter.push? current with
  | some push => Engine.command (.uniform u.location push)
  | none => pure ()

/-- Subscribes to a surface unless its current texture already is, and gives the textures that are
subscribed to afterwards. -/
def Engine.subscribe (redraw : RedrawKey) (id : SurfaceId) (subscribed : List Handle) :
    Engine δ (List Handle) := do
  match (← get).textureOf? id with
  | none => return subscribed
  | some source =>
    if source ∈ subscribed then return subscribed
    modify (World.listen id ⟨redraw, source⟩)
    return source :: subscribed

/-- Uploads pixels in the layout that the options ask for, if the data fit it. -/
def Engine.uploadPixels (options : SamplerOptions) (data : HostArray) : Engine δ Unit := do
  match textureLayout options data with
  | .error _ => pure ()
  | .ok layout =>
    match layout.image? with
    | none => pure ()
    | some image => Engine.command (.textureImage image (some data.bytes))

def SamplerUpdate.run (u : SamplerUpdate) : Engine δ SamplerUpdate := do
  Engine.command (.activeTexture u.unit)
  let current ← Engine.readHost u.value
  let u ←
    match current with
    | .pixels data => do
      Engine.command (.bindTexture (some u.texture))
      if u.uploaded.any (·.sameBuffer data) then pure u
      else
        Engine.uploadPixels u.options data
        pure { u with uploaded := some data }
    | .surface id => do
      let source := (← get).textureOf? id
      Engine.command (.bindTexture (some (source.getD u.texture)))
      let subscribed ← Engine.subscribe u.redraw id u.subscribed
      pure { u with subscribed }
  Engine.command (.uniform u.location (.integers 1 [u.unit.toInt32]))
  return u

/-- Runs one update. The indices in use pass from one update to the next. -/
def Update.run : Update → StateT (Option IndexBuffer) (StateM (World δ)) Update
  | .attributes u => return .attributes (← (u.run : Engine δ AttributeUpdate))
  | .elements u => do
    let (u, indices) ← (u.run : Engine δ (ElementsUpdate × Option IndexBuffer))
    match indices with
    | some indices => set (some indices)
    | none => pure ()
    return .elements u
  | .uniform u => do
    (u.run : Engine δ Unit)
    return .uniform u
  | .sampler u => return .sampler (← (u.run : Engine δ SamplerUpdate))

/-- Runs all updates of a program in queue order. -/
def Bindings.flush (b : Bindings) : Engine δ Bindings := do
  let (queue, elements) ← (b.queue.flush Update.run).run b.elements
  return { b with queue, elements }

end ShaderStack

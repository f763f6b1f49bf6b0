import ShaderStack.Render.ProgramCache

/-! Offscreen render targets: making, drawing into, sharing and deleting them. -/
namespace ShaderStack

namespace RenderTexture

variable {δ : Type} [GraphicsDevice δ]

/-- A new target of the given size. Its creator holds it. -/
def make (width height : UInt32) : Attempt δ Nat := do
  if width = 0 ∨ height = 0 then throw (.resource (.emptyTexture width height))
  let texture ← Engine.allocate .texture
  (Engine.commands
    [.bindTexture (some texture), .textureParameters {},
      .textureImage ⟨.rgba8, width, height, .rgba, .unsignedByte⟩ none,
      .bindTexture none] : Engine δ Unit)
  let framebuffer ←
    tryCatch (Engine.allocate .framebuffer) fun e => do
      (Engine.command (.deleteTexture texture) : Engine δ Unit)
      throw e
  (Engine.commands [.bindFramebuffer (some framebuffer), .framebufferTexture texture] :
    Engine δ Unit)
  let complete ← (Engine.probe .framebufferComplete : Engine δ Bool)
  (Engine.command (.bindFramebuffer none) : Engine δ Unit)
  if !complete then
    (Engine.commands [.deleteFramebuffer framebuffer, .deleteTexture texture] : Engine δ Unit)
    throw (.resource .incompleteTexture)
  let key ← (Engine.newKey : Engine δ Nat)
  modify (World.setTexture key { texture, framebuffer, width, height })
  return key

/-- Changes a target, if it is there. -/
def update (key : Nat) (change : RenderTexture → RenderTexture) : Engine δ Unit :=
  modify fun w =>
    match w.texture? key with
    | some t => w.setTexture key (change t)
    | none => w

/-- Appends a program; programs draw in the order in which they were added. -/
def add (key : Nat) (program : Program) : Engine δ Unit :=
  update key fun t => { t with programs := t.programs ++ [program] }

/-- Draws every program into the target, goes back to `restore`, and calls the listeners. -/
def renderInto (key : Nat) (restore : Option Handle) (width height : UInt32) : Engine δ Unit := do
  match (← get).texture? key with
  | none => pure ()
  | some t =>
    Engine.commands
      [.bindFramebuffer (some t.framebuffer), .viewport 0 0 t.width t.height,
        .clear .opaqueBlack .one]
    let programs ← Program.renderAll t.programs
    update key fun t => { t with programs }
    Engine.commands [.bindFramebuffer restore, .viewport 0 0 width height]
    update key fun t => { t with generation := t.generation + 1 }
    modify fun w => w.notify (((w.texture? key).map RenderTexture.listeners).getD [])

/-- Draws outside of any frame and returns to the default framebuffer. -/
def render (key : Nat) : Engine δ Unit := do
  match (← get).texture? key with
  | none => pure ()
  | some t => renderInto key none t.width t.height

/-- Adds an owner. -/
def retain (key : Nat) : Engine δ Unit := update key fun t => { t with holders := t.holders + 1 }

/-- An owner lets go. The last one deletes the programs, the framebuffer and the texture. -/
def release (key : Nat) : Engine δ Unit := do
  match (← get).texture? key with
  | none => pure ()
  | some t =>
    if 1 < t.holders then update key fun t => { t with holders := t.holders - 1 }
    else
      modify fun w => { w with textures := w.textures.filter (·.1 ≠ key) }
      Program.dropAll t.programs
      Engine.commands [.deleteFramebuffer t.framebuffer, .deleteTexture t.texture]

/-- A sampler source owns the render texture that it names. -/
def retainSource : TextureSource → Engine δ Unit
  | .surface (.renderTexture key) => retain key
  | _ => pure ()

def releaseSource : TextureSource → Engine δ Unit
  | .surface (.renderTexture key) => release key
  | _ => pure ()

end RenderTexture
end ShaderStack

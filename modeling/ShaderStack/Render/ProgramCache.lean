import ShaderStack.Render.Binding

/-! Building programs: name check, link or reuse, binding; and drawing and releasing them. -/
namespace ShaderStack

namespace Bindings

variable {δ : Type} [GraphicsDevice δ]

/-- Deletes what binding allocated, in the order of allocation, then the vertex array. -/
def release (b : Bindings) : Engine δ Unit := do
  Engine.commands (b.objects.map BoundObject.deletion)
  Engine.command (.deleteVertexArray b.vertexArray)

end Bindings

namespace Program

variable {δ : Type} [GraphicsDevice δ]

/-- Deletes what the program owns. -/
def drop (p : Program) : Engine δ Unit := do
  p.bindings.release
  if p.owned then Engine.command (.deleteProgram p.handle)

def dropAll (programs : List Program) : Engine δ Unit := programs.forM drop

/-- Activates the program, runs its updates and its hook, and draws. -/
def render (p : Program) : Engine δ Program := do
  Engine.command (.useProgram (some p.handle))
  Engine.command (.bindVertexArray (some p.bindings.vertexArray))
  let bindings ← p.bindings.flush
  match p.hook with
  | some label => Engine.callback (.programHook label)
  | none => pure ()
  match p.draw, bindings.elements with
  | .arrays first count, _ => Engine.command (.drawArrays p.mode first count)
  | .elements _, some indices =>
    Engine.command (.drawElements p.mode (Int32.ofNat indices.count) indices.type)
  | .elements _, none => pure ()
  Engine.command (.bindVertexArray none)
  return { p with bindings }

def renderAll (programs : List Program) : Engine δ (List Program) := programs.mapM render

end Program

/-- The type conflict of two stages over one name, if there is one. The first other vertex token of
a name is the one that is compared. -/
def nameConflict? (vertex : List NamedToken) (n : NamedToken) : Option RenderError := do
  let fragmentType ← n.token.dataType?
  let other ← vertex.find? fun o => o.name = n.name && o.token.id ≠ n.token.id
  let vertexType ← other.token.dataType?
  if vertexType = fragmentType then none
  else
    some (.buildFailure .link
      (s!"'{n.name}' is declared {vertexType.name} in the vertex stage and " ++
        s!"{fragmentType.name} in the fragment stage; give one of the tokens an explicit name"))

/-- Both stages may give one name to different tokens. Equal types share one location, and the
fragment binding wins; different types cannot link. -/
def checkSharedNames (vertex fragment : CompiledShader) : Except RenderError Unit :=
  match fragment.tokens.findSome? (nameConflict? vertex.tokens) with
  | some e => .error e
  | none => .ok ()

/-- Linked programs by the identities of their two templates. Nothing is ever evicted. -/
structure ProgramCache where
  entries : List ((Identity × Identity) × Handle) := []
  /-- How many programs were linked, cached or not. -/
  links : Nat := 0
  deriving DecidableEq, Repr

namespace ProgramCache

variable {δ : Type} [GraphicsDevice δ]

def find? (cache : ProgramCache) (vertex fragment : Identity) : Option Handle :=
  cache.entries.lookup (vertex, fragment)

/-- Links a pair or reuses its cached program. The flag tells whether the program belongs to the
caller. -/
def link (cache : ProgramCache) (vertex fragment : CompiledShader) (cached : Bool) :
    Engine δ (Except RenderError (Handle × Bool) × ProgramCache) := do
  match if cached then cache.find? vertex.template fragment.template else none with
  | some handle => return (.ok (handle, false), cache)
  | none =>
    match ← (Engine.allocate (.program vertex.source fragment.source)).run with
    | .error e => return (.error e, cache)
    | .ok handle =>
      let entries :=
        if cached then ((vertex.template, fragment.template), handle) :: cache.entries
        else cache.entries
      return (.ok (handle, !cached), { entries, links := cache.links + 1 })

/-- Binds a linked program. When binding fails, what it allocated is deleted again. -/
def bind (handle : Handle) (owned : Bool) (redraw : RedrawKey)
    (vertex fragment : CompiledShader) (config : ProgramConfig) : Attempt δ Program := do
  let vertexArray ←
    tryCatch (Engine.allocate .vertexArray) fun e => do
      if owned then (Engine.command (.deleteProgram handle) : Engine δ Unit)
      throw e
  let (result, bindings) ←
    ((Binder.bindAll redraw vertex fragment config).run.run
      { program := handle, vertexArray } : Engine δ (Except RenderError Unit × Bindings))
  let mode := config.mode.getD (bindings.modes.head?.getD .triangles)
  let program : Program := { bindings, mode, draw := config.draw, hook := config.hook, owned }
  match result with
  | .ok () => return program
  | .error e =>
    (program.drop : Engine δ Unit)
    throw e

/-- Links or reuses a program for the pair and binds every token to it. -/
def compile (cache : ProgramCache) (redraw : RedrawKey) (vertex fragment : CompiledShader)
    (config : ProgramConfig) : Engine δ (Except RenderError Program × ProgramCache) := do
  match checkSharedNames vertex fragment with
  | .error e => return (.error e, cache)
  | .ok () =>
    match ← cache.link vertex fragment config.cached with
    | (.error e, cache) => return (.error e, cache)
    | (.ok (handle, owned), cache) =>
      return (← (bind handle owned redraw vertex fragment config).run, cache)

/-- Deletes every cached program. -/
def drop (cache : ProgramCache) : Engine δ Unit :=
  Engine.commands (cache.entries.map fun entry => .deleteProgram entry.2)

end ProgramCache
end ShaderStack

import ShaderStack.Scene.Bundled
import ShaderStack.Settings.Basic
import ShaderStack.Render.Readback

/-! Mounting a scene: compiling its passes into a stack. -/
namespace ShaderStack

structure MountError where
  /-- What was being made. -/
  attempt : String
  cause : RenderError

def MountError.chain (e : MountError) : List String := [e.attempt, e.cause.message]

/-- Work on a stack that may fail. Programs that were added before a failure stay. -/
abbrev Mounting (δ α : Type) := ExceptT MountError (StateT Stack (StateM (World δ))) α

namespace Mounting

variable {δ : Type}

def engine (action : Engine δ α) : Mounting δ α :=
  ExceptT.lift (StateT.lift action)

def orElse (attempt : String) : Except RenderError α → Mounting δ α
  | .ok a => return a
  | .error cause => throw { attempt, cause }

end Mounting

namespace Scene

variable {δ : Type} [GraphicsDevice δ]

def layerSize : UInt32 := 64

/-- Makes the layer's texture. The layer cell takes over the hold of its maker. -/
def mountLayer : Mounting δ Nat := do
  let key ← Mounting.orElse "failed to create render texture"
    (← Mounting.engine (RenderTexture.make layerSize layerSize).run)
  let old ← Mounting.engine (Engine.readHost (Accessor.source layerCell))
  Mounting.engine (Engine.readHost (Host.setSource layerCell (.surface (.renderTexture key))))
  Mounting.engine (RenderTexture.releaseSource old)
  set (← Mounting.engine ((← getThe Stack).addLayer key))
  return key

def mountPass (settings : Settings) (layer : Option Nat) (pass : Pass) : Mounting δ Unit := do
  let config := settings.programConfig pass.draw
  let config :=
    match pass.indices with
    | some token => config.withIndices token
    | none => config
  let (result, s) ← Mounting.engine
    ((← getThe Stack).compile pass.vertex.compile pass.fragment.compile
      { config with cached := config.cached || pass.cached })
  set s
  let program ← Mounting.orElse s!"failed to build {pass.label} pass" result
  match pass.target, layer with
  | .layer, some key => Mounting.engine (RenderTexture.add key program)
  | _, _ => modifyThe Stack (Stack.add program)

/-- Compiles every pass into the stack, after the texture of a layered scene. -/
def mount (scene : Scene) (settings : Settings) : Mounting δ Unit := do
  let layer ← if scene.isLayered then some <$> mountLayer else pure none
  scene.passes.forM (mountPass settings layer)

end Scene
end ShaderStack

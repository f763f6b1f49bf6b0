import ShaderStack.Render.Readback
import ShaderStack.Render.TokenValue
import ShaderStack.Device.Faulty
import ShaderStack.Device.Recording
import ShaderStack.Frame.Driver

/-! A workspace: named live values, tokens, templates, programs, stacks, render textures and
frame drivers over one context. -/
namespace ShaderStack

/-- The context that a workspace runs on. -/
abbrev TestBench := FaultyDevice RecordingDevice

/-- The surface that stacks are made for. -/
structure SurfaceSpec where
  supported : Bool := true
  width : UInt32 := 10
  height : UInt32 := 10
  deriving DecidableEq, Repr

structure Workspace where
  world : World TestBench
  surface : SurfaceSpec := {}
  tokens : List (String × Token) := []
  templates : List (String × Template) := []
  /-- Template identities by the label of the place that they belong to. -/
  sites : List (String × Identity) := []
  /-- Programs that are in no stack and no render texture. -/
  programs : List (String × Program) := []
  liveStacks : List (String × Stack) := []
  /-- Keys of the render textures that the workspace itself holds. -/
  textures : List (String × Nat) := []
  drivers : List (String × FrameDriver) := []

inductive WorkspaceError
  | token (e : TokenError)
  | render (e : RenderError)
  | schedule (e : ScheduleError)
  /-- A name that stands for nothing. -/
  | unknown (name : String)
  deriving DecidableEq, Repr

/-- Work in a workspace. What was done before an error stays done. -/
abbrev Work (α : Type) := ExceptT WorkspaceError (StateM Workspace) α

namespace Work

def engine (action : Engine TestBench α) : Work α :=
  modifyGet fun w =>
    let (result, world) := action.run w.world
    (result, { w with world })

def attempt (action : Attempt TestBench α) : Work α := do
  match ← engine action.run with
  | .ok a => return a
  | .error e => throw (.render e)

def author (action : Authoring α) : Work α := do
  match ← engine (Engine.readHost action.run) with
  | .ok a => return a
  | .error e => throw (.token e)

def host (action : StateM Host α) : Work α := engine (Engine.readHost action)

/-- The object of a name. -/
def named (objects : Workspace → List (String × α)) (name : String) : Work α := do
  match (objects (← get)).lookup name with
  | some object => return object
  | none => throw (.unknown name)

def token (name : String) : Work Token := named Workspace.tokens name
def template (name : String) : Work Template := named Workspace.templates name
def program (name : String) : Work Program := named Workspace.programs name
def stack (name : String) : Work Stack := named Workspace.liveStacks name
def texture (name : String) : Work Nat := named Workspace.textures name
def driver (name : String) : Work FrameDriver := named Workspace.drivers name

def setToken (name : String) (t : Token) : Work Unit :=
  modify fun w => { w with tokens := assign name t w.tokens }

def setTemplate (name : String) (t : Template) : Work Unit :=
  modify fun w => { w with templates := assign name t w.templates }

def setStack (name : String) (s : Stack) : Work Unit :=
  modify fun w => { w with liveStacks := assign name s w.liveStacks }

def setProgram (name : String) (p : Program) : Work Unit :=
  modify fun w => { w with programs := assign name p w.programs }

def setDriver (name : String) (d : FrameDriver) : Work Unit :=
  modify fun w => { w with drivers := assign name d w.drivers }

def forgetProgram (name : String) : Work Unit :=
  modify fun w => { w with programs := w.programs.filter (·.1 ≠ name) }

def forgetStack (name : String) : Work Unit :=
  modify fun w => { w with liveStacks := w.liveStacks.filter (·.1 ≠ name) }

def forgetTexture (name : String) : Work Unit :=
  modify fun w => { w with textures := w.textures.filter (·.1 ≠ name) }

/-- Changes a stack by an engine computation. -/
def onStack (name : String) (action : Stack → Engine TestBench Stack) : Work Unit := do
  let s ← stack name
  setStack name (← engine (action s))

end Work
end ShaderStack

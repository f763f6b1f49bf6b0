import ShaderStack.Scene.Mount
import ShaderStack.Settings.Error
import ShaderStack.Picture.Basic
import ShaderStack.Device.Recording

/-! Replaying a scene: driving frames through a stack on a recording device. -/
namespace ShaderStack

/-- The time between two refreshes of the display that is replayed, in nanoseconds. -/
def refreshInterval : Nat := 16667000

/-- The same time in seconds. -/
def refreshSeconds : Single := .ofRatio false refreshInterval 1000000000

inductive ReplayError
  | settings (path : String) (error : SettingsError)
  | stack (error : RenderError)
  | build (kind : SceneKind) (error : TokenError)
  | mount (kind : SceneKind) (error : MountError)
  | schedule (error : ScheduleError)
  | readback (error : RenderError)
  | pictureReadback (error : RenderError)
  | write (path : String) (fault : FileFault)

/-- The messages of the error and its causes, outermost first. -/
def ReplayError.chain : ReplayError → List String
  | settings path error => s!"failed to load config at {path}" :: error.chain
  | stack error => ["failed to create stack", error.message]
  | build kind error => [s!"failed to build scene '{kind.name}'", error.message]
  | mount kind error => s!"failed to mount scene '{kind.name}'" :: error.chain
  | schedule error => ["invalid schedule", error.message]
  | readback error => ["readback failed", error.message]
  | pictureReadback error => ["readback for export failed", error.message]
  | write path fault => [s!"failed to write {path}", fault.message]

/-- What a frame did: whether it was drawn, and the calls that were made for it. -/
structure FrameReport where
  frame : Nat
  drawn : Bool
  stats : CallStats
  deriving DecidableEq, Repr

/-- A mounted scene with the driver of its frames. -/
structure Replay where
  stack : Stack
  driver : FrameDriver
  world : World RecordingDevice

namespace Replay

/-- Runs a step that may fail in a new world. -/
def attempt (world : World RecordingDevice) (wrap : ε → ReplayError)
    (action : ExceptT ε (StateM (World RecordingDevice)) α) :
    Except ReplayError (α × World RecordingDevice) :=
  match action.run.run world with
  | (.ok a, world) => .ok (a, world)
  | (.error e, _) => .error (wrap e)

/-- Mounts a scene on a new stack. One listener moves the time of the scene on. -/
def start (kind : SceneKind) (settings : Settings) (width height : UInt32) :
    Except ReplayError Replay := do
  let (stack, world) ← attempt { device := {} } .stack
    (Stack.make true width height settings.stackOptions)
  let (scene, world) ← attempt world (.build kind)
    (ExceptT.mk (Engine.readHost (Scene.build kind).run))
  let ((mounted, stack), world) :=
    (((scene.mount settings : Mounting RecordingDevice Unit).run).run stack).run world
  match mounted with
  | .error e => throw (.mount kind e)
  | .ok () =>
    match FrameDriver.make settings.schedule with
    | .error e => throw (.schedule e)
    | .ok driver =>
      return { stack, world, driver := { driver with clear := settings.clearPolicy, listeners := 1 } }

/-- One refresh passes in the scene. -/
def advanceTime : Engine RecordingDevice Unit :=
  Engine.readHost do Scene.setTime ((← Scene.time).add refreshSeconds)

def engine (action : Engine RecordingDevice Unit) (r : Replay) : Replay :=
  { r with world := (action.run r.world).2 }

def act (r : Replay) : FrameAction → Replay
  | .clear => r.engine Stack.clear
  | .customClear => r.engine (Engine.callback .customClear)
  | .listener _ => r.engine advanceTime
  | .render =>
    let (stack, world) := (r.stack.render).run r.world
    { r with stack, world }

def stats (r : Replay) : CallStats := r.world.device.stats

/-- A refresh of the display for a continuous schedule, a change for one on demand. -/
def stepOf (schedule : Schedule) (frame : Nat) : FrameStep :=
  if schedule.isContinuous then .refresh (frame * refreshInterval) else .notify

def playFrame (frame : Nat) (r : Replay) : FrameReport × Replay :=
  let (_, actions, driver) := r.driver.step false (stepOf r.driver.schedule frame)
  let next := actions.foldl act { r with driver }
  ({ frame, drawn := r.driver.frames < driver.frames, stats := next.stats.since r.stats }, next)

/-- Plays `count` frames from number `frame` on. -/
def playFrom (frame : Nat) : Nat → Replay → List FrameReport × Replay
  | 0, r => ([], r)
  | count + 1, r =>
    let (report, r) := r.playFrame frame
    let (reports, r) := playFrom (frame + 1) count r
    (report :: reports, r)

def play (count : Nat) (r : Replay) : List FrameReport × Replay := playFrom 0 count r

/-- Reads the stack back. -/
def read (config : ReadConfig) (wrap : RenderError → ReplayError) (r : Replay) :
    Except ReplayError (PixelBuffer × Replay) := do
  let ((pixels, stack), world) ← attempt r.world wrap (r.stack.read config)
  return (pixels, { r with stack, world })

/-- The whole surface as a picture. -/
def picture (r : Replay) : Except ReplayError Picture := do
  let (pixels, r) ← r.read {} .pictureReadback
  return .ofReadback r.stack.width.toNat r.stack.height.toNat pixels

end Replay
end ShaderStack

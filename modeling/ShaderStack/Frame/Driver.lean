import ShaderStack.Number.Single

/-! When a frame is drawn.

A frame driver owns no timer: it is told of display refreshes and of changes, and answers with the
actions of the frames that are due. -/
namespace ShaderStack

/-- Redraw on every display refresh, optionally capped, or once per change. -/
inductive Schedule
  | continuous (fps : Option Single)
  | onDemand
  deriving DecidableEq, Repr

namespace Schedule

def isContinuous : Schedule → Bool
  | continuous _ => true
  | onDemand => false

end Schedule

inductive ScheduleError
  | invalidFps (fps : Single)
  /-- A cap so small that its interval has no representation. -/
  | unboundedInterval (fps : Single)
  deriving DecidableEq, Repr

def ScheduleError.message : ScheduleError → String
  | invalidFps fps =>
    s!"frame rate must be a finite, non-negative number (got {fps.text})"
  | unboundedInterval fps => s!"no interval for {fps.text} frames per second"

/-- What runs before each frame is drawn. -/
inductive ClearPolicy
  | off
  | default
  | custom
  deriving DecidableEq, Repr

/-- One action of a frame, in the order in which a frame takes them. -/
inductive FrameAction
  | clear
  | customClear
  | listener (index : Nat)
  | render
  deriving DecidableEq, Repr

def FrameAction.name : FrameAction → String
  | clear => "clear"
  | customClear => "custom-clear"
  | listener index => s!"listener{index}"
  | render => "render"

/-- Answer to a display refresh: whether to keep refreshing. -/
inductive Reschedule
  | continued
  | stopped
  deriving DecidableEq, Repr

def Reschedule.name : Reschedule → String
  | continued => "continue"
  | stopped => "stop"

structure FrameDriver where
  schedule : Schedule
  /-- The least time between two frames, in nanoseconds. -/
  interval : Option Nat
  clear : ClearPolicy := .default
  /-- How many listeners run between clearing and rendering. -/
  listeners : Nat := 0
  running : Bool
  lastFrame : Option Nat := none
  frames : Nat := 0
  deriving DecidableEq, Repr

namespace FrameDriver

/-- Seconds from `2 ^ 64` on have no representation. -/
def hasInterval (seconds : Single) : Bool :=
  seconds.isFinite && seconds.units < Nat.pow 2 64 * Single.unitsPerOne

/-- The interval of a frame cap. No cap and a cap of zero leave frames unlimited. -/
def capInterval : Option Single → Except ScheduleError (Option Nat)
  | none => .ok none
  | some fps =>
    if !fps.isFinite || (fps.isNegative && !fps.isZero) then .error (.invalidFps fps)
    else if fps.isZero then .ok none
    else if hasInterval fps.reciprocal then .ok (some fps.reciprocal.toNanoseconds)
    else .error (.unboundedInterval fps)

def make (schedule : Schedule) : Except ScheduleError FrameDriver := do
  let interval ←
    match schedule with
    | .continuous fps => capInterval fps
    | .onDemand => .ok none
  return { schedule, interval, running := schedule.isContinuous }

def stop (d : FrameDriver) : FrameDriver := { d with running := false }

/-- Resumes a stopped continuous driver. The first frame after that is not held back. -/
def start (d : FrameDriver) : FrameDriver :=
  if d.schedule.isContinuous && !d.running then { d with running := true, lastFrame := none }
  else d

/-- The actions of one frame. -/
def frameActions (d : FrameDriver) : List FrameAction :=
  (match d.clear with
    | .off => []
    | .default => [.clear]
    | .custom => [.customClear]) ++
  (List.range d.listeners).map .listener ++ [.render]

def draw (d : FrameDriver) : List FrameAction × FrameDriver :=
  (d.frameActions, { d with frames := d.frames + 1 })

/-- Whether a frame at `now` comes too soon after the last one. Time that goes backwards has not
advanced. -/
def isTooSoon (d : FrameDriver) (now : Nat) : Bool :=
  match d.interval, d.lastFrame with
  | some interval, some last => now - last < interval
  | _, _ => false

def refresh (now : Nat) (d : FrameDriver) : Reschedule × List FrameAction × FrameDriver :=
  if !d.running then (.stopped, [], d)
  else if d.isTooSoon now then (.continued, [], d)
  else
    let (actions, d) := { d with lastFrame := some now }.draw
    (.continued, actions, d)

/-- Draws once on demand. A continuous driver waits for its next refresh. -/
def notify (d : FrameDriver) : Bool × List FrameAction × FrameDriver :=
  match d.schedule with
  | .onDemand =>
    let (actions, d) := d.draw
    (true, actions, d)
  | .continuous _ => (false, [], d)

/-- Forwards a redraw request that was taken from the frame. -/
def poll (requested : Bool) (d : FrameDriver) : Bool × List FrameAction × FrameDriver :=
  if requested then d.notify else (false, [], d)

end FrameDriver

/-- Something that happens to a frame driver. -/
inductive FrameStep
  | refresh (now : Nat)
  | notify
  /-- Takes the frame's redraw request. -/
  | poll
  | start
  | stop
  deriving DecidableEq, Repr

inductive FrameAnswer
  | nothing
  | rescheduled (r : Reschedule)
  | drawn (drew : Bool)
  deriving DecidableEq, Repr

/-- One step. The flag is the redraw request that a poll takes. -/
def FrameDriver.step (requested : Bool) (d : FrameDriver) :
    FrameStep → FrameAnswer × List FrameAction × FrameDriver
  | .refresh now => let (r, actions, d) := d.refresh now; (.rescheduled r, actions, d)
  | .notify => let (drew, actions, d) := d.notify; (.drawn drew, actions, d)
  | .poll => let (drew, actions, d) := d.poll requested; (.drawn drew, actions, d)
  | .start => (.nothing, [], d.start)
  | .stop => (.nothing, [], d.stop)

/-- A driver over a stand-in frame that draws nothing and reports redraw requests that it was
told to report. -/
structure FrameRehearsal where
  driver : FrameDriver
  /-- A frame without requests of its own answers every poll with no. -/
  reports : Bool := true
  pending : Bool := false

namespace FrameRehearsal

def pend (r : FrameRehearsal) : FrameRehearsal := { r with pending := true }

def step (r : FrameRehearsal) (s : FrameStep) :
    FrameAnswer × List FrameAction × FrameRehearsal :=
  let (answer, actions, driver) := r.driver.step (r.reports && r.pending) s
  let pending := if s = .poll ∧ r.reports then false else r.pending
  (answer, actions, { r with driver, pending })

end FrameRehearsal
end ShaderStack

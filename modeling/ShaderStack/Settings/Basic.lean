import ShaderStack.Render.Stack
import ShaderStack.Frame.Driver

/-! Settings of stacks, programs and readbacks. -/
namespace ShaderStack

/-- The schedule as it is written, apart from its cap. -/
inductive Pace
  | continuous
  | onDemand
  deriving DecidableEq, Repr

def Pace.name : Pace → String
  | continuous => "continuous"
  | onDemand => "on-demand"

structure StackSettings where
  float : Bool := true
  halfFloat : Bool := false
  /-- Clear to opaque black before each frame. -/
  clear : Bool := true
  pace : Pace := .onDemand
  /-- Frame cap of the continuous pace; zero is no cap. -/
  fps : Option Single := none
  deriving DecidableEq, Repr

structure ProgramSettings where
  cache : Bool := false
  /-- Takes over from the topologies that attributes suggest. -/
  mode : Option DrawMode := none
  deriving DecidableEq, Repr

structure Settings where
  version : UInt32 := 1
  stack : StackSettings := {}
  program : ProgramSettings := {}
  readback : ReadConfig := {}
  deriving DecidableEq, Repr

namespace Settings

def stackOptions (s : Settings) : StackOptions := ⟨s.stack.float, s.stack.halfFloat⟩

def schedule (s : Settings) : Schedule :=
  match s.stack.pace with
  | .continuous => .continuous (s.stack.fps.filter Single.isPositive)
  | .onDemand => .onDemand

def clearPolicy (s : Settings) : ClearPolicy := if s.stack.clear then .default else .off

/-- The program settings for a draw. -/
def programConfig (s : Settings) (draw : Draw) : ProgramConfig :=
  { draw, mode := s.program.mode, cached := s.program.cache }

end Settings
end ShaderStack

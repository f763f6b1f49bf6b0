import ShaderStack.Frame.Driver
import ShaderStack.Render.Stack

/-! Driving a stack: the frames that a driver asks for, drawn on the stack. -/
namespace ShaderStack

namespace Stack

variable {δ : Type} [GraphicsDevice δ]

/-- Carries an action of a frame out. -/
def act (s : Stack) : FrameAction → Engine δ Stack
  | .clear => do
    clear
    return s
  | .customClear => do
    Engine.callback .customClear
    return s
  | .listener index => do
    Engine.callback (.frameListener index)
    return s
  | .render => s.render

def actAll (actions : List FrameAction) (s : Stack) : Engine δ Stack := actions.foldlM act s

/-- Takes the driver one step further. A poll takes the stack's redraw request whatever the driver
makes of it. -/
def drive (step : FrameStep) (d : FrameDriver) (s : Stack) :
    Engine δ ((FrameAnswer × FrameDriver) × Stack) := do
  let requested ← if step = .poll then s.takeRedrawRequest else pure false
  let (answer, actions, d) := d.step requested step
  let s ← s.actAll actions
  return ((answer, d), s)

end Stack
end ShaderStack

import ShaderStack.Device.Call

/-! Single calls on a device, with their replies. -/
namespace ShaderStack

inductive Request
  | allocate (a : Allocation)
  | lookup (l : Lookup)
  | probe (p : Probe)
  | command (c : Command)
  /-- A readback into a buffer that is filled with one byte beforehand. -/
  | read (r : PixelRead) (fill : UInt8)
  deriving DecidableEq, Repr

inductive Reply
  | handle (answer : Except RenderError Handle)
  | location (answer : Option Location)
  | flag (answer : Bool)
  | done
  | bytes (buffer : List UInt8)

def Request.perform [GraphicsDevice δ] (d : δ) : Request → Reply × δ
  | allocate a => let (answer, d) := GraphicsDevice.allocate a d; (.handle answer, d)
  | lookup l => let (answer, d) := GraphicsDevice.lookup l d; (.location answer, d)
  | probe p => let (answer, d) := GraphicsDevice.probe p d; (.flag answer, d)
  | command c => (.done, GraphicsDevice.command c d)
  | read r fill =>
    let (stored, d) := GraphicsDevice.read r d
    (.bytes ((List.range r.bytes).map fun offset => (stored offset).getD fill), d)

end ShaderStack

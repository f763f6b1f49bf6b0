import ShaderStack.Device.Linkage

/-! A device with no GPU behind it, which records what changes state.

Handles of all kinds are minted from one counter of words, which stays at the last one. -/
namespace ShaderStack

/-- Running totals of the calls that cost bandwidth or work. -/
structure CallStats where
  links : Nat := 0
  bufferUploads : Nat := 0
  textureUploads : Nat := 0
  uniformPushes : Nat := 0
  vertexPointers : Nat := 0
  draws : Nat := 0
  framebuffers : Nat := 0
  reads : Nat := 0
  deriving DecidableEq, Repr

/-- What was counted after `earlier` was taken. -/
def CallStats.since (now earlier : CallStats) : CallStats :=
  { links := now.links - earlier.links
    bufferUploads := now.bufferUploads - earlier.bufferUploads
    textureUploads := now.textureUploads - earlier.textureUploads
    uniformPushes := now.uniformPushes - earlier.uniformPushes
    vertexPointers := now.vertexPointers - earlier.vertexPointers
    draws := now.draws - earlier.draws
    framebuffers := now.framebuffers - earlier.framebuffers
    reads := now.reads - earlier.reads }

structure RecordingDevice where
  log : Array Event := #[]
  stats : CallStats := {}
  nextHandle : Handle := 1
  programs : List (Handle × Linkage) := []
  extensions : List String := ["EXT_color_buffer_float", "EXT_color_buffer_half_float"]
  clearColor : Color := .transparent

namespace RecordingDevice

def record (event : Event) (d : RecordingDevice) : RecordingDevice :=
  { d with log := d.log.push event }

def count (bump : CallStats → CallStats) (d : RecordingDevice) : RecordingDevice :=
  { d with stats := bump d.stats }

/-- Forgets the log and the totals; linked programs stay. -/
def reset (d : RecordingDevice) : RecordingDevice := { d with log := #[], stats := {} }

def lastHandle : Handle := 0xFFFFFFFF

/-- Gives out the next handle. The last one is given out again and again. -/
def mint (d : RecordingDevice) : Handle × RecordingDevice :=
  let next := if d.nextHandle < lastHandle then d.nextHandle + 1 else d.nextHandle
  (d.nextHandle, { d with nextHandle := next })

def allocate (a : Allocation) (d : RecordingDevice) : Except RenderError Handle × RecordingDevice :=
  match a with
  | .program vertex fragment =>
    match Linkage.build vertex fragment with
    | .error e => (.error e, d)
    | .ok linkage =>
      let (handle, d) := d.mint
      let d := { d with programs := (handle, linkage) :: d.programs }
      let d := d.count fun s => { s with links := s.links + 1 }
      (.ok handle, d.record (.allocation a (.ok handle)))
  | .framebuffer =>
    let (handle, d) := d.mint
    (.ok handle, d.count fun s => { s with framebuffers := s.framebuffers + 1 })
  | _ =>
    let (handle, d) := d.mint
    (.ok handle, d)

def lookup (l : Lookup) (d : RecordingDevice) : Option Location :=
  match l with
  | .attributeLocation program name => do (← d.programs.lookup program).attributes.lookup name
  | .uniformLocation program name => do (← d.programs.lookup program).uniforms.lookup name

/-- Every framebuffer is complete, and an extension is there if it is offered. -/
def probe (p : Probe) (d : RecordingDevice) : Bool :=
  match p with
  | .framebufferComplete => true
  | .enableExtension name => d.extensions.contains name

/-- Attachments and deleted renderbuffers leave no record. -/
def recordsCommand : Command → Bool
  | .framebufferTexture _ => false
  | .framebufferRenderbuffer _ => false
  | .deleteRenderbuffer _ => false
  | _ => true

/-- What a command adds to the totals. -/
def countCommand : Command → CallStats → CallStats
  | .bufferData _ _, s => { s with bufferUploads := s.bufferUploads + 1 }
  | .textureImage _ (some _), s => { s with textureUploads := s.textureUploads + 1 }
  | .uniform _ _, s => { s with uniformPushes := s.uniformPushes + 1 }
  | .vertexPointer _ _, s => { s with vertexPointers := s.vertexPointers + 1 }
  | .drawArrays _ _ _, s => { s with draws := s.draws + 1 }
  | .drawElements _ _ _, s => { s with draws := s.draws + 1 }
  | _, s => s

def command (c : Command) (d : RecordingDevice) : RecordingDevice :=
  let d :=
    match c with
    | .deleteProgram program => { d with programs := d.programs.filter (·.1 ≠ program) }
    | .clear color _ => { d with clearColor := color }
    | _ => d
  let d := d.count (countCommand c)
  if recordsCommand c then d.record (.command c) else d

/-- The last clear colour fills every whole texel component of the buffer. -/
def readback (color : Color) (r : PixelRead) : Readback := fun offset =>
  let size := r.pixelType.byteSize
  let index := offset / size
  if offset < r.bytes / size * size then
    let value := color.channel (index % r.format.components)
    match r.pixelType with
    | .unsignedByte => some value.toChannelByte
    | .float => value.bytes[offset % size]?
  else none

def read (r : PixelRead) (d : RecordingDevice) : Readback × RecordingDevice :=
  let d' := d.count fun s => { s with reads := s.reads + 1 }
  (readback d.clearColor r, d'.record (.read r))

instance : GraphicsDevice RecordingDevice where
  allocate := allocate
  lookup l d := (d.lookup l, d)
  probe p d := (d.probe p, d)
  command := command
  read := read

end RecordingDevice
end ShaderStack

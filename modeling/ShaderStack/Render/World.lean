import ShaderStack.Render.Program

/-! The world of one context: device, host, shared render targets, and the trace of all that
happened. -/
namespace ShaderStack

/-- An offscreen colour target with the programs that draw into it. -/
structure RenderTexture where
  programs : List Program := []
  texture : Handle
  framebuffer : Handle
  width : UInt32
  height : UInt32
  /-- Counts the renders into the target. -/
  generation : Nat := 0
  listeners : List Subscription := []
  /-- How many owners the target has; the last one to let go deletes it. -/
  holders : Nat := 1

/-- A rendered surface that the host owns. Its texture may change. -/
structure HostSurface where
  texture : Option Handle
  listeners : List Subscription := []
  deriving DecidableEq, Repr

structure World (δ : Type) where
  device : δ
  /-- Everything that happened, oldest first. -/
  trace : Array Event := #[]
  host : Host := {}
  textures : List (Nat × RenderTexture) := []
  surfaces : List (String × HostSurface) := []
  redraws : List (RedrawKey × RedrawRequests) := []
  /-- Keys of render textures and redraw requests. -/
  nextKey : Nat := 0

/-- Computations in a world. -/
abbrev Engine (δ α : Type) := StateM (World δ) α

/-- Computations that may fail; what they did before they failed stays done. -/
abbrev Attempt (δ α : Type) := ExceptT RenderError (StateM (World δ)) α

namespace World

variable {δ : Type}

def texture? (w : World δ) (key : Nat) : Option RenderTexture := w.textures.lookup key

def setTexture (key : Nat) (t : RenderTexture) (w : World δ) : World δ :=
  { w with textures := assign key t w.textures }

def surface (w : World δ) (name : String) : HostSurface :=
  (w.surfaces.lookup name).getD { texture := none }

def setSurface (name : String) (s : HostSurface) (w : World δ) : World δ :=
  { w with surfaces := assign name s w.surfaces }

/-- The texture of a surface, once it has one. -/
def textureOf? (w : World δ) : SurfaceId → Option Handle
  | .renderTexture key => (w.texture? key).map RenderTexture.texture
  | .external name => (w.surface name).texture

/-- Adds a listener for each new content of a surface. -/
def listen (id : SurfaceId) (s : Subscription) (w : World δ) : World δ :=
  match id with
  | .renderTexture key =>
    match w.texture? key with
    | some t => w.setTexture key { t with listeners := t.listeners ++ [s] }
    | none => w
  | .external name =>
    let surface := w.surface name
    w.setSurface name { surface with listeners := surface.listeners ++ [s] }

def requests (w : World δ) (key : RedrawKey) : RedrawRequests :=
  (w.redraws.lookup key).getD {}

def setRequests (key : RedrawKey) (r : RedrawRequests) (w : World δ) : World δ :=
  { w with redraws := assign key r w.redraws }

/-- Calls the listeners of a surface. -/
def notify (listeners : List Subscription) (w : World δ) : World δ :=
  listeners.foldl (fun w s => w.setRequests s.redraw ((w.requests s.redraw).request s.source)) w

def record (event : Event) (w : World δ) : World δ := { w with trace := w.trace.push event }

end World

namespace Engine

variable {δ : Type}

def newKey : Engine δ Nat :=
  modifyGet fun w => (w.nextKey, { w with nextKey := w.nextKey + 1 })

def callback (c : Callback) : Engine δ Unit := modify fun w => w.record (.callback c)

/-- Reads a live value. -/
def readHost (value : Accessor α) : Engine δ α :=
  modifyGet fun w =>
    let (result, host) := value.run w.host
    (result, { w with host })

variable [GraphicsDevice δ]

def allocate (a : Allocation) : Attempt δ Handle :=
  ExceptT.mk <| modifyGet fun w =>
    let (answer, device) := GraphicsDevice.allocate a w.device
    (answer, { w with device }.record (.allocation a answer))

def lookup (l : Lookup) : Engine δ (Option Location) :=
  modifyGet fun w =>
    let (answer, device) := GraphicsDevice.lookup l w.device
    (answer, { w with device }.record (.lookup l answer))

def probe (p : Probe) : Engine δ Bool :=
  modifyGet fun w =>
    let (answer, device) := GraphicsDevice.probe p w.device
    (answer, { w with device }.record (.probe p answer))

def command (c : Command) : Engine δ Unit :=
  modify fun w => { w with device := GraphicsDevice.command c w.device }.record (.command c)

def commands (cs : List Command) : Engine δ Unit := cs.forM command

def readPixels (r : PixelRead) : Engine δ Readback :=
  modifyGet fun w =>
    let (answer, device) := GraphicsDevice.read r w.device
    (answer, { w with device }.record (.read r))

end Engine
end ShaderStack

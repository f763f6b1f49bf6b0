import ShaderStack.Frame.Drive
import ShaderStack.Workspace.Operation

/-! Carrying out operations. An object that replaces another under its name is made first; the
old one is let go after that. -/
namespace ShaderStack

namespace Work

def makeToken : TokenSpec → Work Token
  | .vertexAttribute type cell options fresh =>
    author (Token.vertexAttribute type
      (if fresh then Accessor.freshBuffer cell else Accessor.buffer cell) options)
  | .indices cell fresh =>
    author (Token.indices (if fresh then Accessor.freshBuffer cell else Accessor.buffer cell))
  | .uniform type cell name typed =>
    if typed then host (Token.uniformOfType type (Accessor.value cell) name)
    else author (Token.uniform type (Accessor.value cell) name)
  | .sampler cell options fresh =>
    author (Token.sampler
      (if fresh then Accessor.freshSource cell else Accessor.source cell) options)
  | .scope name => author (Token.scope name)
  | .rename of newName => do host ((← token of).withName newName)

def part : PartSpec → Work TemplatePart
  | .text segment => return .text segment
  | .token name => return .token (← token name)
  | .template name => return .template (← template name)

/-- The identity of a labelled place, minted when the place is first evaluated; without a label, a
new identity. -/
def siteIdentity : Option String → Work Identity
  | none => host Host.mint
  | some label => do
    match (← get).sites.lookup label with
    | some id => return id
    | none =>
      let id ← host Host.mint
      modify fun w => { w with sites := assign label id w.sites }
      return id

def makeTemplate (parts : List PartSpec) (site : Option String) : Work Template := do
  let parts ← parts.mapM part
  return ⟨← siteIdentity site, .ofParts parts⟩

def compile (name : String) (ofTokens : Option (List String)) : Work Answer := do
  let t ← template name
  let shader := t.compile
  let names ← ofTokens.mapM fun names => names.mapM fun n => do
    return shader.nameOf? (← token n).id
  return .compiled shader (shader.template = t.id) names

def setSource (name : String) (origin : SourceOrigin) : Work Unit := do
  let source : TextureSource ←
    match origin with
    | .buffer cell => do pure (.pixels ((← get).world.host.buffer cell))
    | .texture t => do pure (.surface (.renderTexture (← texture t)))
    | .surface s => pure (.surface (.external s))
  let old := (← get).world.host.sources.lookup name
  engine (RenderTexture.retainSource source)
  host (Host.setSource name source)
  match old with
  | some old => engine (RenderTexture.releaseSource old)
  | none => pure ()

/-- A surface keeps its listeners when its texture changes. -/
def setSurface (name : String) (texture : Option Handle) : Work Unit :=
  engine (modify fun w => w.setSurface name { w.surface name with texture })

def fireSurface (name : String) : Work Nat :=
  engine (modifyGet fun w =>
    let listeners := (w.surface name).listeners
    (listeners.length, w.notify listeners))

def makeStack (name : String) (options : StackOptions) : Work Stack := do
  let surface := (← get).surface
  let s ← attempt (Stack.make surface.supported surface.width surface.height options)
  let old := (← get).liveStacks.lookup name
  setStack name s
  match old with
  | some old => engine old.drop
  | none => pure ()
  return s

def makeProgram (stackName name : String) (spec : ProgramSpec) : Work Program := do
  let vertex ← template spec.vertex
  let fragment ← template spec.fragment
  let config : ProgramConfig :=
    { draw := spec.draw, mode := spec.mode, cached := spec.cached,
      hook := if spec.hook then some name else none }
  let config ←
    match spec.indices with
    | some token' => do pure (config.withIndices (← token token'))
    | none => pure config
  let s ← stack stackName
  let (result, s) ← engine (s.compile vertex.compile fragment.compile config)
  setStack stackName s
  match result with
  | .error e => throw (.render e)
  | .ok p =>
    let old := (← get).programs.lookup name
    setProgram name p
    match old with
    | some old => engine old.drop
    | none => pure ()
    return p

def makeTexture (name : String) (width height : UInt32) : Work Nat := do
  let key ← attempt (RenderTexture.make width height)
  let old := (← get).textures.lookup name
  modify fun w => { w with textures := assign name key w.textures }
  match old with
  | some old => engine (RenderTexture.release old)
  | none => pure ()
  return key

def textureOfKey (key : Nat) : Work RenderTexture := do
  match (← get).world.texture? key with
  | some t => return t
  | none => throw (.unknown (toString key))

/-- Takes a program out of those that are kept aside. -/
def takeProgram (name : String) : Work Program := do
  let p ← program name
  forgetProgram name
  return p

def drive (name stackName : String) (step : FrameStep) : Work Answer := do
  let d ← driver name
  let s ← stack stackName
  let ((answer, d), s) ← engine (s.drive step d)
  setDriver name d
  setStack stackName s
  return .driven answer d

def makeDriver (name : String) (schedule : Schedule) (clear : ClearPolicy) (listeners : Nat) :
    Work FrameDriver := do
  match FrameDriver.make schedule with
  | .error e => throw (.schedule e)
  | .ok d =>
    let d := { d with clear, listeners }
    setDriver name d
    return d

def recorder : Work RecordingDevice := do return (← get).world.device.inner

/-- Forgets the recorded calls; what the world saw stays. -/
def resetRecorder : Work Unit :=
  engine (modify fun w => { w with device := { w.device with inner := w.device.inner.reset } })

def perform : Operation → Work Answer
  | .setBuffer name contents => do
    host (do Host.setBuffer name (← Host.allocate contents))
    return .done
  | .aliasBuffer name of => do
    host (do Host.setBuffer name ((← get).buffer of))
    return .done
  | .setValue name value => do
    host (Host.setValue name value)
    return .done
  | .setSource name origin => do
    setSource name origin
    return .done
  | .setSurface name texture => do
    setSurface name texture
    return .done
  | .fireSurface name => do return .count (← fireSurface name)
  | .makeToken name spec => do
    let t ← makeToken spec
    setToken name t
    return .token t
  | .tokenValue name => do return .tokenValue (← engine (← token name).read)
  | .sameToken a b => do return .flag ((← token a).id = (← token b).id)
  | .sameTemplate a b => do return .flag ((← template a).id = (← template b).id)
  | .makeTemplate name parts site => do
    let t ← makeTemplate parts site
    setTemplate name t
    return .template t
  | .compile name ofTokens => compile name ofTokens
  | .surfaceSize width height => do
    modify fun w => { w with surface := { w.surface with width, height } }
    return .done
  | .makeStack name options => do return .stack (← makeStack name options)
  | .makeProgram stackName name spec => do return .program (← makeProgram stackName name spec)
  | .addToStack stackName name => do
    let p ← takeProgram name
    onStack stackName fun s => return s.add p
    return .done
  | .addToTexture textureName name => do
    let key ← texture textureName
    let p ← takeProgram name
    engine (RenderTexture.add key p)
    return .done
  | .renderProgram name => do
    let p ← program name
    setProgram name (← engine p.render)
    return .done
  | .programInfo name => do return .program (← program name)
  | .dropProgram name => do
    let p ← takeProgram name
    engine p.drop
    return .done
  | .stackInfo stackName => do return .stackInfo (← stack stackName)
  | .cachedProgram stackName vertex fragment => do
    let s ← stack stackName
    return .handle (s.cache.find? (← template vertex).id (← template fragment).id)
  | .render stackName => do
    onStack stackName Stack.render
    return .done
  | .clear stackName => do
    discard (stack stackName)
    engine Stack.clear
    return .done
  | .onResize stackName listener => do
    onStack stackName fun s => return s.onResize listener
    return .done
  | .resize stackName width height => do
    onStack stackName fun s => s.resize width height
    let s ← stack stackName
    return .size s.width s.height
  | .takeRedraw stackName => do return .flag (← engine (← stack stackName).takeRedrawRequest)
  | .read stackName config => do
    let (pixels, s) ← attempt ((← stack stackName).read config)
    setStack stackName s
    return .pixels pixels
  | .dropStack stackName => do
    let s ← stack stackName
    forgetStack stackName
    engine s.drop
    return .done
  | .makeTexture stackName name width height => do
    discard (stack stackName)
    let key ← makeTexture name width height
    return .texture (← textureOfKey key).texture
  | .textureInfo name => do return .textureInfo (← textureOfKey (← texture name))
  | .addLayer stackName name => do
    let key ← texture name
    onStack stackName fun s => s.addLayer key
    return .done
  | .renderTexture name => do
    engine (RenderTexture.render (← texture name))
    return .done
  | .dropTexture name => do
    let key ← texture name
    forgetTexture name
    engine (RenderTexture.release key)
    return .done
  | .makeDriver name schedule clear listeners => do
    return .driver (← makeDriver name schedule clear listeners)
  | .drive name stackName step => drive name stackName step
  | .stats => do return .stats (← recorder).stats
  | .reset => do
    resetRecorder
    return .done

end Work

/-- An operation's answer and what happened meanwhile. -/
structure StepReport where
  answer : Except WorkspaceError Answer
  events : List Event

/-- A frame cap without an interval ends the run; every other error leaves it going. -/
def StepReport.ends (r : StepReport) : Bool :=
  match r.answer with
  | .error (.schedule (.unboundedInterval _)) => true
  | _ => false

namespace Workspace

def step (o : Operation) (w : Workspace) : StepReport × Workspace :=
  let before := w.world.trace.size
  let (answer, w) := StateT.run (ExceptT.run (Work.perform o)) w
  (⟨answer, (w.world.trace.extract before w.world.trace.size).toList⟩, w)

/-- The reports of a list of operations. -/
def run : List Operation → Workspace → List StepReport × Workspace
  | [], w => ([], w)
  | o :: rest, w =>
    let (report, w) := w.step o
    if report.ends then ([report], w)
    else
      let (reports, w) := run rest w
      (report :: reports, w)

end Workspace
end ShaderStack

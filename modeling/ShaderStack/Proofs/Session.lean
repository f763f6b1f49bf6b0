import ShaderStack.Proofs.Execution

/-! Sessions: everything that a host can do with the stacks, programs and render textures of one
context, in any order. -/
namespace ShaderStack

/-- One context with the values that its host has. -/
structure Session (δ : Type) where
  world : World δ
  liveStacks : List Stack := []
  /-- Programs that are in no stack and no render texture. -/
  aside : List Program := []
  /-- Keys of render textures, once for each hold that the host has on one. -/
  held : List Nat := []

/-- One call of the host. Stacks and programs are named by their positions, and a call on something
that is not there does nothing. -/
inductive SessionStep
  /-- Live values change between calls. -/
  | changeHost (change : Host → Host)
  | changeSurface (name : String) (texture : Option Handle)
  | fireSurface (name : String)
  | makeStack (supported : Bool) (width height : UInt32) (options : StackOptions)
  | compile (stack : Nat) (vertex fragment : CompiledShader) (config : ProgramConfig)
  | addToStack (stack program : Nat)
  | addToTexture (key program : Nat)
  | renderProgram (program : Nat)
  | dropProgram (program : Nat)
  | render (stack : Nat)
  | clear
  | resize (stack : Nat) (width height : UInt32)
  | onResize (stack : Nat) (listener : String)
  | takeRedraw (stack : Nat)
  | read (stack : Nat) (config : ReadConfig)
  | dropStack (stack : Nat)
  | makeTexture (width height : UInt32)
  | retain (key : Nat)
  | release (key : Nat)
  | addLayer (stack key : Nat)
  | renderTexture (key : Nat)

namespace Session

variable {δ : Type}

/-- What becomes of a session whose host asks for something that it may not get. -/
def attempt (action : Attempt δ α) (accept : α → Session δ → Session δ) (s : Session δ) :
    Session δ :=
  match action.run.run s.world with
  | (.ok a, world) => accept a { s with world }
  | (.error _, world) => { s with world }

theorem attempt_of_ends (fits : Session δ → Prop) {action : Attempt δ α}
    {accept : α → Session δ → Session δ} {s : Session δ}
    (ends : action.Ends s.world (fun a w => fits (accept a { s with world := w }))
      fun _ w => fits { s with world := w }) : fits (s.attempt action accept) := by
  unfold Attempt.Ends at ends
  unfold attempt
  generalize action.run.run s.world = answer at ends
  obtain ⟨e | a, w⟩ := answer <;> exact ends

/-- Takes a program from those that stand aside. -/
def takeAside (j : Nat) (use : Program → Session δ → Session δ) (s : Session δ) : Session δ :=
  match s.aside[j]? with
  | none => s
  | some program => use program { s with aside := s.aside.eraseIdx j }

/-- A host can only call a render texture that it holds. -/
def onHeld (key : Nat) (call : Session δ → Session δ) (s : Session δ) : Session δ :=
  if key ∈ s.held then call s else s

/-- Runs a call on a stack, which takes the place of the old one. -/
def onStack (i : Nat) (action : Stack → Engine δ Stack) (s : Session δ) : Session δ :=
  match s.liveStacks[i]? with
  | none => s
  | some stack =>
    let (stack, world) := (action stack).run s.world
    { s with world, liveStacks := s.liveStacks.set i stack }

theorem onStack_some {i : Nat} {action : Stack → Engine δ Stack} {s : Session δ} {stack : Stack}
    (found : s.liveStacks[i]? = some stack) :
    s.onStack i action =
      { s with
        world := ((action stack).run s.world).2
        liveStacks := s.liveStacks.set i ((action stack).run s.world).1 } := by
  unfold onStack
  rw [found]
  rfl

theorem onStack_none {i : Nat} {action : Stack → Engine δ Stack} {s : Session δ}
    (missing : s.liveStacks[i]? = none) : s.onStack i action = s := by
  unfold onStack
  rw [missing]

section Worlds

variable {s : Session δ} (fits : World δ → Prop)

theorem world_takeAside {j : Nat} {use : Program → Session δ → Session δ} (start : fits s.world)
    (next : ∀ p s', s'.world = s.world → fits (use p s').world) : fits (s.takeAside j use).world := by
  unfold takeAside
  split
  · exact start
  · exact next _ _ rfl

theorem world_onHeld {key : Nat} {call : Session δ → Session δ} (start : fits s.world)
    (next : key ∈ s.held → fits (call s).world) : fits (s.onHeld key call).world := by
  unfold onHeld
  split
  · next held => exact next held
  · exact start

theorem world_onStack {i : Nat} {action : Stack → Engine δ Stack} (start : fits s.world)
    (next : ∀ stack, s.liveStacks[i]? = some stack → fits ((action stack).run s.world).2) :
    fits (s.onStack i action).world := by
  cases found : s.liveStacks[i]? with
  | none =>
    rw [onStack_none found]
    exact start
  | some stack =>
    rw [onStack_some found]
    exact next stack found

end Worlds

variable [GraphicsDevice δ]

/-- A stack that cannot be read keeps its state. -/
def readStack (c : ReadConfig) (stack : Stack) : Engine δ Stack := do
  match ← (stack.read c).run with
  | .ok (_, stack) => return stack
  | .error _ => return stack

theorem readStack_of_ends (fits : Stack → World δ → Prop) {c : ReadConfig} {stack : Stack} {w : World δ}
    (ends : (stack.read c).Ends w (fun answer => fits answer.2) fun _ => fits stack) :
    fits ((readStack c stack).run w).1 ((readStack c stack).run w).2 := by
  unfold Attempt.Ends at ends
  unfold readStack
  simp only [Engine.run_bind]
  generalize (stack.read c).run.run w = answer at ends
  obtain ⟨e | ⟨pixels, stack'⟩, w'⟩ := answer <;> exact ends

/-- A program that was built stands aside until it is added somewhere. -/
def compileOn (i : Nat) (vertex fragment : CompiledShader) (config : ProgramConfig)
    (s : Session δ) : Session δ :=
  match s.liveStacks[i]? with
  | none => s
  | some stack =>
    let ((result, stack), world) := (stack.compile vertex fragment config).run s.world
    { s with
      world
      liveStacks := s.liveStacks.set i stack
      aside := s.aside ++ result.toOption.toList }

/-- What a compilation on a stack would give now. -/
def outcome (i : Nat) (vertex fragment : CompiledShader) (config : ProgramConfig)
    (s : Session δ) : Option (Except RenderError Program) :=
  s.liveStacks[i]?.map fun stack => ((stack.compile vertex fragment config).run s.world).1.1

def addToStack (i : Nat) (program : Program) (s : Session δ) : Session δ :=
  match s.liveStacks[i]? with
  | none => { s with aside := s.aside ++ [program] }
  | some stack => { s with liveStacks := s.liveStacks.set i (stack.add program) }

def renderAside (j : Nat) (s : Session δ) : Session δ :=
  match s.aside[j]? with
  | none => s
  | some program =>
    let (program, world) := program.render.run s.world
    { s with world, aside := s.aside.set j program }

def dropStack (i : Nat) (s : Session δ) : Session δ :=
  match s.liveStacks[i]? with
  | none => s
  | some stack =>
    { s with world := (stack.drop.run s.world).2, liveStacks := s.liveStacks.eraseIdx i }

def perform : SessionStep → Session δ → Session δ
  | .changeHost change, s => { s with world := { s.world with host := change s.world.host } }
  | .changeSurface name texture, s =>
    { s with world := s.world.setSurface name { s.world.surface name with texture } }
  | .fireSurface name, s => { s with world := s.world.notify (s.world.surface name).listeners }
  | .makeStack supported width height options, s =>
    s.attempt (Stack.make supported width height options) fun stack s =>
      { s with liveStacks := s.liveStacks ++ [stack] }
  | .compile i vertex fragment config, s => s.compileOn i vertex fragment config
  | .addToStack i j, s => s.takeAside j (addToStack i)
  | .addToTexture key j, s =>
    s.onHeld key fun s => s.takeAside j fun program s =>
      { s with world := ((RenderTexture.add key program).run s.world).2 }
  | .renderProgram j, s => s.renderAside j
  | .dropProgram j, s =>
    s.takeAside j fun program s => { s with world := (program.drop.run s.world).2 }
  | .render i, s => s.onStack i Stack.render
  | .clear, s => { s with world := ((Stack.clear : Engine δ Unit).run s.world).2 }
  | .resize i width height, s => s.onStack i (Stack.resize width height)
  | .onResize i listener, s => s.onStack i fun stack => return stack.onResize listener
  | .takeRedraw i, s => s.onStack i fun stack => do
    discard stack.takeRedrawRequest
    return stack
  | .read i config, s => s.onStack i (readStack config)
  | .dropStack i, s => s.dropStack i
  | .makeTexture width height, s =>
    s.attempt (RenderTexture.make width height) fun key s => { s with held := key :: s.held }
  | .retain key, s =>
    s.onHeld key fun s =>
      { s with world := ((RenderTexture.retain key).run s.world).2, held := key :: s.held }
  | .release key, s =>
    s.onHeld key fun s =>
      { s with world := ((RenderTexture.release key).run s.world).2, held := s.held.erase key }
  | .addLayer i key, s => s.onHeld key (onStack i (Stack.addLayer key))
  | .renderTexture key, s =>
    s.onHeld key fun s => { s with world := ((RenderTexture.render key).run s.world).2 }

def run : List SessionStep → Session δ → Session δ
  | [], s => s
  | step :: rest, s => run rest (s.perform step)

/-- A context on which nothing was done yet. -/
def fresh (device : δ) (host : Host) : Session δ := { world := { device, host } }

/-- Some host has come here. -/
def Reached (s : Session δ) : Prop := ∃ device host steps, s = run steps (fresh device host)

section Compile

variable {s : Session δ} {i : Nat} {stack : Stack}

theorem perform_compile (vertex fragment : CompiledShader) (config : ProgramConfig)
    (found : s.liveStacks[i]? = some stack) :
    let built := (stack.cache.compile stack.redraw vertex fragment config).run s.world
    s.perform (.compile i vertex fragment config) =
        { s with
          world := built.2
          liveStacks := s.liveStacks.set i { stack with cache := built.1.2 }
          aside := s.aside ++ built.1.1.toOption.toList } ∧
      s.outcome i vertex fragment config = some built.1.1 := by
  refine ⟨?_, ?_⟩
  · change s.compileOn i vertex fragment config = _
    unfold compileOn
    rw [found]
    rfl
  · unfold outcome
    rw [found]
    rfl

theorem perform_compile_missing {vertex fragment : CompiledShader} {config : ProgramConfig}
    (missing : s.liveStacks[i]? = none) : s.perform (.compile i vertex fragment config) = s := by
  change s.compileOn i vertex fragment config = s
  unfold compileOn
  rw [missing]

theorem exists_of_outcome {vertex fragment : CompiledShader} {config : ProgramConfig} {p : Program}
    (built : s.outcome i vertex fragment config = some (.ok p)) :
    ∃ stack, s.liveStacks[i]? = some stack ∧
      ((stack.cache.compile stack.redraw vertex fragment config).run s.world).1.1 = .ok p := by
  obtain ⟨stack, found, same⟩ := Option.map_eq_some_iff.mp built
  exact ⟨stack, found, same⟩

theorem world_compile (fits : World δ → Prop) {vertex fragment : CompiledShader}
    {config : ProgramConfig} (start : fits s.world)
    (next : ∀ stack, s.liveStacks[i]? = some stack →
      fits ((stack.cache.compile stack.redraw vertex fragment config).run s.world).2) :
    fits (s.perform (.compile i vertex fragment config)).world := by
  cases found : s.liveStacks[i]? with
  | none =>
    rw [perform_compile_missing found]
    exact start
  | some stack =>
    rw [(perform_compile vertex fragment config found).1]
    exact next stack found

end Compile

theorem run_append {before after : List SessionStep} {s : Session δ} :
    run (before ++ after) s = run after (run before s) := by
  induction before generalizing s with
  | nil => rfl
  | cons step before ih => exact ih

end Session
end ShaderStack

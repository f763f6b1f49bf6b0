import ShaderStack.Proofs.Agreement
import ShaderStack.Proofs.Sampling
import ShaderStack.Render.Computation

/-! Computations among the stacks of a session.

A computation owns a stack that nobody else knows. Building it and running it are calls of a session on
that stack, so that what holds of every session holds of it. -/
namespace ShaderStack

theorem TextureLayout.size_of_image {layout : TextureLayout} {image : TextureImage}
    (found : layout.image? = some image) : image.width = layout.width ∧ image.height = layout.height := by
  obtain ⟨_, _, made⟩ := Option.bind_eq_some_iff.mp found
  rw [← Option.some.inj made]
  exact ⟨rfl, rfl⟩

theorem TextureFormat.components_pos (format : TextureFormat) : 0 < format.components := by
  cases format <;> decide

namespace ComputeConfig

/-- How the input is sampled. -/
def sampling (c : ComputeConfig) : SamplerOptions :=
  { width := c.width, height := some (c.height.getD 1), format := c.texelFormat }

/-- What a run reads from its stack. -/
def reading (c : ComputeConfig) (input : HostArray) (width height : UInt32) : ReadConfig :=
  { width := some width, height := some height, format := c.texelFormat
    dataType := (c.output input.kind).2, internalFormat := (c.output input.kind).1 }

/-- The input has bytes or floats, and one texel for each texel of the target. -/
def Fills (c : ComputeConfig) (input : HostArray) (width height : UInt32) : Prop :=
  (input.kind = .u8 ∨ input.kind = .f32) ∧
    input.length = width.toNat * height.toNat * c.texelFormat.components

/-- The width is given, or the texels that decide it are counted in 32 bits. -/
def Counts (c : ComputeConfig) (input : HostArray) : Prop :=
  c.width.isSome ∨ input.length / c.texelFormat.components < 2 ^ 32

section Sampling

variable {c : ComputeConfig} {input : HostArray} {width height : UInt32}

/-- The size of a target; a width that is left open is the same for the texture. -/
theorem dimensions_eq (size : c.dimensions input = .ok (width, height)) (counts : c.Counts input) :
    height = c.height.getD 1 ∧
      width = c.width.getD (if height = 0 then 0
        else UInt32.ofNat (input.length / c.texelFormat.components / height.toNat)) := by
  unfold dimensions at size
  dsimp only at size
  split at size
  · exact absurd size nofun
  next fits =>
    obtain ⟨rfl, rfl⟩ := Prod.mk.inj (Except.ok.inj size)
    obtain ⟨_, tall⟩ := not_or.mp fits
    refine ⟨rfl, ?_⟩
    rw [if_neg tall]
    cases given : c.width with
    | some width => rfl
    | none =>
      have small : input.length / c.texelFormat.components < 2 ^ 32 := by
        simpa [Counts, given] using counts
      have one : max (c.height.getD 1) 1 = c.height.getD 1 := by
        change (if c.height.getD 1 ≤ 1 then 1 else c.height.getD 1) = c.height.getD 1
        split
        next low =>
          have positive : (c.height.getD 1).toNat ≠ 0 := fun zero => tall (UInt32.toNat_inj.mp zero)
          have low : (c.height.getD 1).toNat ≤ 1 := low
          apply UInt32.toNat_inj.mp
          rw [UInt32.toNat_one]
          omega
        · rfl
      simp only [Option.getD_none, one]
      apply UInt32.toNat_inj.mp
      rw [UInt32.toNat_div, UInt32.toNat_ofNat_of_lt' small, UInt32.toNat_ofNat_of_lt']
      exact lt_of_le_of_lt (Nat.div_le_self _ _) small

/-- The upload is laid out at the size of the target, or not at all. -/
theorem textureLayout_sampling (size : c.dimensions input = .ok (width, height))
    (colour : c.texelFormat ≠ .luminance) (counts : c.Counts input) :
    textureLayout c.sampling input =
      if input.kind ≠ .u8 ∧ input.kind ≠ .f32 then .error (.pixelElement input.kind)
      else if input.length % c.texelFormat.components ≠ 0 then
        .error (.partialTexel input.length c.texelFormat.components)
      else if width.toNat * height.toNat ≠ input.length / c.texelFormat.components then
        .error (.texelCount width height (input.length / c.texelFormat.components))
      else .ok ⟨width, height, c.texelFormat, input.kind⟩ := by
  obtain ⟨tall, wide⟩ := dimensions_eq size counts
  unfold textureLayout sampling
  simp only [colour, and_false, if_false, Option.getD_some, ← tall, ← wide]

/-- An input that fills its target is uploaded at the target's size. -/
theorem exists_image_of_fills (size : c.dimensions input = .ok (width, height))
    (colour : c.texelFormat ≠ .luminance) (counts : c.Counts input) (fills : c.Fills input width height) :
    ∃ image, pixelImage? c.sampling input = some image ∧ image.width = width ∧ image.height = height := by
  have layout := textureLayout_sampling size colour counts
  obtain ⟨kind, length⟩ := fills
  have whole : input.length % c.texelFormat.components = 0 := by
    rw [length, Nat.mul_mod_left]
  have texels : width.toNat * height.toNat = input.length / c.texelFormat.components := by
    rw [length, Nat.mul_div_cancel _ c.texelFormat.components_pos]
  have known : ¬ (input.kind ≠ .u8 ∧ input.kind ≠ .f32) := by
    rcases kind with kind | kind <;> simp [kind]
  rw [if_neg known, if_neg (not_not.mpr whole), if_neg (not_not.mpr texels)] at layout
  have fits : (textureLayout c.sampling input).isOk := by
    rw [layout]
    rfl
  obtain ⟨image, found⟩ := exists_pixelImage fits
  refine ⟨image, found, ?_⟩
  unfold pixelImage? at found
  rw [layout] at found
  exact TextureLayout.size_of_image found

/-- No other input is uploaded. -/
theorem pixelImage?_of_not_fills (size : c.dimensions input = .ok (width, height))
    (colour : c.texelFormat ≠ .luminance) (counts : c.Counts input)
    (other : ¬ c.Fills input width height) : pixelImage? c.sampling input = none := by
  have refused : (textureLayout c.sampling input).toOption = none := by
    rw [textureLayout_sampling size colour counts]
    split
    · rfl
    next kind =>
      split
      · rfl
      next whole =>
        split
        · rfl
        next texels =>
          refine absurd ⟨?_, ?_⟩ other
          · by_contra none
            exact kind (not_or.mp none)
          · rw [not_not.mp texels, Nat.div_mul_cancel (Nat.dvd_of_mod_eq_zero (not_not.mp whole))]
  unfold pixelImage?
  rw [refused]
  rfl

end Sampling

end ComputeConfig

variable {δ : Type} [GraphicsDevice δ]

namespace Session

variable {s : Session δ}

theorem Reached.run (reached : s.Reached) (steps : List SessionStep) : (run steps s).Reached := by
  obtain ⟨device, host, before, rfl⟩ := reached
  exact ⟨device, host, before ++ steps, run_append.symm⟩

omit [GraphicsDevice δ] in
/-- What an attempt gives is what the session accepts. -/
theorem ends_attempt (action : Attempt δ α) (accept : α → Session δ → Session δ) :
    action.Ends s.world (fun a w => s.attempt action accept = accept a { s with world := w })
      fun _ w => s.attempt action accept = { s with world := w } := by
  unfold Attempt.Ends attempt
  generalize action.run.run s.world = answer
  obtain ⟨e | a, w⟩ := answer <;> rfl

/-- A readback that succeeds leaves the stack changed, and one that fails leaves it as it was. -/
theorem ends_perform_read {i : Nat} {stack : Stack} {config : ReadConfig}
    (found : s.liveStacks[i]? = some stack) :
    (stack.read config).Ends s.world
      (fun answer w => s.perform (.read i config) =
        { s with world := w, liveStacks := s.liveStacks.set i answer.2 })
      fun _ w => s.perform (.read i config) = { s with world := w } := by
  have same : s.liveStacks.set i stack = s.liveStacks := by
    obtain ⟨before, after, split, set, _⟩ := split_of_getElem? found
    rw [set, split]
  have perform : s.perform (.read i config) = s.onStack i (readStack config) := rfl
  rw [perform, onStack_some found]
  unfold Attempt.Ends readStack
  simp only [Engine.run_bind]
  generalize (stack.read config).run.run s.world = answer
  obtain ⟨e | ⟨pixels, stack'⟩, w⟩ := answer
  · exact congrArg (fun live => { s with world := w, liveStacks := live }) same
  · rfl

end Session

/-- A program draws what its configuration says. -/
theorem ProgramCache.draw_compile {w : World δ} (cache : ProgramCache) (redraw : RedrawKey)
    (vertex fragment : CompiledShader) (config : ProgramConfig) :
    ∀ p, ((cache.compile redraw vertex fragment config).run w).1.1 = .ok p → p.draw = config.draw := by
  intro p built
  obtain ⟨handle, w', _, yielded⟩ := bind_of_compile built
  have drawn : (bind handle (!config.cached) redraw vertex fragment config).Ends w'
      (fun p _ => p.draw = config.draw) fun _ _ => True := by
    rw [ends_bind]
    refine ⟨fun vertexArray _ => ?_, fun _ _ => trivial⟩
    exact (Binder.follows_bindAll _ _ _ .refl).imp (fun _ _ _ _ => rfl) fun _ _ _ _ => trivial
  exact drawn.of_ok (Prod.ext yielded rfl)

namespace Computation

/-- The source of the sampler that the body gets. -/
def sampled (c : Computation) : Accessor TextureSource := do return .pixels (← c.input)

/-- A stack with the one program that draws the quad. -/
structure Furnished (stack : Stack) : Prop where
  layers : stack.layers = []
  program : ∃ p, stack.programs = [p] ∧ p.draw = .ofCount 6

section Make

variable {s : Session δ} {w : World δ} {failed : RenderError → World δ → Prop}

omit [GraphicsDevice δ] in
theorem ends_author {action : Authoring α} {done : α → World δ → Prop} :
    (author action).Ends w done failed ↔
      match w.see action.run with
      | .ok a => done a (w.looked action.run)
      | .error e => failed (.resource (.token e)) (w.looked action.run) := by
  unfold author
  rw [Attempt.ends_bind, Attempt.ends_lift, Engine.run_readHost]
  cases w.see action.run <;> rfl

/-- The calls of a session that make a stack and give it its program. -/
def installing (s : Session δ) (host : Host) (supported : Bool) (width height : UInt32)
    (vertex fragment : CompiledShader) : List SessionStep :=
  [.changeHost fun _ => host, .makeStack supported width height {},
    .compile s.liveStacks.length vertex fragment { draw := .ofCount 6 },
    .addToStack s.liveStacks.length s.aside.length]

/-- A stack with its program is what a session gets by these calls. -/
theorem ends_install {supported : Bool} {width height : UInt32} (host : Host)
    (vertex fragment : CompiledShader) :
    (install supported width height vertex fragment).Ends { s.world with host }
      (fun stack w => Furnished stack ∧
        Session.run (installing s host supported width height vertex fragment) s =
          { s with world := w, liveStacks := s.liveStacks ++ [stack] })
      fun _ _ => True := by
  have made := Session.ends_attempt (s := s.perform (.changeHost fun _ => host))
    (Stack.make supported width height {}) fun stack s => { s with liveStacks := s.liveStacks ++ [stack] }
  have empty : (Stack.make supported width height {} : Attempt δ Stack).Ends { s.world with host }
      (fun stack _ => stack.layers = [] ∧ stack.programs = []) fun _ _ => True := by
    rw [Stack.ends_make]
    split <;> trivial
  unfold install
  rw [Attempt.ends_bind]
  refine (made.and empty).imp ?_ fun _ _ _ => trivial
  rintro stack w₁ ⟨made, layers, programs⟩
  have found : (s.liveStacks ++ [stack])[s.liveStacks.length]? = some stack := by simp
  obtain ⟨compiled, _⟩ := Session.perform_compile
    (s := { s with world := w₁, liveStacks := s.liveStacks ++ [stack] })
    vertex fragment { draw := .ofCount 6 } found
  have drawn := ProgramCache.draw_compile (w := w₁) stack.cache stack.redraw vertex fragment
    { draw := .ofCount 6 }
  have split : (stack.compile vertex fragment { draw := .ofCount 6 }).run w₁ =
      ((((stack.cache.compile stack.redraw vertex fragment { draw := .ofCount 6 }).run w₁).1.1,
        { stack with
          cache := ((stack.cache.compile stack.redraw vertex fragment { draw := .ofCount 6 }).run w₁).1.2 }),
        ((stack.cache.compile stack.redraw vertex fragment { draw := .ofCount 6 }).run w₁).2) := rfl
  rw [Attempt.ends_bind, Attempt.ends_lift, split]
  dsimp only at compiled ⊢
  generalize (stack.cache.compile stack.redraw vertex fragment { draw := .ofCount 6 }).run w₁ = built
    at compiled drawn ⊢
  obtain ⟨⟨e | p, cache⟩, w₂⟩ := built
  · trivial
  · refine ⟨⟨layers, p, ?_, drawn p rfl⟩, ?_⟩
    · simp [Stack.add, programs]
    · have added : Session.perform (.addToStack s.liveStacks.length s.aside.length)
          { s with
            world := w₂
            liveStacks := (s.liveStacks ++ [stack]).set s.liveStacks.length { stack with cache }
            aside := s.aside ++ [p] } =
          { s with
            world := w₂
            liveStacks := s.liveStacks ++ [Stack.add p { stack with cache }] } := by
        simp [Session.perform, Session.takeAside, Session.addToStack, List.eraseIdx_append_of_length_le]
      rw [← added]
      exact (congrArg _ (congrArg _ made)).trans (congrArg _ compiled)

/-- Building a computation only asks the host before its stack is made. -/
theorem ends_make {supported : Bool} {width height : UInt32} {input : Accessor HostArray}
    {body : Token → List TemplatePart} {config : ComputeConfig} :
    (make supported width height input body config).Ends s.world
      (fun c w => (c.input = input ∧ c.config = config ∧ Furnished c.stack) ∧
        ∃ steps, Session.run steps s = { s with world := w, liveStacks := s.liveStacks ++ [c.stack] })
      fun _ _ => True := by
  unfold make
  simp only [Attempt.ends_bind, Attempt.ends_lift, Attempt.ends_except, Engine.run_readHost, ends_author,
    Attempt.ends_pure, World.looked]
  split
  · split
    · split
      · refine (ends_install _ _ _).imp ?_ fun _ _ _ => trivial
        rintro stack w ⟨furnished, same⟩
        exact ⟨⟨trivial, trivial, furnished⟩, _, same⟩
      · trivial
    · trivial
  · trivial

end Make

section Run

variable {c : Computation} {s : Session δ} {w : World δ}

/-- A run asks for the input and reads the stack at the input's size. -/
theorem ends_run {done : PixelBuffer × Computation → World δ → Prop}
    {failed : RenderError → World δ → Prop} :
    c.run.Ends w done failed ↔
      match c.config.dimensions (w.see c.input) with
      | .ok (width, height) =>
        (c.stack.read (c.config.reading (w.see c.input) width height)).Ends (w.looked c.input)
          (fun answer => done (answer.1, { c with stack := answer.2 })) failed
      | .error e => failed e (w.looked c.input) := by
  unfold run
  rw [Attempt.ends_bind, Attempt.ends_lift, Engine.run_readHost, Attempt.ends_bind, Attempt.ends_except]
  cases c.config.dimensions (w.see c.input) with
  | error e => rfl
  | ok size =>
    obtain ⟨width, height⟩ := size
    dsimp only
    rw [Attempt.ends_bind]
    rfl

/-- Reading changes neither the layers nor what the program draws. -/
theorem Furnished.read {stack : Stack} {config : ReadConfig} (furnished : Furnished stack) :
    (stack.read config).Ends w (fun answer _ => Furnished answer.2) fun _ _ => True := by
  rw [Stack.ends_read]
  dsimp only
  split
  · trivial
  · refine Stack.steady_bindTarget.imp ?_ fun _ _ _ => trivial
    rintro ⟨framebuffer, bound⟩ w' ⟨_, same, _, _⟩
    dsimp only at same ⊢
    obtain ⟨programs, drawn, shells⟩ := bound.renderTo_eq (some framebuffer)
      (config.width.getD stack.width) (config.height.getD stack.height)
      (w'.perform (.clear .opaqueBlack .one))
    obtain ⟨p, one, draw⟩ := furnished.program
    rw [drawn, same]
    constructor
    · exact furnished.layers
    · rw [same, one, List.map_singleton] at shells
      obtain ⟨p', here, shell⟩ := List.map_eq_singleton_iff.mp shells
      exact ⟨p', here, (congrArg Program.draw shell).trans draw⟩

/-- Running a computation is what a session does when the host changes and a stack is read. -/
theorem ends_run_session {i : Nat} (found : s.liveStacks[i]? = some c.stack)
    (furnished : Furnished c.stack) :
    c.run.Ends s.world
      (fun answer w => Furnished answer.2.stack ∧ ∃ steps, Session.run steps s =
        { s with world := w, liveStacks := s.liveStacks.set i answer.2.stack })
      fun _ w => ∃ steps, Session.run steps s = { s with world := w } := by
  let ask : SessionStep := .changeHost fun host => (c.input.run host).2
  rw [ends_run]
  cases c.config.dimensions (s.world.see c.input) with
  | error e => exact ⟨[ask], rfl⟩
  | ok size =>
    obtain ⟨width, height⟩ := size
    have asked : (s.perform ask).liveStacks[i]? = some c.stack := found
    refine ((Session.ends_perform_read asked).and furnished.read).imp ?_ ?_
    · rintro answer w ⟨same, furnished'⟩
      exact ⟨furnished', [ask, .read i _], same⟩
    · rintro e w ⟨same, _⟩
      exact ⟨[ask, .read i _], same⟩

end Run

/-- A computation has its place among the stacks of a session. Beside running it the host may do whatever
leaves its stack alone. -/
inductive Lives : Computation → Nat → Session δ → Prop
  | made {s : Session δ} {supported : Bool} {width height : UInt32} {input : Accessor HostArray}
      {body : Token → List TemplatePart} {config : ComputeConfig} {c : Computation} {w : World δ}
      (reached : s.Reached)
      (built : (make supported width height input body config).run.run s.world = (.ok c, w)) :
      Lives c s.liveStacks.length { s with world := w, liveStacks := s.liveStacks ++ [c.stack] }
  | ran {s : Session δ} {i : Nat} {c c' : Computation} {result : PixelBuffer} {w : World δ}
      (lives : Lives c i s) (ran : c.run.run.run s.world = (.ok (result, c'), w)) :
      Lives c' i { s with world := w, liveStacks := s.liveStacks.set i c'.stack }
  | refused {s : Session δ} {i : Nat} {c : Computation} {e : RenderError} {w : World δ}
      (lives : Lives c i s) (ran : c.run.run.run s.world = (.error e, w)) :
      Lives c i { s with world := w }
  | meanwhile {s : Session δ} {i j : Nat} {c : Computation} (lives : Lives c i s) (step : SessionStep)
      (kept : (s.perform step).liveStacks[j]? = some c.stack) : Lives c j (s.perform step)

/-- Such a session is one that calls of a host lead to, and the stack has its one program. -/
theorem Lives.seated {c : Computation} {i : Nat} {s : Session δ} (lives : Lives c i s) :
    s.Reached ∧ s.liveStacks[i]? = some c.stack ∧ Furnished c.stack := by
  induction lives with
  | made reached built =>
    obtain ⟨⟨_, _, furnished⟩, steps, same⟩ := ends_make.of_ok built
    refine ⟨?_, by simp, furnished⟩
    rw [← same]
    exact reached.run steps
  | ran lives ran ih =>
    obtain ⟨reached, found, furnished⟩ := ih
    obtain ⟨furnished', steps, same⟩ := (ends_run_session found furnished).of_ok ran
    refine ⟨?_, List.getElem?_set_self (List.getElem?_eq_some_iff.mp found).1, furnished'⟩
    rw [← same]
    exact reached.run steps
  | refused lives ran ih =>
    obtain ⟨reached, found, furnished⟩ := ih
    obtain ⟨steps, same⟩ := (ends_run_session found furnished).of_error ran
    refine ⟨?_, found, furnished⟩
    rw [← same]
    exact reached.run steps
  | meanwhile lives step kept ih =>
    obtain ⟨reached, _, furnished⟩ := ih
    exact ⟨reached.run [step], kept, furnished⟩

end Computation
end ShaderStack

import ShaderStack.Proofs.Computing

/-! What a computation computes from.

A run draws once, at the size of its input. Whether the input is uploaded is decided apart from that size:
an input that does not fill its target is let go without an error, and the run computes from what the
texture held before. -/
namespace ShaderStack

open World (Extends Emits Draws Spares)

variable {δ : Type} [GraphicsDevice δ] {w w₁ w' : World δ}

namespace World

/-- One draw is made between two worlds, and it is allowed. -/
def DrawsOnce (allowed : GraphicsState × Command → Prop) (w w' : World δ) : Prop :=
  ∃ es d, w'.events = w.events ++ es ∧ w.graphics.draws es = [d] ∧ allowed d

namespace DrawsOnce

variable {allowed wider : GraphicsState × Command → Prop}

omit [GraphicsDevice δ] in
theorem emit {act : δ → δ} {e : Event} {c : Command} (draw : e.draw? = some c)
    (fits : allowed (w.graphics, c)) : DrawsOnce allowed w (w.emit act e) :=
  ⟨[e], (w.graphics, c), by simp, by simp [GraphicsState.draws, draw], fits⟩

omit [GraphicsDevice δ] in
theorem after (early : Draws (fun _ => False) w w₁) (once : DrawsOnce allowed w₁ w') :
    DrawsOnce allowed w w' := by
  obtain ⟨es, split, none⟩ := early
  obtain ⟨fs, d, split', one, fits⟩ := once
  refine ⟨es ++ fs, d, by rw [split', split, List.append_assoc], ?_, fits⟩
  rw [GraphicsState.draws_append, ← graphics_append split, one,
    List.eq_nil_iff_forall_not_mem.mpr none, List.nil_append]

omit [GraphicsDevice δ] in
theorem before (once : DrawsOnce allowed w w₁) (late : Draws (fun _ => False) w₁ w') :
    DrawsOnce allowed w w' := by
  obtain ⟨es, d, split, one, fits⟩ := once
  obtain ⟨fs, split', none⟩ := late
  refine ⟨es ++ fs, d, by rw [split', split, List.append_assoc], ?_, fits⟩
  rw [GraphicsState.draws_append, ← graphics_append split, one,
    List.eq_nil_iff_forall_not_mem.mpr none, List.append_nil]

omit [GraphicsDevice δ] in
theorem mono (once : DrawsOnce allowed w w') (wide : ∀ d, allowed d → wider d) :
    DrawsOnce wider w w' := by
  obtain ⟨es, d, split, one, fits⟩ := once
  exact ⟨es, d, split, one, wide d fits⟩

end DrawsOnce
end World

open World (DrawsOnce)

/-- A program that draws arrays draws once, when its updates have run. -/
theorem Program.drawsOnce_render {p : Program} {first count : Int32} (draw : p.draw = .arrays first count) :
    DrawsOnce (fun d => d.1 = (p.before w).graphics) w (p.render.run w).2 := by
  have early : Draws (fun _ => False) w (p.before w) :=
    Draws.ofEmits extends_before.events fun _ fits => Event.draw?_isQuiet fits.2
  have commands : p.drawCommands (p.flushed w).bindings.elements = [.drawArrays p.mode first count] := by
    simp [drawCommands, draw]
  have once : DrawsOnce (fun d => d.1 = (p.before w).graphics) (p.before w)
      ((p.before w).perform (.drawArrays p.mode first count)) := DrawsOnce.emit rfl rfl
  rw [run_render, commands, World.performAll_cons, World.performAll_nil]
  exact (DrawsOnce.after early once).before (Draws.emit (by simp [Event.draw?]))

/-- So does a stack of that program. -/
theorem Stack.drawsOnce_renderTo {stack : Stack} {p : Program} {first count : Int32} (target : Handle)
    (width height : UInt32) (layers : stack.layers = []) (one : stack.programs = [p])
    (draw : p.draw = .arrays first count) :
    DrawsOnce (fun d => d.1 = (p.before (targeted (some target) width height w)).graphics) w
      ((stack.renderTo (some target) width height).run w).2 := by
  have aimed : Draws (fun _ => False) w (targeted (some target) width height w) :=
    Draws.performAll (by simp [Event.draw?])
  rw [run_renderTo, layers, one]
  exact (DrawsOnce.after aimed (Program.drawsOnce_render draw)).before (Draws.silent rfl)

/-- Aiming at a target changes nothing else. -/
theorem Stack.graphics_targeted (target : Handle) (width height : UInt32) :
    (targeted (some target) width height w).graphics =
      { w.graphics with framebuffer := some target, viewport := wholeOf width height } := by
  have aimed : targeted (some target) width height w =
      w.performAll [.bindFramebuffer (some target), .viewport 0 0 width height] := rfl
  rw [aimed, World.graphics_performAll]
  rfl

namespace Session

variable {s : Session δ} {tokens : List Token} {origin : Program → Prop} {p : Program}

/-- What a draw into a target finds for the samplers of its program. -/
def Finds (s : Session δ) (p : Program) (target : ReadTarget) (width height : UInt32)
    (d : GraphicsState × Command) : Prop :=
  d.1.aim = (some target.framebuffer, wholeOf width height) ∧
    ∀ u ∈ p.samplers, ∀ pixels,
      (∀ host, UpdateQueue.Visits p.bindings.queue.entries s.world.host host → u.Gives pixels host) →
      u.Samples p.handle (u.options.content pixels (s.world.graphics.textures u.texture)) d.1

/-- A program that draws into a target finds its textures as they were, or with new pixels. -/
theorem finds_targeted {target : ReadTarget} {width height : UInt32} {d : GraphicsState × Command}
    (state : d.1 = (p.before (Stack.targeted (some target.framebuffer) width height w)).graphics)
    (wired : p.Wired tokens) (settled : p.Settled w.graphics) (host : w.host = s.world.host)
    (kept : ∀ o ∈ p.owns, ∀ c : Cell, c.object? = some o → c.Same s.world.graphics w.graphics) :
    s.Finds p target width height d := by
  have graphics := Stack.graphics_targeted (w := w) target.framebuffer width height
  have host' : (Stack.targeted (some target.framebuffer) width height w).host = s.world.host := by
    rw [← host]
    rfl
  have ready : p.Settled (Stack.targeted (some target.framebuffer) width height w).graphics := by
    refine settled.keep wired fun _ c _ _ _ _ => ?_
    rw [graphics]
    cases c <;> rfl
  refine ⟨?_, fun u sampler pixels gives => ?_⟩
  · rw [state, Program.graphics_before.1, graphics]
  · obtain ⟨slot, member⟩ := Program.mem_samplers.mp sampler
    obtain ⟨o, owned, part⟩ := wired.owned _ member (.texture u.texture) (List.mem_singleton_self _)
    have same : w.graphics.textures u.texture = s.world.graphics.textures u.texture :=
      kept o owned (.texture u.texture) part
    rw [← host'] at gives
    have samples := Program.samples_before member gives wired ready
    rw [state, ← same]
    rwa [graphics] at samples

/-- A stack of one program is read by one draw into the target. -/
theorem Prepared.drawsOnce_read {i : Nat} {stack : Stack} {c : ReadConfig} {first count : Int32}
    (prepared : s.Prepared tokens origin) (sound : s.Sound) (found : s.liveStacks[i]? = some stack)
    (layers : stack.layers = []) (one : stack.programs = [p]) (draw : p.draw = .arrays first count) :
    let width := c.width.getD stack.width
    let height := c.height.getD stack.height
    (stack.read c).Ends s.world
      (fun answer w => c.validate width height = .ok () ∧ (Minting w.events → ∃ target,
        answer.2.targets.lookup (c.resolve width height) = some target ∧
          DrawsOnce (s.Finds p target width height) s.world w))
      fun _ _ => True := by
  rw [Stack.ends_read]
  dsimp only
  generalize c.width.getD stack.width = width
  generalize c.height.getD stack.height = height
  split
  · trivial
  next valid =>
    refine ((prepared.bindTarget sound found).and Stack.steady_bindTarget).imp ?_ fun _ _ _ => trivial
    rintro ⟨_, bound⟩ w ⟨ready, ⟨target, key, rfl⟩, same, steady, _⟩
    refine ⟨valid, fun minting => ?_⟩
    dsimp only at key same minting ⊢
    have drawing : Extends (·.isFrame) RenderTexture.shell (w.perform (.clear .opaqueBlack .one))
        ((bound.renderTo (some target.framebuffer) width height).run
          (w.perform (.clear .opaqueBlack .one))).2 := Stack.extends_renderTo
    have early := drawing.events.minting (World.minting_of_emit (World.minting_of_performAll minting))
    obtain ⟨ready, _, programs, moment, blank, aimed, spares⟩ := ready (World.minting_of_emit early)
    dsimp only at ready programs moment blank aimed
    have cleared : (w.perform (.clear .opaqueBlack .one)).graphics = w.graphics :=
      World.graphics_cleared _ _ (by rw [aimed]; exact blank)
    have mine : p ∈ s.programs :=
      mem_programs.mpr (.inr (.inl ⟨stack, List.mem_of_getElem? found, by simp [one]⟩))
    obtain ⟨wired, settled, _⟩ := ready.programs p (programs ▸ mine)
    refine ⟨target, ?_, ?_⟩
    · obtain ⟨drawn, renders, _⟩ := bound.renderTo_eq (some target.framebuffer) width height
        (w.perform (.clear .opaqueBlack .one))
      rw [renders]
      exact key
    · -- binding and clearing the target draw nothing
      have before : Draws (fun _ => False) s.world (w.perform (.clear .opaqueBlack .one)) :=
        Draws.ofEmits (steady.push (by rfl)) fun _ => Event.draw?_isSteady
      have layers' : bound.layers = [] := by rw [same, layers]
      have one' : bound.programs = [p] := by rw [same, one]
      have drawn := Stack.drawsOnce_renderTo (w := w.perform (.clear .opaqueBlack .one))
        target.framebuffer width height layers' one' draw
      refine (((DrawsOnce.after before drawn).before (Draws.emit (by simp [Event.draw?]))).before
        (Draws.performAll (by simp [Event.draw?]))).mono fun d state => ?_
      refine finds_targeted state wired ?_ (congrArg Moment.host moment) ?_
      · rwa [cleared]
      · intro o owned cell part
        rw [cleared]
        exact spares.same prepared.free cell o part (mem_owns_of_program mine owned)

end Session

namespace Computation

variable {c c' : Computation} {s : Session δ} {i : Nat} {pixels : PixelBuffer}

/-- During a run the input stays what it is, however the program's accessors are asked, and arrays that
the program has uploaded stay too. -/
def Steady (c : Computation) (w : World δ) : Prop :=
  ∀ p ∈ c.stack.programs, ∀ host,
    UpdateQueue.Visits p.bindings.queue.entries (w.looked c.input).host host →
      (c.input.run host).1.contents = (w.see c.input).contents ∧
        ∀ old ∈ p.uploads, (c.input.run host).1.sameBuffer old → (c.input.run host).1 = old

/-- A sampler of the input: whenever it is asked during a run, it gives the input. -/
structure Feeds (c : Computation) (w : World δ) (p : Program) (u : SamplerUpdate) : Prop where
  options : u.options = c.config.sampling
  value : ∀ host, UpdateQueue.Visits p.bindings.queue.entries (w.looked c.input).host host →
    (u.value.run host).1 = (c.sampled.run host).1

/-- What the texture of the input holds: the input if it fills the target, and what was there if not. -/
structure Computes (c : Computation) (input : HostArray) (width height : UInt32)
    (before content : TextureContent) : Prop where
  sampled : content = c.config.sampling.content input before
  fresh : c.config.Counts input → c.config.Fills input width height → ∃ image,
    image.width = width ∧ image.height = height ∧ content = .image image (some input.bytes)
  stale : c.config.Counts input → ¬ c.config.Fills input width height → content = before

omit [GraphicsDevice δ] in
theorem computes_content {input : HostArray} {width height : UInt32} {before : TextureContent}
    (size : c.config.dimensions input = .ok (width, height))
    (valid : (c.config.reading input width height).validate width height = .ok ()) :
    c.Computes input width height before (c.config.sampling.content input before) := by
  have colour : c.config.texelFormat ≠ .luminance := (ReadConfig.validate_eq_ok_iff.mp valid).2.1
  refine ⟨rfl, fun counts fills => ?_, fun counts other => ?_⟩
  · obtain ⟨image, found, wide, tall⟩ := ComputeConfig.exists_image_of_fills size colour counts fills
    exact ⟨image, wide, tall, by simp [SamplerOptions.content, found]⟩
  · have refused := ComputeConfig.pixelImage?_of_not_fills size colour counts other
    simp [SamplerOptions.content, refused]

/-- A run that succeeds draws once, into a target of the size of its input. The sampler of the input is
bound to a texture that holds the input if it fills the target, and else what it held before the run. -/
theorem run_draws_input_that_fills (lives : c.Lives i s) (steady : c.Steady s.world)
    (ran : c.run.run.run s.world = (.ok (pixels, c'), w)) (minting : Minting w.events)
    (words : WordNames w.events) :
    ∃ p width height target, c.stack.programs = [p] ∧
      c.config.dimensions (s.world.see c.input) = .ok (width, height) ∧
      c'.stack.targets.lookup (c.config.reading (s.world.see c.input) width height) = some target ∧
      DrawsOnce (fun d => d.1.aim = (some target.framebuffer, wholeOf width height) ∧
        ∀ u ∈ p.samplers, c.Feeds s.world p u →
          ∃ content, u.Samples p.handle content d.1 ∧
            c.Computes (s.world.see c.input) width height (s.world.graphics.textures u.texture) content)
        s.world w := by
  obtain ⟨reached, found, layers, p, one, draw⟩ := lives.seated
  -- the stack is read once the host has been asked for the input
  let asked : Session δ := s.perform (.changeHost fun host => (c.input.run host).2)
  -- what is known of all events holds of those before the run
  have grown : Emits (fun _ => True) s.world w := by
    obtain ⟨_, steps, same⟩ := (ends_run_session found ⟨layers, p, one, draw⟩).of_ok ran
    have run := Session.grows_run (s := s) steps
    rwa [same] at run
  obtain ⟨⟨tokens, prepared⟩, sound, _⟩ := (reached.run [.changeHost fun host => (c.input.run host).2]).prepared
    (grown.minting minting) (grown.words words)
  have read : c.run.Ends s.world (fun answer w => Minting w.events →
      ∃ width height target, c.config.dimensions (s.world.see c.input) = .ok (width, height) ∧
        answer.2.stack.targets.lookup (c.config.reading (s.world.see c.input) width height) = some target ∧
        (c.config.reading (s.world.see c.input) width height).validate width height = .ok () ∧
        DrawsOnce (asked.Finds p target width height) s.world w) fun _ _ => True := by
    rw [ends_run]
    cases size : c.config.dimensions (s.world.see c.input) with
    | error e => trivial
    | ok shape =>
      obtain ⟨width, height⟩ := shape
      refine (prepared.drawsOnce_read sound found layers one draw).imp ?_ fun _ _ _ => trivial
      rintro answer w ⟨valid, draws⟩ minting
      obtain ⟨target, key, once⟩ := draws minting
      exact ⟨width, height, target, rfl, key, valid, once⟩
  obtain ⟨width, height, target, size, key, valid, once⟩ := read.of_ok ran minting
  refine ⟨p, width, height, target, one, size, key, once.mono ?_⟩
  rintro d ⟨aim, finds⟩
  refine ⟨aim, fun u sampler feeds => ⟨_, ?_, computes_content size valid⟩⟩
  rw [← feeds.options]
  refine finds u sampler _ fun host visits => ?_
  obtain ⟨same, faithful⟩ := steady p (by simp [one]) host visits
  refine ⟨(c.input.run host).1, ?_, same, fun old uploaded => faithful old ?_⟩
  · exact feeds.value host visits
  · obtain ⟨slot, member⟩ := Program.mem_samplers.mp sampler
    exact List.mem_flatMap.mpr ⟨_, member, by simpa [Update.uploads] using uploaded⟩

/-! A computation that gives back its input. -/
namespace Copying

/-- Floats, which a texture takes. -/
def reals : HostArray := (ArrayContents.ofSingles ([1, 2, 3, 4].map Single.ofInt)).allocate 1

/-- Short integers, which no texture takes. -/
def shorts : HostArray := ⟨2, .i16, [1, 2, 3]⟩

def supplies (data : HostArray) : SessionStep :=
  .changeHost fun host => { host with buffers := assign "input" data host.buffers }

/-- The host has the floats. Both arrays are allocated. -/
def supplied : Session RecordingDevice :=
  Session.run [supplies reals] (Session.fresh {} { nextIdentity := 3 })

def made : Attempt RecordingDevice Computation :=
  make true 1 1 (Accessor.buffer "input")
    (fun input => [.text "return texture(", .token input, .text ", vec2(0.0));"]) {}

/-- The computation is alone, and the host has got the integers. -/
def resupplied (c : Computation) (w : World RecordingDevice) : Session RecordingDevice :=
  Session.perform (supplies shorts) { supplied with world := w, liveStacks := [c.stack] }

/-- The sampler of the input holds the floats. Accessors leave the host as it is. -/
def HoldsReals (c : Computation) (s : Session RecordingDevice) : Prop :=
  (c.config = {} ∧ s.world.see c.input = shorts ∧ (s.world.looked c.input).see c.input = shorts) ∧
    (∀ p ∈ c.stack.programs, (∀ e ∈ p.bindings.queue.entries,
        e.2.asked (s.world.looked c.input).host = (s.world.looked c.input).host) ∧
      ∀ old ∈ p.uploads, shorts.sameBuffer old → shorts = old) ∧
    ∃ p ∈ c.stack.programs, ∃ u ∈ p.samplers, u.options = c.config.sampling ∧
      (s.world.looked c.input).see u.value = .pixels shorts ∧
      s.world.graphics.textures u.texture = .image ⟨.r32f, 4, 1, .red, .float⟩ (some reals.bytes)

instance {c : Computation} {s : Session RecordingDevice} : Decidable (HoldsReals c s) := by
  unfold HoldsReals
  infer_instance

/-- Neither the first run nor the second fails. -/
theorem runs : made.Ends supplied.world
    (fun c w => c.run.Ends w
      (fun answer w => HoldsReals answer.2 (resupplied answer.2 w) ∧
        answer.2.run.Ends (resupplied answer.2 w).world
          (fun _ w => Minting w.events ∧ WordNames w.events) fun _ _ => False)
      fun _ _ => False)
    fun _ _ => False := by
  decide +kernel

/-- A run over the integers gives what the floats give. -/
theorem shorts_give_reals :
    ∃ (c : Computation) (s : Session RecordingDevice) (result : PixelBuffer × Computation)
      (w : World RecordingDevice), c.Lives 0 s ∧ s.world.see c.input = shorts ∧
        c.run.run.run s.world = (.ok result, w) ∧ ∃ p ∈ c.stack.programs, ∃ u ∈ p.samplers,
          c.Feeds s.world p u ∧ DrawsOnce (fun d => u.Samples p.handle
            (.image ⟨.r32f, 4, 1, .red, .float⟩ (some reals.bytes)) d.1) s.world w := by
  obtain ⟨c₀, w₀, built, passes⟩ := runs.exists_ok
  obtain ⟨⟨first, c⟩, w₁, ran, holds, passes⟩ := passes.exists_ok
  obtain ⟨⟨second, c'⟩, w, again, minting, words⟩ := passes.exists_ok
  have reached : supplied.Reached := ⟨{}, { nextIdentity := 3 }, [supplies reals], rfl⟩
  have lives : c.Lives 0 (resupplied c w₁) := .meanwhile (.ran (.made reached built) ran) (supplies shorts) rfl
  dsimp only at holds again
  generalize resupplied c w₁ = s at lives holds again
  obtain ⟨⟨config, seen, still⟩, calm, p', mine, u, sampler, options, value, texture⟩ := holds
  have steady : c.Steady s.world := by
    intro p member host visits
    obtain ⟨fixed, uploaded⟩ := calm p member
    rw [visits.eq_of_fixed fixed, seen]
    have here : (c.input.run (s.world.looked c.input).host).1 = shorts := still
    rw [here]
    exact ⟨rfl, uploaded⟩
  obtain ⟨p, width, height, target, one, size, _, once⟩ :=
    run_draws_input_that_fills lives steady again minting words
  obtain rfl : p' = p := by simpa [one] using mine
  have feeds : c.Feeds s.world p' u := by
    refine ⟨options, fun host visits => ?_⟩
    rw [visits.eq_of_fixed (calm p' mine).1]
    exact value.trans (congrArg TextureSource.pixels still.symm)
  have counts : c.config.Counts shorts := by
    rw [config]
    exact .inr (by decide)
  have unfilled : ¬ c.config.Fills shorts width height := by
    rintro ⟨bytes | reals, _⟩
    · exact absurd bytes (by decide)
    · exact absurd reals (by decide)
  refine ⟨c, s, _, w, lives, seen, again, p', mine, u, sampler, feeds, once.mono fun d finds => ?_⟩
  obtain ⟨content, samples, computes⟩ := finds.2 u sampler feeds
  rw [seen] at computes
  rwa [computes.stale counts unfilled, texture] at samples

end Copying

end Computation
end ShaderStack

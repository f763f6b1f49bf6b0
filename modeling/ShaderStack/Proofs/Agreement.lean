import ShaderStack.Proofs.Drawing
import ShaderStack.Proofs.Naive

/-! Agreement with naive binding.

Updates skip what they uploaded last and share slots, units and programs with each other. Whatever a
host compiles, draws, reads and drops in whatever order, each draw finds what naive binding would have
left for it. -/
namespace ShaderStack

open World (Extends Emits Kept Spares Draws)

/-- The calls that ask accessors: programs are built or drawn. -/
def SessionStep.reads : SessionStep → Bool
  | compile _ _ _ _ | renderProgram _ | render _ | read _ _ | renderTexture _ => true
  | _ => false

namespace Session

variable {δ : Type} [GraphicsDevice δ] {s : Session δ} {step : SessionStep} {tokens : List Token}
  {origin : Program → Prop}

/-- One call leaves all programs ready. In a calm moment those that it builds bring the tokens bound last,
and what it draws agrees with what the accessors give. -/
theorem prepared_perform (prepared : s.Prepared tokens origin) (sound : s.Sound)
    (screen : s.world.graphics.framebuffer = none)
    (minting : Minting (s.perform step).world.events) (words : WordNames (s.perform step).world.events) :
    (s.perform step).Prepared (tokens ++ step.tokens)
        (fun f => origin f ∨
          ((step.reads → (s.moment (tokens ++ step.tokens)).Calm) → s.Yields step f)) ∧
      ((step.reads → (s.moment (tokens ++ step.tokens)).Calm) →
        Draws (s.Agrees (tokens ++ step.tokens)) s.world (s.perform step).world) := by
  have before : Minting s.world.events := (grows_perform step).minting minting
  have wide : s.Prepared (tokens ++ step.tokens) (fun f => origin f ∨
      ((step.reads → (s.moment (tokens ++ step.tokens)).Calm) → s.Yields step f)) :=
    prepared.mono (fun t => List.mem_append_left _) fun _ => .inl
  have upkeep (upkeep : step.isUpkeep) : (s.perform step).Prepared (tokens ++ step.tokens)
      (fun f => origin f ∨
        ((step.reads → (s.moment (tokens ++ step.tokens)).Calm) → s.Yields step f)) :=
    wide.upkeep upkeep sound screen before
  have lazy (lazy : step.isLazy) :
      Draws (s.Agrees (tokens ++ step.tokens)) s.world (s.perform step).world :=
    (restores_perform lazy).draws
  cases step with
  | compile i vertex fragment config =>
    refine ⟨(prepared.compile sound minting words).mono (fun _ => id) ?_, fun _ => lazy rfl⟩
    exact fun f => Or.imp_right fun yields calm => yields (calm rfl)
  | makeTexture width height =>
    exact ⟨wide.makeTexture sound minting, fun _ => lazy rfl⟩
  | renderProgram j =>
    obtain ⟨ready, draws⟩ := wide.renderProgram sound screen before
    exact ⟨ready, fun calm => draws (calm rfl)⟩
  | render i =>
    obtain ⟨ready, draws⟩ := wide.render sound screen before
    exact ⟨ready, fun calm => draws (calm rfl)⟩
  | read i config =>
    obtain ⟨ready, draws⟩ := wide.read sound minting
    exact ⟨ready, fun calm => draws (calm rfl)⟩
  | renderTexture key =>
    obtain ⟨ready, draws⟩ := wide.renderTexture sound before
    exact ⟨ready, fun calm => draws (calm rfl)⟩
  | makeStack supported width height options =>
    exact ⟨upkeep rfl, fun _ => (draws_makeStack supported width height options).mono fun _ => False.elim⟩
  | resize i width height =>
    exact ⟨upkeep rfl, fun _ => (draws_resize i width height).mono fun _ => False.elim⟩
  | _ => exact ⟨upkeep rfl, fun _ => lazy rfl⟩

/-- What is left of a program that a run has built. -/
def Descends (steps : List SessionStep) (s : Session δ) (f : Program) : Prop :=
  ∃ before step after, steps = before ++ step :: after ∧ (run before s).Yields step f

/-- The accessors of all tokens up to now are calm whenever a call of a run asks them. -/
def Calm (tokens : List Token) : List SessionStep → Session δ → Prop
  | [], _ => True
  | step :: rest, s => (step.reads → (s.moment (tokens ++ step.tokens)).Calm) ∧
      Calm (tokens ++ step.tokens) rest (s.perform step)

theorem calm_append {steps more : List SessionStep} : Calm tokens (steps ++ more) s ↔
    Calm tokens steps s ∧ Calm (tokens ++ steps.flatMap SessionStep.tokens) more (run steps s) := by
  induction steps generalizing s tokens with
  | nil => simp [Calm, run]
  | cons step rest ih => simp [Calm, run, ih, and_assoc]

/-- A run leaves all programs ready, and if the accessors are calm they bring the tokens bound last. -/
theorem prepared_run {size : Option (UInt32 × UInt32)} {steps : List SessionStep}
    (prepared : s.Prepared tokens origin) (sound : s.Sound) (idle : s.Idle size)
    (minting : Minting (run steps s).world.events) (words : WordNames (run steps s).world.events) :
    (run steps s).Prepared (tokens ++ steps.flatMap SessionStep.tokens)
      fun f => origin f ∨ (Calm tokens steps s → Descends steps s f) := by
  induction steps generalizing s tokens origin size with
  | nil => exact prepared.mono (fun t => List.mem_append_left _) fun _ => .inl
  | cons step rest ih =>
    have grown := grows_run (s := s.perform step) rest
    obtain ⟨next, _⟩ := prepared_perform prepared sound (congrArg Prod.fst idle)
      (grown.minting minting) (grown.words words)
    have last := ih next (sound_perform step sound) (idle_perform step sound idle) minting words
    rw [List.append_assoc, ← List.flatMap_cons] at last
    refine last.mono (fun t => id) ?_
    rintro f ((old | yields) | descends)
    · exact .inl old
    · exact .inr fun calm => ⟨[], step, rest, rfl, yields calm.1⟩
    · refine .inr fun calm => ?_
      obtain ⟨before, call, after, rfl, yields⟩ := descends calm.2
      exact ⟨step :: before, call, after, rfl, yields⟩

omit [GraphicsDevice δ] in
theorem prepared_fresh {device : δ} {host : Host} : (fresh device host).Prepared tokens origin where
  programs p member := by simp [programs, World.programs, fresh] at member
  mounted f member := by simp [mounts, World.mounts, fresh] at member
  free := rfl

/-- Whatever a session has done, its programs are ready to draw. -/
theorem prepared_run_fresh {device : δ} {host : Host} {steps : List SessionStep}
    (minting : Minting (run steps (fresh device host)).world.events)
    (words : WordNames (run steps (fresh device host)).world.events) :
    (run steps (fresh device host)).Prepared (steps.flatMap SessionStep.tokens) (fun _ => True) ∧
      (run steps (fresh device host)).Sound ∧
      (run steps (fresh device host)).world.graphics.framebuffer = none := by
  have start : (fresh device host).Prepared [] fun _ => True := prepared_fresh
  have idle : (fresh device host).Idle none := rfl
  have prepared := prepared_run start sound_fresh idle minting words
  refine ⟨prepared.mono (fun _ => id) fun _ _ => trivial, sound_run steps sound_fresh, ?_⟩
  exact congrArg Prod.fst (idle_run steps sound_fresh idle)

theorem Reached.prepared (reached : s.Reached) (minting : Minting s.world.events)
    (words : WordNames s.world.events) :
    (∃ tokens, s.Prepared tokens fun _ => True) ∧ s.Sound ∧ s.world.graphics.framebuffer = none := by
  obtain ⟨device, host, steps, rfl⟩ := reached
  obtain ⟨prepared, rest⟩ := prepared_run_fresh minting words
  exact ⟨⟨_, prepared⟩, rest⟩

/-- A program that a run has built from tokens at their slots, whatever its updates remember by now. -/
def Built (steps : List SessionStep) (s : Session δ) (p : Program) (bound : List (BindingSlot × Token)) :
    Prop :=
  ∃ before step after q, steps = before ++ step :: after ∧ (run before s).Builds step q bound ∧
    p.frozen = q.frozen

/-- Every draw of a session finds what naive binding would leave at the start of its call: for each slot
of its program, the value that the accessor of the token bound last gives. -/
theorem draws_agree_with_naive_binding {device : δ} {host : Host} {steps : List SessionStep}
    (calm : Calm [] (steps ++ [step]) (fresh device host))
    (minting : Minting (run (steps ++ [step]) (fresh device host)).world.events)
    (words : WordNames (run (steps ++ [step]) (fresh device host)).world.events) :
    ∀ d ∈ (run steps (fresh device host)).draws step,
      ∃ p ∈ (run steps (fresh device host)).programs, ∃ bound,
        Built steps (fresh device host) p bound ∧
        p.DrawsNaively ((run steps (fresh device host)).moment
          ((steps ++ [step]).flatMap SessionStep.tokens)) bound d := by
  intro d member
  have last : run (steps ++ [step]) (fresh device host) =
      (run steps (fresh device host)).perform step := run_append
  obtain ⟨earlier, now, _⟩ := calm_append.mp calm
  rw [last] at minting words
  rw [List.nil_append] at now
  rw [List.flatMap_append, List.flatMap_singleton]
  have grown := grows_perform (s := run steps (fresh device host)) step
  have idle : (fresh device host).Idle none := rfl
  have start : (fresh device host).Prepared [] fun _ => False := prepared_fresh
  have prepared := prepared_run start sound_fresh idle (grown.minting minting) (grown.words words)
  have screen : (run steps (fresh device host)).world.graphics.framebuffer = none :=
    congrArg Prod.fst (idle_run steps sound_fresh idle)
  obtain ⟨_, draws⟩ :=
    prepared_perform prepared (sound_run steps sound_fresh) screen minting words
  obtain ⟨p, ⟨q, mine, same⟩, array, used, command, shown⟩ := mem_draws step (draws now) d member
  obtain ⟨wired, _, none | origin⟩ := prepared.programs q mine
  · exact none.elim
  · obtain ⟨before, call, after, split, r, bound, builds, frozen, serves⟩ := origin earlier
    refine ⟨q, mine, bound, ⟨before, call, after, r, split, builds, frozen.symm⟩, ?_⟩
    have serves' := serves.of_frozen (Program.entries_of_frozen frozen.symm)
    exact Program.drawsNaively wired serves' same.symm ⟨array, used⟩ command shown

end Session

section Rehearsal

/-- An array attribute and a uniform of which the host gives new values between frames. -/
def shape : Token :=
  let value : Accessor HostArray := Accessor.buffer "shape"
  ⟨10, .vertexAttribute ⟨.vector .integer .one, value, {}⟩⟩

def tint : Token :=
  let value : Accessor UniformValue := Accessor.value "tint"
  ⟨11, .uniform ⟨.vector .integer .one, value, none⟩⟩

def shapes : List HostArray := [⟨1, .u8, [7]⟩, ⟨2, .u16, [8, 9]⟩]

/-- Two programs of one cached pair are drawn, then the host gives another array and another value. -/
def rehearsal : List SessionStep :=
  let vertex : CompiledShader := ⟨1, "in int shape;\nvoid main shape", [⟨"shape", shape⟩]⟩
  let fragment : CompiledShader := ⟨2, "uniform int tint;\nvoid main tint", [⟨"tint", tint⟩]⟩
  let config : ProgramConfig := { draw := .arrays 0 1, cached := true }
  [.makeStack true 8 8 {}, .compile 0 vertex fragment config, .compile 0 vertex fragment config,
    .addToStack 0 0, .addToStack 0 0, .render 0,
    .changeHost fun _ => { buffers := [("shape", ⟨2, .u16, [8, 9]⟩)], values := [("tint", .ofInt32 2)] }]

def rehearsed (steps : List SessionStep) : Session RecordingDevice :=
  Session.run steps (Session.fresh {}
    { buffers := [("shape", ⟨1, .u8, [7]⟩)], values := [("tint", .ofInt32 1)] })

theorem calm_rehearsed {s : Session RecordingDevice} {tokens : List Token}
    (known : ∀ t ∈ tokens, t = shape ∨ t = tint) (array : s.world.host.buffer "shape" ∈ shapes)
    (value : (s.world.host.value "tint").dataType = .vector .integer .one)
    (uploaded : ∀ a ∈ s.programs.flatMap Program.uploads, a ∈ shapes) : (s.moment tokens).Calm := by
  refine Moment.calm_of_readers shapes ?_ ?_ uploaded ?_ (by decide)
  · intro t member host
    rcases known t member with rfl | rfl <;> rfl
  · intro t member
    rcases known t member with rfl | rfl
    · have fits : ∀ a ∈ shapes, (checkAttribute (.vector .integer .one) .array a).isOk := by decide
      exact fits _ array
    · change (checkUniform (.vector .integer .one) (s.world.host.value "tint").dataType).isOk
      rw [value]
      decide
  · intro t member a here
    rcases known t member with rfl | rfl
    · rw [List.mem_singleton.mp here]
      exact array
    · exact absurd here List.not_mem_nil

/-- Each of the two draws of the last frame finds the new array and the new value. -/
theorem rehearsal_agrees_with_naive_binding :
    ((rehearsed rehearsal).draws (.render 0)).length = 2 ∧
      ∀ d ∈ (rehearsed rehearsal).draws (.render 0), ∃ p ∈ (rehearsed rehearsal).programs, ∃ bound,
        Session.Built rehearsal (rehearsed []) p bound ∧
        p.DrawsNaively ((rehearsed rehearsal).moment
          ((rehearsal ++ [SessionStep.render 0]).flatMap SessionStep.tokens)) bound d := by
  refine ⟨by decide +kernel, Session.draws_agree_with_naive_binding ?_ ?_ ?_⟩
  · refine ⟨nofun, fun _ => calm_rehearsed ?_ ?_ ?_ ?_, fun _ => calm_rehearsed ?_ ?_ ?_ ?_, nofun, nofun,
      fun _ => calm_rehearsed ?_ ?_ ?_ ?_, nofun, fun _ => calm_rehearsed ?_ ?_ ?_ ?_, trivial⟩
    all_goals first
      | decide +kernel
      | simp [SessionStep.tokens]
  · decide +kernel
  · decide +kernel

end Rehearsal
end ShaderStack

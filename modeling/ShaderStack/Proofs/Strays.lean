import ShaderStack.Device.Recording
import ShaderStack.Proofs.Drawing
import ShaderStack.Proofs.Mentions

/-! Which calls name objects that are gone.

The updates of a program write to objects of its own, so that a program names what is there as long as
it is kept, except that a program out of a cache goes with the stack of the cache. Nothing else is named
that is not there, whatever a host does and in whichever order it lets go. -/
namespace ShaderStack

open World (Extends Emits Kept Mentions)

variable {δ : Type} {w : World δ} {b b' : Bindings}

/-- The object of each update is one of the program's. -/
def Bindings.Housed (b : Bindings) : Prop := ∀ e ∈ b.queue.entries, ∀ o ∈ e.2.object?, o ∈ b.owns

namespace Bindings.Housed

theorem mono (housed : b.Housed) (queue : b'.queue = b.queue) (grown : b.owns ≤ b'.owns) :
    b'.Housed := by
  intro e member o mine
  rw [queue] at member
  exact Multiset.mem_of_le grown (housed e member o mine)

/-- A new update brings its object. -/
theorem register {slot : BindingSlot} {u : Update} (housed : b.Housed)
    (queue : b'.queue = (b.queue.register slot u).2)
    (owned : b'.owns = (u.object?.toList : Multiset Object) + b.owns) : b'.Housed := by
  intro e member o mine
  rw [queue] at member
  rw [owned, Multiset.mem_add]
  rcases eq_or_mem_of_mem_assign member with rfl | old
  · left
    simpa using mine
  · right
    exact housed e old o mine

theorem of_frozen {p p' : Program} (same : p'.frozen = p.frozen) (housed : p.bindings.Housed) :
    p'.bindings.Housed := by
  have owned := congrArg (fun p : Program => p.bindings.owns) same
  change p'.bindings.owns = p.bindings.owns at owned
  intro e' member o mine
  obtain ⟨e, there, _, update⟩ := UpdateQueue.exists_frozen (Program.entries_of_frozen same) e' member
  rw [Update.object?_of_frozen update] at mine
  rw [owned]
  exact housed e there o mine

end Bindings.Housed

namespace Binder

/-- Wherever the step starts, if it succeeds the new updates have objects of the program. -/
def Houses (m : Binder δ α) : Prop :=
  ∀ b w, b.Housed → m.Ends b w (fun _ b' _ => b'.Housed) fun _ _ _ => True

theorem houses_missing {declared : List String} {stage : ShaderStage} {name : String}
    {type : TokenType} : Houses (missing declared stage name type : Binder δ Unit) :=
  Keeps.missing fun _ _ _ housed => housed.mono rfl (le_refl _)

variable [GraphicsDevice δ]

theorem houses_bindAttribute {declared : List String} {stage : ShaderStage} {name : String}
    {t : AttributeToken} : Houses (bindAttribute declared stage name t : Binder δ Unit) := by
  intro b w housed
  rw [ends_bindAttribute]
  dsimp only
  split
  · exact houses_missing b _ housed
  · rw [ends_uploadBuffer]
    exact ⟨fun buffer _ => housed.register rfl Bindings.owns_append, fun _ _ => trivial⟩

theorem houses_bindElements {t : AttributeToken} : Houses (bindElements t : Binder δ Unit) := by
  intro b w housed
  rw [ends_bindElements]
  dsimp only
  split
  · exact housed
  · rw [ends_uploadBuffer]
    exact ⟨fun buffer _ => housed.register rfl Bindings.owns_append, fun _ _ => trivial⟩

theorem houses_bindUniform {declared : List String} {stage : ShaderStage} {name : String}
    {t : UniformToken} : Houses (bindUniform declared stage name t : Binder δ Unit) := by
  intro b w housed
  rw [ends_bindUniform]
  dsimp only
  split
  · exact houses_missing b _ housed
  · exact housed.register rfl (zero_add _).symm

theorem houses_bindSampler {declared : List String} {redraw : RedrawKey} {stage : ShaderStage}
    {name : String} {t : SamplerToken} :
    Houses (bindSampler declared redraw stage name t : Binder δ Unit) := by
  intro b w housed
  rw [ends_bindSampler]
  dsimp only
  split
  · exact houses_missing b _ housed
  · refine ⟨fun texture _ => ?_, fun _ _ => trivial⟩
    split <;> exact housed.register rfl Bindings.owns_append

theorem houses_uploadIndices {indices : List UInt32} :
    Houses (uploadIndices indices : Binder δ Unit) := by
  intro b w housed
  unfold uploadIndices
  rw [ends_bind, ends_discard, ends_uploadBuffer]
  refine ⟨fun buffer _ => housed.mono rfl ?_, fun _ _ => trivial⟩
  exact Bindings.owns_append (b := b) ▸ Multiset.le_add_left _ _

theorem houses_bindAll {redraw : RedrawKey} {vertex fragment : CompiledShader}
    {config : ProgramConfig} : Houses (bindAll redraw vertex fragment config : Binder δ Unit) :=
  keeps_bindAll
    (fun _ _ _ _ => keeps_bindToken (fun _ _ _ => houses_bindAttribute) (fun _ _ _ => houses_bindElements)
      (fun _ _ => houses_bindUniform) fun _ _ => houses_bindSampler)
    (fun _ _ => keeps_bindIndexToken (fun _ _ _ => trivial) fun _ _ _ => houses_bindElements)
    fun _ _ => houses_uploadIndices

end Binder

/-- The handles of the programs in a cache. -/
def ProgramCache.handles (c : ProgramCache) : List Handle := c.entries.map Prod.snd

variable [GraphicsDevice δ]

/-- A program that is built has its updates' objects, and belongs to the cache if it is cached. -/
theorem ProgramCache.housed_compile {cache : ProgramCache} {redraw : RedrawKey}
    {vertex fragment : CompiledShader} {config : ProgramConfig} {p : Program}
    (built : ((cache.compile redraw vertex fragment config).run w).1.1 = .ok p) :
    p.bindings.Housed ∧ p.owned = !config.cached := by
  have bound (handle : Handle) (owned : Bool) (w : World δ) :
      (bind handle owned redraw vertex fragment config).Ends w
        (fun p _ => p.bindings.Housed ∧ p.owned = owned) fun _ _ => True := by
    rw [ends_bind]
    refine ⟨fun vertexArray _ => ?_, fun _ _ => trivial⟩
    have start : Bindings.Housed { program := handle, vertexArray } := by simp [Bindings.Housed]
    exact (Binder.houses_bindAll _ _ start).imp (fun _ _ _ housed => ⟨housed, rfl⟩)
      fun _ _ _ _ => trivial
  obtain ⟨handle, w', _, yielded⟩ := bind_of_compile built
  exact (bound handle (!config.cached) w').of_ok (Prod.ext yielded rfl)

namespace Session

variable {s : Session δ}

/-- A program after a call was there before it, up to what its updates remember, or the call has built
it. -/
def Inherits (s : Session δ) (step : SessionStep) (p : Program) : Prop :=
  (∃ q ∈ s.programs, p.frozen = q.frozen) ∨
    ∃ i vertex fragment config, step = .compile i vertex fragment config ∧
      s.outcome i vertex fragment config = some (.ok p)

section Inherits

variable {s' : Session δ} {step : SessionStep} {p : Program}

theorem inherits_of_mem (member : p ∈ s.programs) : s.Inherits step p := .inl ⟨p, member, rfl⟩

/-- A frame keeps the programs of the render textures. -/
theorem inherits_of_world {allowed : Event → Prop} {w : World δ}
    (run : Extends allowed RenderTexture.frozen s.world w) (member : p ∈ w.programs) :
    s.Inherits step p := by
  obtain ⟨q, there, same⟩ := run.exists_program member
  exact .inl ⟨q, mem_programs.mpr (.inr (.inr there)), same⟩

/-- Programs of a stack that were drawn. -/
theorem inherits_of_stack {stack : Stack} (there : stack ∈ s.liveStacks) {ps : List Program}
    (same : ps.map Program.frozen = stack.programs.map Program.frozen) (member : p ∈ ps) :
    s.Inherits step p := by
  obtain ⟨q, mine, frozen⟩ := exists_of_map_eq same member
  exact .inl ⟨q, mem_programs.mpr (.inr (.inl ⟨stack, there, mine⟩)), frozen⟩

end Inherits

theorem inherits_onStack {i : Nat} {action : Stack → Engine δ Stack} {step : SessionStep}
    (stack' : ∀ stack, s.liveStacks[i]? = some stack →
      ((action stack).run s.world).1.programs.map Program.frozen = stack.programs.map Program.frozen ∧
      ∀ p ∈ ((action stack).run s.world).2.programs, s.Inherits step p) :
    ∀ p ∈ (s.onStack i action).programs, s.Inherits step p := by
  intro p member
  cases found : s.liveStacks[i]? with
  | none =>
    rw [onStack_none found] at member
    exact inherits_of_mem member
  | some stack =>
    obtain ⟨same, textures⟩ := stack' stack found
    rw [onStack_some found] at member
    rcases mem_programs.mp member with aside | own | texture
    · exact inherits_of_mem (mem_programs.mpr (.inl aside))
    · rcases exists_of_set own with mine | old
      · exact inherits_of_stack (List.mem_of_getElem? found) same mine
      · exact inherits_of_mem (mem_programs.mpr (.inr (.inl old)))
    · exact textures p texture

theorem inherits_onHeld {key : Nat} {call : Session δ → Session δ} {step : SessionStep}
    (next : ∀ p ∈ (call s).programs, s.Inherits step p) :
    ∀ p ∈ (s.onHeld key call).programs, s.Inherits step p := by
  intro p member
  unfold onHeld at member
  split at member
  · exact next p member
  · exact inherits_of_mem member

/-- A call on the world alone. -/
theorem inherits_inWorld {w : World δ} {step : SessionStep}
    (next : ∀ p ∈ w.programs, s.Inherits step p) :
    ∀ p ∈ programs { s with world := w }, s.Inherits step p := by
  intro p member
  rcases mem_programs.mp member with aside | own | texture
  · exact inherits_of_mem (mem_programs.mpr (.inl aside))
  · exact inherits_of_mem (mem_programs.mpr (.inr (.inl own)))
  · exact next p texture

theorem inherits_compile {i : Nat} {vertex fragment : CompiledShader} {config : ProgramConfig} :
    ∀ p ∈ (s.perform (.compile i vertex fragment config)).programs,
      s.Inherits (.compile i vertex fragment config) p := by
  intro p member
  rcases mem_programs_compile member with kept | built
  · refine inherits_inWorld (fun q texture => ?_) p kept
    exact inherits_of_world (s.extends_compile i vertex fragment config).freeze texture
  · exact .inr ⟨i, vertex, fragment, config, rfl, built⟩

theorem inherits_renderAside {j : Nat} {step : SessionStep} :
    ∀ p ∈ (s.renderAside j).programs, s.Inherits step p := by
  intro p member
  unfold renderAside at member
  cases found : s.aside[j]? with
  | none =>
    rw [found] at member
    exact inherits_of_mem member
  | some q =>
    have drawn : Extends (·.isFrame) RenderTexture.bare s.world (q.render.run s.world).2 :=
      Program.extends_render
    rw [found] at member
    rcases mem_programs.mp member with aside | own | texture
    · rcases List.mem_or_eq_of_mem_set aside with old | new
      · exact inherits_of_mem (mem_programs.mpr (.inl old))
      · rw [new]
        exact .inl ⟨q, mem_programs.mpr (.inl (List.mem_of_getElem? found)), Program.frozen_render⟩
    · exact inherits_of_mem (mem_programs.mpr (.inr (.inl own)))
    · exact inherits_of_world drawn.freeze texture

theorem inherits_read {i : Nat} {config : ReadConfig} {step : SessionStep} (sound : s.Sound) :
    ∀ p ∈ (s.onStack i (readStack config)).programs, s.Inherits step p := by
  apply inherits_onStack
  intro stack found
  refine readStack_of_ends (fun stack' w =>
    stack'.programs.map Program.frozen = stack.programs.map Program.frozen ∧
      ∀ p ∈ w.programs, s.Inherits step p) ?_
  refine (Stack.freeze_read sound).imp ?_ ?_
  · rintro ⟨_, stack'⟩ w ⟨same, w₁, ⟨_, textures, _⟩, run⟩
    refine ⟨same, fun p texture => ?_⟩
    obtain ⟨q, there, frozen⟩ := run.exists_program texture
    rw [World.programs, textures] at there
    exact .inl ⟨q, mem_programs.mpr (.inr (.inr there)), frozen⟩
  · rintro _ w ⟨_, textures, _⟩
    refine ⟨rfl, fun p texture => ?_⟩
    rw [World.programs, textures] at texture
    exact inherits_of_mem (mem_programs.mpr (.inr (.inr texture)))

/-- Calls leave the programs as they are, or build one. -/
theorem programs_perform (step : SessionStep) (sound : s.Sound) :
    ∀ p ∈ (s.perform step).programs, s.Inherits step p := by
  by_cases upkeep : step.isUpkeep
  · exact fun p member => inherits_of_mem ((within_perform upkeep).programs p member)
  · cases step with
    | compile i vertex fragment config => exact inherits_compile
    | renderProgram j => exact inherits_renderAside
    | render i =>
      apply inherits_onStack
      intro stack _
      exact ⟨Stack.frozen_renderTo, fun p texture => inherits_of_world Stack.freeze_renderTo texture⟩
    | read i config => exact inherits_read sound
    | makeTexture width height =>
      exact fun p member => inherits_of_mem (mem_programs_makeTexture p member)
    | renderTexture key =>
      apply inherits_onHeld
      apply inherits_inWorld
      exact fun p texture => inherits_of_world RenderTexture.freeze_render texture
    | _ => simp [SessionStep.isUpkeep] at upkeep

omit [GraphicsDevice δ] in
/-- The programs of stacks, of render textures and aside own what is there. -/
theorem Sound.mem_live (sound : s.Sound) {p : Program} (member : p ∈ s.programs) {o : Object}
    (mine : o ∈ p.owns) : o ∈ live s.world.events := by
  rw [sound.accounted.2]
  exact mem_owns_of_program member mine

/-- The updates of all programs have objects of their programs. -/
def Housed (s : Session δ) : Prop := ∀ p ∈ s.programs, p.bindings.Housed

theorem housed_perform (step : SessionStep) (housed : s.Housed) (sound : s.Sound) :
    (s.perform step).Housed := by
  intro p member
  rcases programs_perform step sound p member with ⟨q, there, same⟩ | ⟨i, _, _, _, _, built⟩
  · exact .of_frozen same (housed q there)
  · obtain ⟨stack, _, built⟩ := exists_of_outcome built
    exact (ProgramCache.housed_compile built).1

theorem housed_run (steps : List SessionStep) (housed : s.Housed) (sound : s.Sound) :
    (run steps s).Housed := by
  induction steps generalizing s with
  | nil => exact housed
  | cons step rest ih => exact ih (housed_perform step housed sound) (sound_perform step sound)

/-- The program is in the cache of a stack. -/
def Caches (s : Session δ) (h : Handle) : Prop := ∃ stack ∈ s.liveStacks, h ∈ stack.cache.handles

/-- The program was in the cache of a stack that was dropped in a run. -/
def Dropped (steps : List SessionStep) (s : Session δ) (h : Handle) : Prop :=
  ∃ before i after stack, steps = before ++ .dropStack i :: after ∧
    (run before s).liveStacks[i]? = some stack ∧ h ∈ stack.cache.handles

theorem Dropped.snoc {steps : List SessionStep} {h : Handle} (dropped : Dropped steps s h)
    (step : SessionStep) : Dropped (steps ++ [step]) s h := by
  obtain ⟨before, i, after, stack, rfl, found, entry⟩ := dropped
  exact ⟨before, i, after ++ [step], stack, by simp, found, entry⟩

/-- A program leaves the caches only with a stack. -/
theorem caches_perform (step : SessionStep) {h : Handle} (cached : s.Caches h) :
    (s.perform step).Caches h ∨ ∃ i stack, step = .dropStack i ∧ s.liveStacks[i]? = some stack ∧
      h ∈ stack.cache.handles := by
  obtain ⟨stack, there, entry⟩ := cached
  obtain ⟨i, found⟩ := List.mem_iff_getElem?.mp there
  by_cases dropped : step = .dropStack i
  · exact .inr ⟨i, stack, dropped, found, entry⟩
  · left
    obtain ⟨_, ⟨stack', there', rfl⟩, serves⟩ := serves_perform ⟨stack, found, rfl⟩ dropped
    exact ⟨stack', List.mem_of_getElem? there', List.map_subset _ serves.subset entry⟩

/-- A cached program is in a cache when it is built. -/
theorem caches_compile {i : Nat} {vertex fragment : CompiledShader} {config : ProgramConfig}
    {p : Program} (built : s.outcome i vertex fragment config = some (.ok p))
    (shared : p.owned = false) :
    (s.perform (.compile i vertex fragment config)).Caches p.handle := by
  obtain ⟨stack, found, built⟩ := exists_of_outcome built
  have cached : config.cached = true := by
    have owned := (ProgramCache.housed_compile built).2
    rw [shared] at owned
    simpa using owned.symm
  obtain ⟨_, served⟩ := stack.cache.served_compile stack.redraw vertex fragment config s.world
  have entry := served.mem_of_uses cached (.inr ⟨p, built, rfl⟩)
  obtain ⟨run, _⟩ := perform_compile vertex fragment config found
  rw [run]
  refine ⟨_, List.mem_set (List.getElem?_eq_some_iff.mp found).1 _, ?_⟩
  exact List.mem_map_of_mem entry

/-- In every run a cached program is in a cache, or the stack of its cache was dropped. -/
theorem caches_or_dropped (steps : List SessionStep) (sound : s.Sound) (none : s.programs = []) :
    ∀ p ∈ (run steps s).programs, p.owned = false →
      (run steps s).Caches p.handle ∨ Dropped steps s p.handle := by
  induction steps using List.reverseRecOn with
  | nil =>
    intro p member
    rw [show (run [] s).programs = [] from none] at member
    simp at member
  | append_singleton steps step ih =>
    intro p member shared
    have next : run (steps ++ [step]) s = (run steps s).perform step := run_append
    rw [next] at member ⊢
    rcases programs_perform step (sound_run steps sound) p member with
      ⟨q, there, same⟩ | ⟨i, vertex, fragment, config, rfl, built⟩
    · have owned : p.owned = q.owned := (congrArg Program.owned same :)
      obtain ⟨handle, _⟩ := Program.handles_of_frozen same
      rw [handle]
      rcases ih q there (owned ▸ shared) with cached | dropped
      · rcases caches_perform step cached with kept | ⟨i, stack, rfl, found, entry⟩
        · exact .inl kept
        · exact .inr ⟨steps, i, [], stack, rfl, found, entry⟩
      · exact .inr (dropped.snoc step)
    · exact .inl (caches_compile built shared)

/-- What may be named without being there: a program that went with the cache of a stack, and a texture
that a surface of the host shows. -/
inductive Stray (steps : List SessionStep) (s : Session δ) : Object → Prop
  | cached {p : Program} (member : p ∈ (run steps s).programs) (shared : p.owned = false)
      (dropped : Dropped steps s p.handle) : Stray steps s ⟨.program, p.handle⟩
  | shown {name : String} {h : Handle}
      (texture : ((run steps s).world.surface name).texture = some h) : Stray steps s ⟨.texture, h⟩

section Known

variable {stray : Object → Prop}
  (cached : ∀ p ∈ s.programs, p.owned = false → s.Caches p.handle ∨ stray ⟨.program, p.handle⟩)
include cached

omit [GraphicsDevice δ] in
/-- Everything that a program names is there, if its cache is. -/
theorem known_program (sound : s.Sound) (housed : s.Housed) :
    ∀ p ∈ s.programs, p.Known fun o => o ∈ live s.world.events ∨ stray o := by
  intro p member
  constructor
  · cases owned : p.owned with
    | true => exact .inl (sound.mem_live member (by simp [Program.owns, owned]))
    | false =>
      refine (cached p member owned).imp_left ?_
      rintro ⟨stack, there, entry⟩
      obtain ⟨i, found⟩ := List.mem_iff_getElem?.mp there
      obtain ⟨⟨pair, h⟩, here, rfl⟩ := List.mem_map.mp entry
      exact Holds.mem_live ⟨stack, found, rfl⟩ sound here
  · exact .inl (sound.mem_live member p.array_mem_owns)
  · intro e there o mine
    refine .inl (sound.mem_live member (Multiset.mem_add.mpr (.inl ?_)))
    exact housed p member e there o mine

omit [GraphicsDevice δ] in
/-- So are the targets, and the textures of render textures. -/
theorem known_world (sound : s.Sound) (housed : s.Housed)
    (shown : ∀ name h, (s.world.surface name).texture = some h → stray ⟨.texture, h⟩) :
    s.world.Known fun o => o ∈ live s.world.events ∨ stray o := by
  have target {t : Nat × RenderTexture} (member : t ∈ s.world.textures) {o : Object}
      (mine : o ∈ t.2.owns) : o ∈ live s.world.events := by
    rw [sound.accounted.2]
    exact Multiset.mem_add.mpr (.inl (mem_sum_owned member mine))
  constructor
  · exact fun t member => .inl (target member (by simp [RenderTexture.owns]))
  · intro p member
    exact known_program cached sound housed p (mem_programs.mpr (.inr (.inr member)))
  · intro id h source
    cases id with
    | renderTexture key =>
      obtain ⟨t, present, rfl⟩ := Option.map_eq_some_iff.mp source
      exact .inl (target (mem_of_lookup present) (by simp [RenderTexture.owns]))
    | external name => exact .inr (shown name h source)

/-- A call names what is there, or a stray. -/
theorem mentions_perform (step : SessionStep) (sound : s.Sound) (housed : s.Housed)
    (shown : ∀ name h, (s.world.surface name).texture = some h → stray ⟨.texture, h⟩) :
    Mentions stray s.world (s.perform step).world := by
  have programs := known_program cached sound housed
  have world := known_world cached sound housed shown
  have framed {w : World δ} (run : Emits (·.isFrame) s.world w)
      (names : Emits (Event.Names fun o => o ∈ live s.world.events ∨ stray o) s.world w) :
      Mentions stray s.world w := Mentions.frame run names
  cases step with
  | makeStack supported width height options =>
    refine attempt_of_ends (fun s' => Mentions stray s.world s'.world) ?_
    rw [Stack.ends_make]
    split
    · exact Mentions.refl _
    · have probed : Mentions stray s.world ((Stack.extensions options).foldl
          (fun w name => w.probed (.enableExtension name)) s.world) :=
        Mentions.nameless (Emits.foldl fun _ _ _ => Emits.emit rfl)
      exact (probed.push rfl).trans (Mentions.silent rfl)
  | compile i vertex fragment config =>
    refine world_compile (Mentions stray s.world) (Mentions.refl _) fun stack found => ?_
    obtain ⟨others, owned, _⟩ := split_cache found
    have kept : Kept (stack.cache.owns + others) s.grips s.world := owned ▸ sound
    exact ProgramCache.mentions_compile stack.redraw vertex fragment config kept
  | renderProgram j =>
    change Mentions stray s.world (s.renderAside j).world
    unfold renderAside
    cases found : s.aside[j]? with
    | none => exact Mentions.refl _
    | some p =>
      have drawn : Extends (·.isFrame) RenderTexture.bare s.world (p.render.run s.world).2 :=
        Program.extends_render
      refine framed drawn.events (Program.names_render ?_ world.sources)
      exact programs p (mem_programs.mpr (.inl (List.mem_of_getElem? found)))
  | render i =>
    refine world_onStack (Mentions stray s.world) (Mentions.refl _) fun stack found => ?_
    have drawn : Extends (·.isFrame) RenderTexture.shell s.world (stack.render.run s.world).2 :=
      Stack.extends_renderTo
    refine framed drawn.events (Stack.names_renderTo _ _ world (fun p member => ?_) (by simp))
    exact programs p (mem_programs.mpr (.inr (.inl ⟨stack, List.mem_of_getElem? found, member⟩)))
  | clear => exact Mentions.emit rfl
  | resize i width height =>
    change Mentions stray s.world (s.onStack i (Stack.resize width height)).world
    refine world_onStack (Mentions stray s.world) (Mentions.refl _) fun stack _ => ?_
    rw [Stack.run_resize]
    split
    · exact Mentions.refl _
    · exact (Mentions.emit rfl).trans (Mentions.nameless (Emits.foldl fun _ _ _ => Emits.emit rfl))
  | read i config =>
    refine world_onStack (Mentions stray s.world) (Mentions.refl _) fun stack found => ?_
    obtain ⟨others, more, owned, held, _, _⟩ := split_stack found
    have kept : Kept (stack.owns + others) s.grips s.world := by
      rw [← owned]
      exact sound
    refine readStack_of_ends (fun _ w => Mentions stray s.world w) ?_
    refine Stack.mentions_read kept world fun p member => ?_
    exact programs p (mem_programs.mpr (.inr (.inl ⟨stack, List.mem_of_getElem? found, member⟩)))
  | makeTexture width height =>
    exact attempt_of_ends (fun s' => Mentions stray s.world s'.world)
      (RenderTexture.mentions_make stray sound)
  | renderTexture key =>
    refine world_onHeld (Mentions stray s.world) (Mentions.refl _) fun _ => ?_
    have drawn : Extends (·.isFrame) RenderTexture.shell s.world
        ((RenderTexture.render key).run s.world).2 := RenderTexture.extends_render
    exact framed drawn.events (RenderTexture.names_render world)
  | _ => exact Mentions.erasing (erases_perform rfl)

end Known

/-- Each call of a session names what is there at that moment. -/
theorem mentions_step (device : δ) (host : Host) (early : List SessionStep) (step : SessionStep) :
    Mentions (Stray early (fresh device host)) (run early (fresh device host)).world
      ((run early (fresh device host)).perform step).world := by
  have housed : (fresh device host).Housed := by simp [Housed, programs_fresh]
  apply mentions_perform
  · intro p member shared
    refine (caches_or_dropped early sound_fresh programs_fresh p member shared).imp_right ?_
    exact Stray.cached member shared
  · exact sound_run early sound_fresh
  · exact housed_run early housed sound_fresh
  · exact fun name h texture => .shown texture

/-- Whatever a host does, in whichever order it lets go of stacks, programs and render textures and
whatever fails, each call names an object that was made before and is not deleted. The only others are
the programs of a cache that went with its stack while someone still holds them, and textures that the
host shows itself. -/
theorem calls_name_live_objects (device : δ) (host : Host) (steps : List SessionStep)
    (before : List Event) (e : Event) (after : List Event)
    (split : (run steps (fresh device host)).world.events = before ++ e :: after) :
    ∀ o ∈ e.names?, o ∈ live before ∨
      ∃ early step late, steps = early ++ step :: late ∧
        (run early (fresh device host)).world.events <+: before ∧
        before ++ [e] <+: ((run early (fresh device host)).perform step).world.events ∧
        Stray early (fresh device host) o := by
  induction steps using List.reverseRecOn generalizing after with
  | nil =>
    have none : (run [] (fresh device host)).world.events = [] := rfl
    rw [none] at split
    simp at split
  | append_singleton steps step ih =>
    have next : run (steps ++ [step]) (fresh device host) =
      (run steps (fresh device host)).perform step := run_append
    obtain ⟨es, grown, all⟩ := mentions_step device host steps step
    rw [next, grown] at split
    rcases append_eq_append_cons split with ⟨late, same⟩ | ⟨early, same, late⟩
    · intro o named
      rcases ih late same o named with here | ⟨early, call, others, rfl, start, inside, stray⟩
      · exact .inl here
      · exact .inr ⟨early, call, others ++ [step], by simp, start, inside, stray⟩
    · -- the event comes with the last call
      rw [late] at all
      intro o named
      have here := all.at o named
      rw [← live_append, ← same] at here
      refine here.imp_right fun stray => ⟨steps, step, [], rfl, ⟨early, same.symm⟩, ?_, stray⟩
      exact ⟨after, by rw [grown, split]; simp⟩

/-- A stack goes while the host holds a program out of its cache, and the program is drawn. -/
def orphaned : List SessionStep :=
  [.makeStack true 8 8 {},
    .compile 0 ⟨0, "void main", []⟩ ⟨1, "void main", []⟩ { draw := .arrays 0 3, cached := true },
    .dropStack 0,
    .renderProgram 0]

/-- The draw names a stray: the program has gone with the cache of the stack. -/
theorem orphaned_uses_stray : ∃ early step late, orphaned = early ++ step :: late ∧
    Stray early (fresh ({} : RecordingDevice) {}) ⟨.program, 1⟩ := by
  have named := calls_name_live_objects ({} : RecordingDevice) {} orphaned
    ((run orphaned (fresh ({} : RecordingDevice) {})).world.events.take 5)
    (.command (.useProgram (some 1)))
    ((run orphaned (fresh ({} : RecordingDevice) {})).world.events.drop 6) rfl ⟨.program, 1⟩ rfl
  obtain ⟨early, step, late, split, _, _, stray⟩ := named.resolve_left (by decide +kernel)
  exact ⟨early, step, late, split, stray⟩

/-- It uses the program after its deletion. -/
theorem orphaned_uses_deleted :
    (run orphaned (fresh ({} : RecordingDevice) {})).world.events[4]?.bind Event.deletes? =
        some ⟨.program, 1⟩ ∧
      (run orphaned (fresh ({} : RecordingDevice) {})).world.events[5]?.bind Event.names? =
        some ⟨.program, 1⟩ := by
  decide +kernel

end Session
end ShaderStack

import ShaderStack.Proofs.Overhearing
import ShaderStack.Proofs.Session

/-! Nothing depends on who listens.

One lemma for each function that runs in a world, following its text, and one for the calls of a host. -/
namespace ShaderStack

open Engine (heedless_pure heedless_get heedless_modify heedless_command heedless_commands)

variable {δ : Type} {extra : SurfaceId → Subscription → Prop} {w w' : World δ}

/-! ### Sessions -/

/-- The second session has further listeners, and differs in nothing else but requests. -/
def Session.Overheard (extra : SurfaceId → Subscription → Prop) (s s' : Session δ) : Prop :=
  ∃ w', s.world.Overheard extra w' ∧ s' = { s with world := w' }

namespace Session

variable {s s' : Session δ}

theorem overheard_attempt {action : Attempt δ α} {accept : α → Session δ → Session δ}
    (alike : s.Overheard extra s') (heedless : action.Heedless extra)
    (accepts : ∀ a t t', Overheard extra t t' → Overheard extra (accept a t) (accept a t')) :
    (s.attempt action accept).Overheard extra (s'.attempt action accept) := by
  obtain ⟨w', alike, rfl⟩ := alike
  obtain ⟨same, after⟩ := heedless s.world w' alike
  unfold attempt
  generalize action.run.run s.world = answer at same after
  dsimp only
  generalize action.run.run w' = answer' at same after
  obtain ⟨e | a, v⟩ := answer <;> obtain ⟨_, v'⟩ := answer' <;> obtain rfl := same
  · exact ⟨v', after, rfl⟩
  · exact accepts a _ _ ⟨v', after, rfl⟩

theorem overheard_onStack {i : Nat} {action : Stack → Engine δ Stack} (alike : s.Overheard extra s')
    (heedless : ∀ stack, (action stack).Heedless extra) :
    (s.onStack i action).Overheard extra (s'.onStack i action) := by
  obtain ⟨w', alike, rfl⟩ := alike
  cases found : s.liveStacks[i]? with
  | none =>
    have missing : { s with world := w' }.liveStacks[i]? = none := found
    rw [onStack_none found, onStack_none missing]
    exact ⟨w', alike, rfl⟩
  | some stack =>
    have there : { s with world := w' }.liveStacks[i]? = some stack := found
    obtain ⟨same, after⟩ := heedless stack s.world w' alike
    rw [onStack_some found, onStack_some there]
    dsimp only
    rw [same]
    exact ⟨_, after, rfl⟩

theorem overheard_onHeld {key : Nat} {call : Session δ → Session δ} (alike : s.Overheard extra s')
    (next : (call s).Overheard extra (call s')) :
    (s.onHeld key call).Overheard extra (s'.onHeld key call) := by
  have held : s'.held = s.held := by
    obtain ⟨w', _, rfl⟩ := alike
    rfl
  unfold onHeld
  rw [held]
  split
  · exact next
  · exact alike

theorem overheard_takeAside {j : Nat} {use : Program → Session δ → Session δ}
    (alike : s.Overheard extra s')
    (next : ∀ p t t', Overheard extra t t' → (use p t).Overheard extra (use p t')) :
    (s.takeAside j use).Overheard extra (s'.takeAside j use) := by
  obtain ⟨w', alike, rfl⟩ := alike
  unfold takeAside
  dsimp only
  split
  · exact ⟨w', alike, rfl⟩
  · exact next _ _ _ ⟨w', alike, rfl⟩

/-- Only the world changes. -/
theorem overheard_world {m : Engine δ Unit} (alike : s.Overheard extra s') (heedless : m.Heedless extra) :
    Overheard extra { s with world := (m.run s.world).2 } { s' with world := (m.run s'.world).2 } := by
  obtain ⟨w', alike, rfl⟩ := alike
  exact ⟨_, (heedless s.world w' alike).2, rfl⟩

theorem overheard_addToStack {i : Nat} {p : Program} (alike : s.Overheard extra s') :
    (s.addToStack i p).Overheard extra (s'.addToStack i p) := by
  obtain ⟨w', alike, rfl⟩ := alike
  unfold addToStack
  dsimp only
  split
  · exact ⟨w', alike, rfl⟩
  · exact ⟨w', alike, rfl⟩

end Session

variable [GraphicsDevice δ]

/-! ### Drawing -/

theorem AttributeUpdate.heedless_run {u : AttributeUpdate} :
    Engine.Heedless extra (u.run : Engine δ AttributeUpdate) := by
  unfold run
  refine Engine.heedless_readHost.bind fun current => ?_
  split
  · exact heedless_pure
  · split
    · exact heedless_pure
    · refine heedless_command.bind fun _ => heedless_command.bind fun _ => ?_
      split
      · exact heedless_command.bind fun _ => heedless_pure
      · exact heedless_pure

theorem ElementsUpdate.heedless_run {u : ElementsUpdate} :
    Engine.Heedless extra (u.run : Engine δ (ElementsUpdate × Option IndexBuffer)) := by
  unfold run
  refine Engine.heedless_readHost.bind fun current => ?_
  split
  · exact heedless_pure
  · split
    · exact heedless_pure
    · exact heedless_command.bind fun _ => heedless_command.bind fun _ => heedless_pure

theorem UniformUpdate.heedless_run {u : UniformUpdate} :
    Engine.Heedless extra (u.run : Engine δ Unit) := by
  unfold run
  refine Engine.heedless_readHost.bind fun current => ?_
  split
  · exact heedless_command
  · exact heedless_pure

theorem Engine.heedless_uploadPixels {options : SamplerOptions} {data : HostArray} :
    Heedless extra (uploadPixels options data : Engine δ Unit) := by
  unfold uploadPixels
  split
  · exact heedless_pure
  · split
    · exact heedless_pure
    · exact heedless_command

theorem SamplerUpdate.heedless_run {u : SamplerUpdate} :
    Engine.Heedless extra (u.run : Engine δ SamplerUpdate) := by
  have pushed (v : SamplerUpdate) : Engine.Heedless extra (do
      Engine.command (.uniform v.location (.integers 1 [v.unit.toInt32]))
      return v : Engine δ SamplerUpdate) := heedless_command.bind fun _ => heedless_pure
  unfold run
  refine heedless_command.bind fun _ => Engine.heedless_readHost.bind fun current => ?_
  dsimp only
  split
  · refine heedless_command.bind fun _ => ?_
    split
    · exact pushed u
    · exact Engine.heedless_uploadPixels.bind fun _ => pushed _
  · refine heedless_get (fun w w' alike => by rw [alike.textureOf?]) fun w => ?_
    exact heedless_command.bind fun _ => Engine.heedless_subscribe.bind fun _ => pushed _

theorem Update.heedless_ran (alike : w.Overheard extra w') (u : Update) (indices : Option IndexBuffer) :
    (u.ran indices w').1 = (u.ran indices w).1 ∧
      World.Overheard extra (u.ran indices w).2 (u.ran indices w').2 := by
  cases u with
  | attributes u =>
    obtain ⟨same, after⟩ := u.heedless_run w w' alike
    rw [ran_attributes, ran_attributes, same]
    exact ⟨rfl, after⟩
  | elements u =>
    obtain ⟨same, after⟩ := u.heedless_run w w' alike
    rw [ran_elements, ran_elements, same]
    exact ⟨rfl, after⟩
  | uniform u =>
    obtain ⟨_, after⟩ := u.heedless_run w w' alike
    rw [ran_uniform, ran_uniform]
    exact ⟨rfl, after⟩
  | sampler u =>
    obtain ⟨same, after⟩ := u.heedless_run w w' alike
    rw [ran_sampler, ran_sampler, same]
    exact ⟨rfl, after⟩

theorem UpdateQueue.heedless_ran (alike : w.Overheard extra w') (entries : List (BindingSlot × Update))
    (indices : Option IndexBuffer) : (ran entries indices w').1 = (ran entries indices w).1 ∧
      World.Overheard extra (ran entries indices w).2 (ran entries indices w').2 := by
  induction entries generalizing w w' indices with
  | nil => exact ⟨rfl, alike⟩
  | cons entry rest ih =>
    obtain ⟨slot, u⟩ := entry
    obtain ⟨same, after⟩ := Update.heedless_ran alike u indices
    obtain ⟨same', after'⟩ := ih after (u.ran indices w).1.2
    rw [ran_cons, ran_cons, same, same']
    exact ⟨rfl, after'⟩

theorem Bindings.heedless_flush {b : Bindings} : Engine.Heedless extra (b.flush : Engine δ Bindings) := by
  intro w w' alike
  obtain ⟨same, after⟩ := UpdateQueue.heedless_ran alike b.queue.entries b.elements
  rw [run_flush, run_flush, same]
  exact ⟨rfl, after⟩

namespace Program

theorem heedless_drop {p : Program} : Engine.Heedless extra (p.drop : Engine δ Unit) := by
  unfold drop Bindings.release
  refine (heedless_commands.bind fun _ => heedless_command).bind fun _ => ?_
  split
  · exact heedless_command
  · exact heedless_pure

theorem heedless_dropAll {ps : List Program} : Engine.Heedless extra (dropAll ps : Engine δ Unit) :=
  Engine.Heedless.forM fun _ _ => heedless_drop

theorem heedless_render {p : Program} : Engine.Heedless extra (p.render : Engine δ Program) := by
  unfold render
  refine heedless_command.bind fun _ => heedless_command.bind fun _ => ?_
  refine Bindings.heedless_flush.bind fun bindings => ?_
  have left : Engine.Heedless extra (do
      Engine.command (.bindVertexArray none)
      return { p with bindings } : Engine δ Program) := heedless_command.bind fun _ => heedless_pure
  dsimp only
  split
  on_goal 1 => refine Engine.heedless_callback.bind fun _ => ?_
  all_goals
    split
    · exact heedless_command.bind fun _ => left
    · exact heedless_command.bind fun _ => left
    · exact left

theorem heedless_renderAll {ps : List Program} :
    Engine.Heedless extra (renderAll ps : Engine δ (List Program)) := by
  unfold renderAll
  induction ps with
  | nil => exact heedless_pure
  | cons p ps ih =>
    rw [List.mapM_cons]
    exact heedless_render.bind fun _ => ih.bind fun _ => heedless_pure

end Program

namespace RenderTexture

omit [GraphicsDevice δ] in
theorem heedless_update {key : Nat} {change : RenderTexture → RenderTexture} (deaf : Deaf change) :
    Engine.Heedless extra (update key change : Engine δ Unit) :=
  heedless_modify fun _ _ alike => alike.altered key deaf

theorem heedless_renderInto {key : Nat} {restore : Option Handle} {width height : UInt32} :
    Engine.Heedless extra (renderInto key restore width height : Engine δ Unit) := by
  unfold renderInto
  refine heedless_get (fun w w' alike => ?_) fun w => ?_
  · rcases alike.target_cases key with ⟨here, there⟩ | ⟨t, listeners, here, there⟩ <;> rw [here, there]
  split
  · exact heedless_pure
  · refine heedless_commands.bind fun _ => Program.heedless_renderAll.bind fun programs => ?_
    refine (heedless_update fun _ _ => rfl).bind fun _ => heedless_commands.bind fun _ => ?_
    refine (heedless_update fun _ _ => rfl).bind fun _ => ?_
    exact heedless_modify fun _ _ alike => alike.notify _ _

theorem heedless_render {key : Nat} : Engine.Heedless extra (render key : Engine δ Unit) := by
  unfold render
  refine heedless_get (fun w w' alike => ?_) fun w => ?_
  · rcases alike.target_cases key with ⟨here, there⟩ | ⟨t, listeners, here, there⟩ <;> rw [here, there]
  split
  · exact heedless_pure
  · exact heedless_renderInto

theorem heedless_release {key : Nat} : Engine.Heedless extra (release key : Engine δ Unit) := by
  unfold release
  refine heedless_get (fun w w' alike => ?_) fun w => ?_
  · rcases alike.target_cases key with ⟨here, there⟩ | ⟨t, listeners, here, there⟩ <;> rw [here, there]
  split
  · exact heedless_pure
  · split
    · exact heedless_update fun _ _ => rfl
    · refine (heedless_modify fun _ _ alike => alike.remove key).bind fun _ => ?_
      exact Program.heedless_dropAll.bind fun _ => heedless_commands

end RenderTexture

namespace Stack

variable {s : Stack}

theorem heedless_renderTo {framebuffer : Option Handle} {width height : UInt32} :
    Engine.Heedless extra (s.renderTo framebuffer width height : Engine δ Stack) := by
  unfold renderTo
  have drawn : Engine.Heedless extra (do
      s.layers.forM fun key => RenderTexture.renderInto key framebuffer width height
      let programs ← Program.renderAll s.programs
      modify fun w =>
        let drawn := s.layers.filterMap fun key => w.textureOf? (.renderTexture key)
        w.setRequests s.redraw ((w.requests s.redraw).discard drawn)
      return { s with programs } : Engine δ Stack) := by
    refine (Engine.Heedless.forM fun _ _ => RenderTexture.heedless_renderInto).bind fun _ => ?_
    refine Program.heedless_renderAll.bind fun programs => Engine.Heedless.bind ?_ fun _ => heedless_pure
    exact heedless_modify fun w w' alike => alike.requests _ _
  split
  · exact heedless_commands.bind fun _ => drawn
  · exact drawn

theorem heedless_resize {width height : UInt32} :
    Engine.Heedless extra (s.resize width height : Engine δ Stack) := by
  unfold resize
  split
  · exact heedless_pure
  · refine heedless_command.bind fun _ => ?_
    exact (Engine.Heedless.forM fun _ _ => Engine.heedless_callback).bind fun _ => heedless_pure

theorem heedless_drop : Engine.Heedless extra (s.drop : Engine δ Unit) := by
  unfold drop
  refine Program.heedless_dropAll.bind fun _ => ?_
  refine (Engine.Heedless.forM fun _ _ => RenderTexture.heedless_release).bind fun _ => ?_
  exact (Engine.Heedless.forM fun _ _ => heedless_commands).bind fun _ => heedless_commands

end Stack

/-! ### Making and reading -/

open Attempt (heedless_throw heedless_lift heedless_quit)

theorem RenderTexture.heedless_make {width height : UInt32} :
    Attempt.Heedless extra (make width height : Attempt δ Nat) := by
  have stored (texture framebuffer : Handle) : Attempt.Heedless extra (do
      let key ← (Engine.newKey : Engine δ Nat)
      modify (World.setTexture key { texture, framebuffer, width, height })
      return key : Attempt δ Nat) := by
    intro w w' alike
    exact ⟨congrArg Except.ok alike.nextKey, alike.make (t := { texture, framebuffer, width, height }) rfl⟩
  unfold make
  dsimp only
  split
  · exact heedless_quit
  · refine Engine.heedless_allocate.bind fun texture => ?_
    refine (heedless_lift heedless_commands).bind fun _ => ?_
    refine Attempt.Heedless.bind ?_ fun framebuffer => ?_
    · refine Attempt.Heedless.tryCatch Engine.heedless_allocate fun e => ?_
      exact (heedless_lift heedless_command).bind fun _ => heedless_throw
    · refine (heedless_lift heedless_commands).bind fun _ => ?_
      refine (heedless_lift Engine.heedless_probe).bind fun complete => ?_
      refine (heedless_lift heedless_command).bind fun _ => ?_
      split
      · exact (heedless_lift heedless_commands).bind fun _ => heedless_quit
      · exact stored texture framebuffer

namespace Stack

variable {s : Stack}

theorem heedless_make {supported : Bool} {width height : UInt32} {options : StackOptions} :
    Attempt.Heedless extra (make supported width height options : Attempt δ Stack) := by
  have probes (names : List String) : Attempt.Heedless extra (names.forM fun name =>
      discard (liftM (Engine.probe (.enableExtension name) : Engine δ Bool) : Attempt δ Bool)) := by
    induction names with
    | nil => exact Attempt.heedless_pure
    | cons name names ih => exact (heedless_lift Engine.heedless_probe).discard.bind fun _ => ih
  unfold make
  dsimp only
  split
  · exact heedless_quit
  · refine (probes _).bind fun _ => (heedless_lift heedless_command).bind fun _ => ?_
    exact (heedless_lift Engine.heedless_newKey).bind fun redraw => Attempt.heedless_pure

theorem heedless_makeTarget {internal : InternalFormat} {width height : UInt32} :
    Attempt.Heedless extra (makeTarget internal width height : Attempt δ ReadTarget) := by
  unfold makeTarget
  refine Engine.heedless_allocate.bind fun renderbuffer => ?_
  refine (heedless_lift heedless_command).bind fun _ => Attempt.Heedless.bind ?_ fun framebuffer => ?_
  · refine Attempt.Heedless.tryCatch Engine.heedless_allocate fun e => ?_
    exact (heedless_lift heedless_command).bind fun _ => heedless_throw
  · refine (heedless_lift heedless_commands).bind fun _ => ?_
    refine (heedless_lift Engine.heedless_probe).bind fun complete => ?_
    dsimp only
    split
    · exact (heedless_lift heedless_commands).bind fun _ => heedless_quit
    · exact Attempt.heedless_pure

theorem heedless_bindTarget {c : ReadConfig} {width height : UInt32} :
    Attempt.Heedless extra (s.bindTarget c width height : Attempt δ (Handle × Stack)) := by
  unfold bindTarget
  dsimp only
  split
  · exact (heedless_lift heedless_command).bind fun _ => Attempt.heedless_pure
  · exact heedless_makeTarget.bind fun target => Attempt.heedless_pure

theorem heedless_read {c : ReadConfig} :
    Attempt.Heedless extra (s.read c : Attempt δ (PixelBuffer × Stack)) := by
  unfold read
  refine Attempt.heedless_except.bind fun _ => heedless_bindTarget.bind fun bound => ?_
  refine (heedless_lift heedless_command).bind fun _ => (heedless_lift heedless_renderTo).bind fun s => ?_
  refine (heedless_lift Engine.heedless_readPixels).bind fun stored => ?_
  exact (heedless_lift heedless_commands).bind fun _ => Attempt.heedless_pure

end Stack

/-! ### Binding -/

namespace Binder

theorem heedless_call {c : Command} : Heedless extra (command c : Binder δ Unit) :=
  heedless_engine heedless_command

theorem heedless_uploadBuffer {target : BufferTarget} {data : List UInt8} {afterwards : List Command} :
    Heedless extra (uploadBuffer target data afterwards : Binder δ Handle) := by
  unfold uploadBuffer
  refine (heedless_attempt Engine.heedless_allocate).bind fun buffer => heedless_modify.bind fun _ => ?_
  refine heedless_get.bind fun _ => heedless_call.bind fun _ => heedless_call.bind fun _ => ?_
  refine heedless_call.bind fun _ => (heedless_engine heedless_commands).bind fun _ => ?_
  exact heedless_call.bind fun _ => heedless_pure

theorem heedless_bindAttribute {declared : List String} {stage : ShaderStage} {name : String}
    {t : AttributeToken} : Heedless extra (bindAttribute declared stage name t : Binder δ Unit) := by
  unfold bindAttribute
  refine heedless_get.bind fun b => (heedless_engine Engine.heedless_lookup).bind fun found => ?_
  split
  · exact heedless_modify
  · refine heedless_modify.bind fun _ => (heedless_engine Engine.heedless_readHost).bind fun data => ?_
    exact heedless_uploadBuffer.bind fun _ => heedless_modify

theorem heedless_bindElements {t : AttributeToken} :
    Heedless extra (bindElements t : Binder δ Unit) := by
  unfold bindElements
  refine (heedless_engine Engine.heedless_readHost).bind fun data => ?_
  split
  · exact heedless_pure
  · exact heedless_uploadBuffer.bind fun _ => heedless_modify.bind fun _ => heedless_modify

theorem heedless_bindUniform {declared : List String} {stage : ShaderStage} {name : String}
    {t : UniformToken} : Heedless extra (bindUniform declared stage name t : Binder δ Unit) := by
  unfold bindUniform
  refine heedless_get.bind fun b => (heedless_engine Engine.heedless_lookup).bind fun found => ?_
  split
  · exact heedless_modify
  · exact heedless_modify

theorem heedless_bindSampler {declared : List String} {redraw : RedrawKey} {stage : ShaderStage}
    {name : String} {t : SamplerToken} :
    Heedless extra (bindSampler declared redraw stage name t : Binder δ Unit) := by
  unfold bindSampler
  refine heedless_get.bind fun b => (heedless_engine Engine.heedless_lookup).bind fun found => ?_
  split
  · exact heedless_modify
  · refine (heedless_attempt Engine.heedless_allocate).bind fun texture => heedless_modify.bind fun _ => ?_
    refine heedless_get.bind fun _ => heedless_modify.bind fun _ => heedless_call.bind fun _ => ?_
    refine heedless_call.bind fun _ => heedless_call.bind fun _ => ?_
    refine (heedless_engine Engine.heedless_readHost).bind fun source => ?_
    dsimp only
    split
    · exact (heedless_engine Engine.heedless_subscribe).bind fun _ => heedless_modify
    · exact heedless_pure.bind fun _ => heedless_modify

theorem heedless_bindToken {declared : List String} {redraw : RedrawKey} {stage : ShaderStage}
    {n : NamedToken} : Heedless extra (bindToken declared redraw stage n : Binder δ Unit) := by
  unfold bindToken
  split
  · split
    · exact heedless_bindAttribute
    · exact heedless_bindElements
  · exact heedless_bindUniform
  · exact heedless_bindSampler
  · exact heedless_pure

theorem heedless_bindIndexToken {t : Token} :
    Heedless extra (bindIndexToken t : Binder δ Unit) := by
  unfold bindIndexToken
  split
  · split
    · exact heedless_bindElements
    · exact heedless_throw
  · exact heedless_throw

theorem heedless_bindAll {redraw : RedrawKey} {vertex fragment : CompiledShader}
    {config : ProgramConfig} :
    Heedless extra (bindAll redraw vertex fragment config : Binder δ Unit) := by
  have listed (draw : Draw) (used : Option IndexBuffer) :
      Heedless extra (uploadListed draw used : Binder δ Unit) := by
    unfold uploadListed
    split
    · exact (heedless_uploadBuffer.bind fun _ => heedless_pure).bind fun _ => heedless_modify
    · exact heedless_pure
  have last : Heedless extra (do uploadListed config.draw (← get).elements : Binder δ Unit) :=
    heedless_get.bind fun b => listed config.draw b.elements
  unfold bindAll bindShader
  refine (Heedless.forM fun _ => heedless_bindToken).bind fun _ => ?_
  refine (Heedless.forM fun _ => heedless_bindToken).bind fun _ => ?_
  dsimp only
  split
  · exact heedless_bindIndexToken.bind fun _ => last
  · exact last

end Binder

namespace ProgramCache

variable {cache : ProgramCache} {vertex fragment : CompiledShader}

theorem heedless_link {cached : Bool} : Engine.Heedless extra
    (cache.link vertex fragment cached : Engine δ (Except RenderError (Handle × Bool) × ProgramCache)) := by
  unfold link
  split
  · exact heedless_pure
  · refine Engine.Heedless.bind Engine.heedless_allocate fun answer => ?_
    split
    · exact heedless_pure
    · exact heedless_pure

theorem heedless_bind {handle : Handle} {owned : Bool} {redraw : RedrawKey} {config : ProgramConfig} :
    Attempt.Heedless extra (bind handle owned redraw vertex fragment config : Attempt δ Program) := by
  unfold bind
  refine Attempt.Heedless.bind ?_ fun vertexArray => ?_
  · refine Attempt.Heedless.tryCatch Engine.heedless_allocate fun e => ?_
    dsimp only
    split
    · exact (heedless_lift heedless_command).bind fun _ => heedless_throw
    · exact heedless_throw
  · refine (heedless_lift (Binder.heedless_bindAll _)).bind fun bound => ?_
    obtain ⟨result, b⟩ := bound
    dsimp only
    split
    · exact Attempt.heedless_pure
    · exact (heedless_lift Program.heedless_drop).bind fun _ => heedless_throw

theorem heedless_compile {redraw : RedrawKey} {config : ProgramConfig} : Engine.Heedless extra
    (cache.compile redraw vertex fragment config : Engine δ (Except RenderError Program × ProgramCache)) := by
  unfold compile
  split
  · exact heedless_pure
  · refine heedless_link.bind fun linked => ?_
    split
    · exact heedless_pure
    · exact Engine.Heedless.bind heedless_bind fun _ => heedless_pure

end ProgramCache

/-! ### Calls -/

namespace Session

variable {s s' : Session δ}

theorem overheard_renderAside {j : Nat} (alike : s.Overheard extra s') :
    (s.renderAside j).Overheard extra (s'.renderAside j) := by
  obtain ⟨w', alike, rfl⟩ := alike
  unfold renderAside
  dsimp only
  split
  · exact ⟨w', alike, rfl⟩
  · next p _ =>
    obtain ⟨same, after⟩ := p.heedless_render s.world w' alike
    generalize p.render.run s.world = drawn at same after ⊢
    generalize p.render.run w' = drawn' at same after ⊢
    obtain ⟨_, v⟩ := drawn
    obtain ⟨_, v'⟩ := drawn'
    obtain rfl := same
    exact ⟨v', after, rfl⟩

theorem overheard_compile {i : Nat} {vertex fragment : CompiledShader} {config : ProgramConfig}
    (alike : s.Overheard extra s') : (s.perform (.compile i vertex fragment config)).Overheard extra
      (s'.perform (.compile i vertex fragment config)) := by
  obtain ⟨w', alike, rfl⟩ := alike
  cases found : s.liveStacks[i]? with
  | none =>
    have missing : { s with world := w' }.liveStacks[i]? = none := found
    rw [perform_compile_missing found, perform_compile_missing missing]
    exact ⟨w', alike, rfl⟩
  | some stack =>
    have there : { s with world := w' }.liveStacks[i]? = some stack := found
    obtain ⟨same, after⟩ := ProgramCache.heedless_compile s.world w' alike
    rw [(perform_compile vertex fragment config found).1, (perform_compile vertex fragment config there).1]
    dsimp only
    rw [same]
    exact ⟨_, after, rfl⟩

theorem heedless_readStack {stack : Stack} {c : ReadConfig} :
    Engine.Heedless extra (readStack c stack : Engine δ Stack) := by
  unfold readStack
  refine Engine.Heedless.bind Stack.heedless_read fun answer => ?_
  split
  · exact heedless_pure
  · exact heedless_pure

/-- Each call does the same whoever listens. -/
theorem Overheard.perform (alike : s.Overheard extra s') (step : SessionStep) :
    (s.perform step).Overheard extra (s'.perform step) := by
  cases step with
  | changeHost change =>
    obtain ⟨w', alike, rfl⟩ := alike
    exact ⟨_, alike.changeHost change, rfl⟩
  | changeSurface name texture =>
    obtain ⟨w', alike, rfl⟩ := alike
    have shown : World.Overheard extra (s.world.setSurface name { s.world.surface name with texture })
        (w'.setSurface name { w'.surface name with texture }) :=
      alike.setSurface name rfl fun t => alike.others name t
    exact ⟨_, shown, rfl⟩
  | fireSurface name =>
    obtain ⟨w', alike, rfl⟩ := alike
    exact ⟨_, alike.notify _ _, rfl⟩
  | makeStack supported width height options =>
    refine overheard_attempt alike Stack.heedless_make fun stack t t' alike => ?_
    obtain ⟨w', alike, rfl⟩ := alike
    exact ⟨w', alike, rfl⟩
  | compile i vertex fragment config => exact overheard_compile alike
  | addToStack i j => exact overheard_takeAside alike fun _ _ _ alike => overheard_addToStack alike
  | addToTexture key j =>
    refine overheard_onHeld alike (overheard_takeAside alike fun p t t' alike => ?_)
    exact overheard_world alike (RenderTexture.heedless_update fun _ _ => rfl)
  | renderProgram j => exact overheard_renderAside alike
  | dropProgram j =>
    exact overheard_takeAside alike fun _ _ _ alike => overheard_world alike Program.heedless_drop
  | render i => exact overheard_onStack alike fun _ => Stack.heedless_renderTo
  | clear => exact overheard_world alike heedless_command
  | resize i width height => exact overheard_onStack alike fun _ => Stack.heedless_resize
  | onResize i listener => exact overheard_onStack alike fun _ => heedless_pure
  | takeRedraw i =>
    refine overheard_onStack alike fun stack => ?_
    exact fun w w' alike => ⟨rfl, alike.requests _ _⟩
  | read i config => exact overheard_onStack alike fun _ => heedless_readStack
  | dropStack i =>
    obtain ⟨w', alike, rfl⟩ := alike
    change (s.dropStack i).Overheard extra (Session.dropStack i { s with world := w' })
    unfold dropStack
    dsimp only
    split
    · exact ⟨w', alike, rfl⟩
    · next stack _ => exact ⟨_, (stack.heedless_drop s.world w' alike).2, rfl⟩
  | makeTexture width height =>
    refine overheard_attempt alike RenderTexture.heedless_make fun key t t' alike => ?_
    obtain ⟨w', alike, rfl⟩ := alike
    exact ⟨w', alike, rfl⟩
  | retain key =>
    refine overheard_onHeld alike ?_
    obtain ⟨w', alike, rfl⟩ := alike
    exact ⟨_, alike.altered key fun _ _ => rfl, rfl⟩
  | release key =>
    refine overheard_onHeld alike ?_
    obtain ⟨w', alike, rfl⟩ := alike
    exact ⟨_, (RenderTexture.heedless_release s.world w' alike).2, rfl⟩
  | addLayer i key =>
    refine overheard_onHeld alike (overheard_onStack alike fun stack => ?_)
    exact (RenderTexture.heedless_update fun _ _ => rfl).bind fun _ => heedless_pure
  | renderTexture key => exact overheard_onHeld alike (overheard_world alike RenderTexture.heedless_render)

theorem Overheard.run (alike : s.Overheard extra s') (steps : List SessionStep) :
    (run steps s).Overheard extra (Session.run steps s') := by
  induction steps generalizing s s' with
  | nil => exact alike
  | cons step rest ih => exact ih (alike.perform step)

end Session
end ShaderStack

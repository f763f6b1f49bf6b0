import ShaderStack.Proofs.Attempts

/-! Binding the same tokens to two programs of one linkage.

Every lookup finds the same location, so that the bindings are the same but for the objects that they
allocate, and what cannot be bound is missing in both. -/
namespace ShaderStack

open World (Echo)
open Correspondence

variable {R : Correspondence} {b b' : Bindings} {w w' : World RecordingDevice}

namespace Binder

/-- Bindings in progress, to programs with the same locations. -/
structure Paired (R : Correspondence) (b b' : Bindings) (w w' : World RecordingDevice) : Prop where
  world : w.Twin R w'
  bindings : b.Twin R b'
  linkage : w'.device.programs.lookup b'.program = w.device.programs.lookup b.program

/-- Where two runs of a binding step have come to. -/
def Reached (R : Correspondence) (w w' : World RecordingDevice) (c c' : Bindings)
    (v v' : World RecordingDevice) : Prop :=
  ∃ R', Echo R w w' R' v v' ∧ Paired R' c c' v v'

/-- A binding step ends in one way. -/
theorem ends_cases (m : Binder δ α) (b : Bindings) (w : World δ) :
    (∃ a c v, ∀ done failed, Ends m b w done failed ↔ done a c v) ∨
      ∃ e c v, ∀ done failed, Ends m b w done failed ↔ failed e c v := by
  unfold Ends
  rcases StateT.run (StateT.run m.run b) w with ⟨⟨e | a, c⟩, v⟩
  · exact .inr ⟨e, c, v, fun _ _ => Iff.rfl⟩
  · exact .inl ⟨a, c, v, fun _ _ => Iff.rfl⟩

/-- A binding step that does the same in both runs, also when it fails, unless the names of the first run
out. -/
structure Mirrored (m : Binder RecordingDevice α) : Prop where
  follows : Follows m
  ends : ∀ R b b' w w', Paired R b b' w w' →
    Ends m b w
      (fun a c v => Unspent v.events →
        Ends m b' w' (fun a' c' v' => a' = a ∧ Reached R w w' c c' v v') fun _ _ _ => False)
      fun e c v => Unspent v.events →
        Ends m b' w' (fun _ _ _ => False) fun e' c' v' => e' = e ∧ Reached R w w' c c' v v'

theorem Reached.after {R' : Correspondence} {d d' : Bindings}
    {v v' u u' : World RecordingDevice} (first : Echo R w w' R' v v')
    (next : Reached R' v v' d d' u u') : Reached R w w' d d' u u' := by
  obtain ⟨R'', second, paired⟩ := next
  exact ⟨R'', first.trans second, paired⟩

/-- A step that leaves the program alone keeps the linkage. -/
theorem Paired.reached {R' : Correspondence} {c c' : Bindings} {v v' : World RecordingDevice}
    (paired : Paired R b b' w w') (run : Echo R w w' R' v v') (same : c.Twin R' c')
    (program : c.program = b.program) (program' : c'.program = b'.program) :
    Reached R w w' c c' v v' := by
  refine ⟨R', run, run.twin, same, ?_⟩
  rw [program, program', run.programs, run.programs']
  exact paired.linkage

/-- The bindings wait while the worlds move on. -/
theorem Paired.moved {R' : Correspondence} {v v' : World RecordingDevice}
    (paired : Paired R b b' w w') (run : Echo R w w' R' v v') : Paired R' b b' v v' := by
  refine ⟨run.twin, paired.bindings.mono run.grow, ?_⟩
  rw [run.programs, run.programs']
  exact paired.linkage

/-- Both programs have the input at the same location, or neither has it. -/
theorem Paired.located_attribute (paired : Paired R b b' w w') (name : String) :
    w'.located (.attributeLocation b'.program name) = w.located (.attributeLocation b.program name) := by
  change (do (← w'.device.programs.lookup b'.program).attributes.lookup name) =
    (do (← w.device.programs.lookup b.program).attributes.lookup name)
  rw [paired.linkage]

theorem Paired.located_uniform (paired : Paired R b b' w w') (name : String) :
    w'.located (.uniformLocation b'.program name) = w.located (.uniformLocation b.program name) := by
  change (do (← w'.device.programs.lookup b'.program).uniforms.lookup name) =
    (do (← w.device.programs.lookup b.program).uniforms.lookup name)
  rw [paired.linkage]

/-- The same step later in the run. -/
theorem Mirrored.after {m : Binder RecordingDevice α} {R' : Correspondence}
    {v v' : World RecordingDevice} (mirrored : Mirrored m) (run : Echo R w w' R' v v')
    (paired : Paired R' b b' v v') :
    Ends m b v
      (fun a c u => Unspent u.events →
        Ends m b' v' (fun a' c' u' => a' = a ∧ Reached R w w' c c' u u') fun _ _ _ => False)
      fun e c u => Unspent u.events →
        Ends m b' v' (fun _ _ _ => False) fun e' c' u' => e' = e ∧ Reached R w w' c c' u u' := by
  refine (mirrored.ends R' b b' v v' paired).imp ?_ ?_
  · intro a c u ends room
    exact (ends room).imp (fun _ _ _ done => ⟨done.1, done.2.after run⟩) fun _ _ _ failed => failed
  · intro e c u ends room
    exact (ends room).imp (fun _ _ _ done => done)
      fun _ _ _ failed => ⟨failed.1, failed.2.after run⟩

/-- Names that have run out before a step have run out after it. -/
theorem Follows.spent {m : Binder RecordingDevice α} (follows : Follows m) (spent : ¬ Unspent w.events)
    {done : α → Bindings → World RecordingDevice → Prop}
    {failed : RenderError → Bindings → World RecordingDevice → Prop} :
    Ends m b w (fun a c v => Unspent v.events → done a c v)
      fun e c v => Unspent v.events → failed e c v := by
  have still {c : Bindings} {v : World RecordingDevice} (path : Path (b, w) (c, v)) :
      ¬ Unspent v.events := fun room => spent ((extends_path path).events.unspent room)
  exact (follows _ b w .refl).imp (fun _ _ _ path room => absurd room (still path))
    fun _ _ _ path room => absurd room (still path)

theorem mirrored_pure (a : α) : Mirrored (pure a) where
  follows _ := keeps_pure
  ends R _ _ _ _ paired _ := ⟨rfl, R, Echo.refl paired.world, paired⟩

theorem mirrored_throw (e : RenderError) : Mirrored (throw e : Binder RecordingDevice α) where
  follows _ _ _ path := path
  ends R _ _ _ _ paired _ := ⟨rfl, R, Echo.refl paired.world, paired⟩

theorem Mirrored.bind {m : Binder RecordingDevice α} {f : α → Binder RecordingDevice β}
    (first : Mirrored m) (second : ∀ a, Mirrored (f a)) : Mirrored (m >>= f) := by
  refine ⟨fun start => Keeps.bind (first.follows start) fun a => (second a).follows start, ?_⟩
  intro R b b' w w' paired
  rw [ends_bind]
  refine (first.ends R b b' w w' paired).imp ?_ ?_
  · intro a c v ends
    by_cases room : Unspent v.events
    · rcases ends_cases m b' w' with ⟨a', c', v', run⟩ | ⟨e', c', v', run⟩
      · obtain ⟨rfl, R', echo, paired'⟩ := (run _ _).mp (ends room)
        refine ((second a').after echo paired').imp ?_ ?_
        all_goals
          intro x d u ends' room'
          rw [ends_bind, run]
          exact ends' room'
      · exact ((run _ _).mp (ends room)).elim
    · exact (second a).follows.spent room
  · intro e c v ends room
    rw [ends_bind]
    exact (ends room).imp (fun _ _ _ impossible => impossible.elim) fun _ _ _ failed => failed

theorem Mirrored.forM {f : β → Binder RecordingDevice PUnit} {xs : List β}
    (each : ∀ x, Mirrored (f x)) : Mirrored (xs.forM f) := by
  induction xs with
  | nil => exact mirrored_pure _
  | cons x xs ih => exact (each x).bind fun _ => ih

/-- Both runs have the same indices in use. -/
theorem Mirrored.getElements (next : Option IndexBuffer → Binder RecordingDevice α)
    (each : ∀ used, Mirrored (next used)) : Mirrored (do next (← get).elements) := by
  constructor
  · intro start b w path
    rw [ends_bind, ends_get]
    exact (each b.elements).follows start b w path
  · intro R b b' w w' paired
    rw [ends_bind, ends_get]
    refine ((each b.elements).ends R b b' w w' paired).imp ?_ ?_
    all_goals
      intro x c v ends room
      rw [ends_bind, ends_get, paired.bindings.elements]
      exact ends room

theorem mirrored_missing (declared : List String) (stage : ShaderStage) (name : String)
    (type : TokenType) : Mirrored (missing declared stage name type) := by
  refine ⟨follows_missing, fun R b b' w w' paired => ?_⟩
  unfold missing
  rw [ends_modify]
  dsimp only
  intro _
  rw [ends_modify]
  refine ⟨rfl, paired.reached (Echo.refl paired.world) ?_ rfl rfl⟩
  exact { paired.bindings with missing := by rw [paired.bindings.missing] }

/-- The recording device has a buffer for everybody. -/
theorem ends_uploadBuffer_recording {target : BufferTarget} {data : List UInt8}
    {afterwards : List Command} {done : Handle → Bindings → World RecordingDevice → Prop}
    {failed : RenderError → Bindings → World RecordingDevice → Prop} :
    Ends (uploadBuffer target data afterwards) b w done failed ↔
      done w.device.nextHandle { b with objects := b.objects ++ [.buffer w.device.nextHandle] }
        ((w.allocated .buffer).performAll
          (fill b.vertexArray target w.device.nextHandle data afterwards)) := by
  have granted (w : World RecordingDevice) : w.granted .buffer = .ok w.device.nextHandle := rfl
  rw [ends_uploadBuffer]
  simp only [granted, Except.ok.injEq, forall_eq', reduceCtorEq, IsEmpty.forall_iff, implies_true,
    and_true]

/-- New buffers, filled with the same through arrays that correspond. -/
theorem mirrored_filled (twin : w.Twin R w') {array array' : Handle}
    (same : R .vertexArray array array') (target : BufferTarget) (data : List UInt8)
    (pointers : List Command)
    (nameless : ∀ c ∈ pointers, ∀ ρ, c.rename ρ = c)
    (room : Unspent ((w.allocated .buffer).performAll
      (fill array target w.device.nextHandle data pointers)).events) :
    Echo R w w' (R.add .buffer w.device.nextHandle w'.device.nextHandle)
      ((w.allocated .buffer).performAll (fill array target w.device.nextHandle data pointers))
      ((w'.allocated .buffer).performAll (fill array' target w'.device.nextHandle data pointers)) := by
  have allocated := twin.allocated (by decide) room.of_performAll
  have listed : List.Forall₂ (Command.Twin (R.add .buffer w.device.nextHandle w'.device.nextHandle))
      pointers pointers := List.forall₂_same.mpr fun c member => .plain (nameless c member)
  refine allocated.next fun twin => twin.performAll ?_
  exact .cons (.bindVertexArray (.some (le_add _ _ _ same))) (.cons (.bindBuffer (.some add_self))
    (.cons (.plain fun _ => rfl)
      (List.rel_append listed (.cons (.bindVertexArray .none) .nil))))

theorem mirrored_bindAttribute (declared : List String) (stage : ShaderStage) (name : String)
    (t : AttributeToken) : Mirrored (bindAttribute declared stage name t) := by
  refine ⟨follows_bindAttribute, fun R b b' w w' paired => ?_⟩
  have answer := paired.located_attribute name
  have looked := paired.world.lookedUp (.attributeLocation paired.bindings.program) answer
  rw [ends_bindAttribute]
  dsimp only
  cases located : w.located (.attributeLocation b.program name) with
  | none =>
    refine ((mirrored_missing declared stage name .vertexAttribute).after looked
      (paired.moved looked)).imp ?_ ?_
    all_goals
      intro x c v ends room
      rw [ends_bindAttribute]
      dsimp only
      rw [answer, located]
      exact ends room
  | some location =>
    dsimp only
    have seen := looked.twin.see t.value
    generalize World.see t.value (w.lookedUp (.attributeLocation b.program name)) = data at seen ⊢
    rw [ends_uploadBuffer_recording]
    intro room
    have filled := (looked.next fun twin => twin.looked t.value).next fun twin =>
      mirrored_filled twin paired.bindings.vertexArray .array data.bytes
        [.vertexPointer location
          ⟨Int32.ofNat t.type.components, data.kind, t.type.keepsIntegers⟩] (by simp [Command.rename]) room
    have known := paired.bindings.mono filled.grow
    rw [ends_bindAttribute]
    dsimp only
    rw [answer, located, seen]
    dsimp only
    rw [ends_uploadBuffer_recording]
    refine ⟨rfl, paired.reached filled ?_ rfl rfl⟩
    exact { known with
      modes := by rw [known.modes]
      queue := UpdateQueue.register_twin known.queue (.attributes add_self) }

theorem mirrored_bindElements (t : AttributeToken) : Mirrored (bindElements t) := by
  refine ⟨follows_bindElements, fun R b b' w w' paired => ?_⟩
  have seen := paired.world.see t.value
  have ready := paired.world.looked t.value
  rw [ends_bindElements]
  dsimp only
  cases type : IndexType.ofElement? (w.see t.value).kind with
  | none =>
    dsimp only
    intro _
    rw [ends_bindElements]
    dsimp only
    rw [seen, type]
    exact ⟨rfl, paired.reached ready (paired.bindings.mono ready.grow) rfl rfl⟩
  | some type' =>
    dsimp only
    rw [ends_uploadBuffer_recording]
    intro room
    have filled := ready.next fun twin => mirrored_filled twin paired.bindings.vertexArray
      .elementArray (w.see t.value).bytes [] (by simp) room
    have known := paired.bindings.mono filled.grow
    rw [ends_bindElements]
    dsimp only
    rw [seen, type]
    dsimp only
    rw [ends_uploadBuffer_recording]
    refine ⟨rfl, paired.reached filled ?_ rfl rfl⟩
    exact { known with
      elements := rfl
      queue := UpdateQueue.register_twin known.queue (.elements add_self) }

theorem mirrored_bindUniform (declared : List String) (stage : ShaderStage) (name : String)
    (t : UniformToken) : Mirrored (bindUniform declared stage name t) := by
  refine ⟨follows_bindUniform, fun R b b' w w' paired => ?_⟩
  have answer := paired.located_uniform name
  have looked := paired.world.lookedUp (.uniformLocation paired.bindings.program) answer
  rw [ends_bindUniform]
  dsimp only
  cases located : w.located (.uniformLocation b.program name) with
  | none =>
    refine ((mirrored_missing declared stage name .uniform).after looked (paired.moved looked)).imp
      ?_ ?_
    all_goals
      intro x c v ends room
      rw [ends_bindUniform]
      dsimp only
      rw [answer, located]
      exact ends room
  | some location =>
    dsimp only
    intro _
    rw [ends_bindUniform]
    dsimp only
    rw [answer, located]
    refine ⟨rfl, paired.reached looked ?_ rfl rfl⟩
    exact { paired.bindings with
      queue := UpdateQueue.register_twin paired.bindings.queue .uniform }

/-- The recording device has a texture for everybody. -/
theorem ends_bindSampler_recording {declared : List String} {redraw : RedrawKey} {stage : ShaderStage}
    {name : String} {t : SamplerToken} {done : Unit → Bindings → World RecordingDevice → Prop}
    {failed : RenderError → Bindings → World RecordingDevice → Prop} :
    Ends (bindSampler declared redraw stage name t) b w done failed ↔
      let l := Lookup.uniformLocation b.program name
      match w.located l with
      | none => Ends (missing declared stage name .sampler2D) b (w.lookedUp l) done failed
      | some location =>
        let texture := (w.lookedUp l).device.nextHandle
        let seated := ((w.lookedUp l).allocated .texture).performAll
          (seat b.nextUnit texture t.options.parameters)
        match seated.see t.value with
        | .surface id =>
          let answer := (Engine.subscribe redraw id []).run (seated.looked t.value)
          done () (withSampler t redraw location texture answer.1 b) answer.2
        | .pixels _ => done () (withSampler t redraw location texture [] b) (seated.looked t.value) := by
  have granted (w : World RecordingDevice) : w.granted .texture = .ok w.device.nextHandle := rfl
  rw [ends_bindSampler]
  dsimp only
  cases w.located (.uniformLocation b.program name) with
  | none => rfl
  | some location =>
    constructor
    · intro ends
      exact ends.1 _ (granted _)
    · intro ends
      refine ⟨fun texture same => ?_, fun e refused => by simp [granted] at refused⟩
      obtain rfl := Except.ok.inj ((granted _).symm.trans same)
      exact ends

theorem withSampler_twin (same : b.Twin R b') (t : SamplerToken) (redraw : RedrawKey)
    (location : Location) {texture texture' : Handle} (partner : R .texture texture texture')
    {subscribed subscribed' : List Handle} (sources : List.Forall₂ (R .texture) subscribed subscribed') :
    (withSampler t redraw location texture subscribed b).Twin R
      (withSampler t redraw location texture' subscribed' b') := by
  unfold withSampler
  rw [same.nextUnit]
  exact { same with
    nextUnit := rfl
    queue := UpdateQueue.register_twin same.queue (.sampler partner sources) }

/-- New textures, seated at the same unit. -/
theorem mirrored_seated (twin : w.Twin R w') (unit : UInt32) (parameters : TextureParameters)
    (room : Unspent ((w.allocated .texture).performAll
      (seat unit w.device.nextHandle parameters)).events) :
    Echo R w w' (R.add .texture w.device.nextHandle w'.device.nextHandle)
      ((w.allocated .texture).performAll (seat unit w.device.nextHandle parameters))
      ((w'.allocated .texture).performAll (seat unit w'.device.nextHandle parameters)) := by
  have allocated := twin.allocated (by decide) room.of_performAll
  refine allocated.next fun twin => twin.performAll ?_
  exact .cons (.plain fun _ => rfl) (.cons (.bindTexture (.some add_self)) (.cons (.plain fun _ => rfl) .nil))

theorem mirrored_bindSampler (declared : List String) (redraw : RedrawKey) (stage : ShaderStage)
    (name : String) (t : SamplerToken) : Mirrored (bindSampler declared redraw stage name t) := by
  refine ⟨follows_bindSampler, fun R b b' w w' paired => ?_⟩
  have answer := paired.located_uniform name
  have looked := paired.world.lookedUp (.uniformLocation paired.bindings.program) answer
  rw [ends_bindSampler_recording]
  dsimp only
  cases located : w.located (.uniformLocation b.program name) with
  | none =>
    refine ((mirrored_missing declared stage name .sampler2D).after looked (paired.moved looked)).imp
      ?_ ?_
    all_goals
      intro x c v ends room
      rw [ends_bindSampler_recording]
      dsimp only
      rw [answer, located]
      exact ends room
  | some location =>
    have seated := fun room => looked.next fun twin =>
      mirrored_seated twin b.nextUnit t.options.parameters room
    dsimp only
    split
    · next id source =>
      intro room
      have seated := seated
        ((extends_path (path_subscribe (b := b) (.single (.look t.value)))).events.unspent room)
      have seen := seated.twin.see t.value
      have ready := seated.next fun twin => twin.looked t.value
      have known := paired.bindings.mono ready.grow
      obtain ⟨sources, subscribed⟩ := ready.twin.subscribe redraw id .nil
      rw [ends_bindSampler_recording]
      dsimp only
      rw [answer, located, paired.bindings.nextUnit]
      dsimp only
      rw [seen, source]
      exact ⟨rfl, paired.reached (ready.trans subscribed)
        (withSampler_twin known t redraw location add_self sources) rfl rfl⟩
    · next data source =>
      intro room
      have seated := seated room
      have seen := seated.twin.see t.value
      have ready := seated.next fun twin => twin.looked t.value
      have known := paired.bindings.mono ready.grow
      rw [ends_bindSampler_recording]
      dsimp only
      rw [answer, located, paired.bindings.nextUnit]
      dsimp only
      rw [seen, source]
      exact ⟨rfl, paired.reached ready (withSampler_twin known t redraw location add_self .nil) rfl rfl⟩

theorem mirrored_bindToken (declared : List String) (redraw : RedrawKey) (stage : ShaderStage)
    (n : NamedToken) : Mirrored (bindToken declared redraw stage n) := by
  unfold bindToken
  split
  · split
    · exact mirrored_bindAttribute declared stage n.name _
    · exact mirrored_bindElements _
  · exact mirrored_bindUniform declared stage n.name _
  · exact mirrored_bindSampler declared redraw stage n.name _
  · exact mirrored_pure ()

theorem mirrored_bindIndexToken (t : Token) : Mirrored (bindIndexToken t) := by
  unfold bindIndexToken
  split
  · split
    · exact mirrored_bindElements _
    · exact mirrored_throw _
  · exact mirrored_throw _

theorem mirrored_uploadIndices (indices : List UInt32) : Mirrored (uploadIndices indices) := by
  refine ⟨follows_uploadIndices, fun R b b' w w' paired => ?_⟩
  unfold uploadIndices
  rw [ends_bind, ends_discard, ends_uploadBuffer_recording, ends_modify]
  intro room
  have filled := mirrored_filled paired.world paired.bindings.vertexArray .elementArray
    (indices.flatMap (HostArray.littleEndian 4)) [] (by simp) room
  have known := paired.bindings.mono filled.grow
  rw [ends_bind, ends_discard, ends_uploadBuffer_recording, ends_modify]
  exact ⟨rfl, paired.reached filled { known with elements := rfl } rfl rfl⟩

/-- Whatever a draw needs is bound alike. -/
theorem mirrored_bindAll (redraw : RedrawKey) (vertex fragment : CompiledShader)
    (config : ProgramConfig) : Mirrored (bindAll redraw vertex fragment config) := by
  have shader (stage : ShaderStage) (shader : CompiledShader) :
      Mirrored (bindShader redraw stage shader) :=
    Mirrored.forM fun n => mirrored_bindToken shader.declaredNames redraw stage n
  have listed : Mirrored (do uploadListed config.draw (← get).elements) := by
    refine Mirrored.getElements (uploadListed config.draw) fun used => ?_
    unfold uploadListed
    split
    · exact mirrored_uploadIndices _
    · exact mirrored_pure ()
  unfold bindAll
  refine (shader .vertex vertex).bind fun _ => (shader .fragment fragment).bind fun _ => ?_
  cases config.indices with
  | some token => exact (mirrored_bindIndexToken token).bind fun _ => listed
  | none => exact listed

end Binder
end ShaderStack

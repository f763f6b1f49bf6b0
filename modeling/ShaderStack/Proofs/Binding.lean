import ShaderStack.Proofs.Updates
import Mathlib.Logic.Relation

/-! What each binding step does to the bindings and the world, up to the answers of the device. -/
namespace ShaderStack

variable {δ : Type}

namespace Binder

/-- Every way in which a binding step can end satisfies the one or the other condition. -/
def Ends (m : Binder δ α) (b : Bindings) (w : World δ) (done : α → Bindings → World δ → Prop)
    (failed : RenderError → Bindings → World δ → Prop) : Prop :=
  match (m.run.run b).run w with
  | ((.ok a, b'), w') => done a b' w'
  | ((.error e, b'), w') => failed e b' w'

section Rules

variable {b : Bindings} {w : World δ} {done : α → Bindings → World δ → Prop}
  {next : β → Bindings → World δ → Prop} {failed : RenderError → Bindings → World δ → Prop}

theorem ends_bind {m : Binder δ α} {f : α → Binder δ β} :
    Ends (m >>= f) b w next failed ↔
      Ends m b w (fun a b' w' => Ends (f a) b' w' next failed) failed := by
  unfold Ends
  simp only [ExceptT.run_bind, StateT.run_bind]
  rcases StateT.run (StateT.run m.run b) w with ⟨⟨e | a, b'⟩, w'⟩ <;> rfl

theorem ends_pure {a : α} : Ends (pure a : Binder δ α) b w done failed ↔ done a b w := Iff.rfl

theorem ends_throw {e : RenderError} :
    Ends (throw e : Binder δ α) b w done failed ↔ failed e b w := Iff.rfl

theorem ends_get {done : Bindings → Bindings → World δ → Prop} :
    Ends (get : Binder δ Bindings) b w done failed ↔ done b b w := Iff.rfl

theorem ends_modify {f : Bindings → Bindings} {done : PUnit → Bindings → World δ → Prop} :
    Ends (modify f : Binder δ PUnit) b w done failed ↔ done ⟨⟩ (f b) w := Iff.rfl

theorem ends_discard {m : Binder δ α} {done : PUnit → Bindings → World δ → Prop} :
    Ends (discard m) b w done failed ↔ Ends m b w (fun _ => done ⟨⟩) failed := by
  have sequence : discard m = m >>= fun _ => pure ⟨⟩ := by
    rw [bind_pure_comp]
    exact congrFun (congrFun (LawfulFunctor.map_const (f := Binder δ)) PUnit.unit) m
  rw [sequence, ends_bind]
  rfl

theorem ends_engine {m : Engine δ α} :
    Ends (engine m) b w done failed ↔ done (m.run w).1 b (m.run w).2 := Iff.rfl

theorem ends_attempt {m : Attempt δ α} :
    Ends (attempt m) b w done failed ↔
      Attempt.Ends m w (fun a w' => done a b w') (fun e w' => failed e b w') := by
  have run : StateT.run (StateT.run (attempt m).run b) w =
    (((StateT.run m.run w).1, b), (StateT.run m.run w).2) := rfl
  unfold Ends Attempt.Ends
  rw [run]
  rcases StateT.run m.run w with ⟨e | a, w'⟩ <;> rfl

theorem Ends.imp {m : Binder δ α} {done' : α → Bindings → World δ → Prop}
    {failed' : RenderError → Bindings → World δ → Prop} (ends : Ends m b w done failed)
    (onDone : ∀ a b' w', done a b' w' → done' a b' w')
    (onFailed : ∀ e b' w', failed e b' w' → failed' e b' w') :
    Ends m b w done' failed' := by
  unfold Ends at *
  rcases answer : StateT.run (StateT.run m.run b) w with ⟨⟨e | a, b'⟩, w'⟩ <;> rw [answer] at ends
  · exact onFailed e b' w' ends
  · exact onDone a b' w' ends

theorem Ends.and {m : Binder δ α} {done' : α → Bindings → World δ → Prop}
    {failed' : RenderError → Bindings → World δ → Prop} (first : Ends m b w done failed)
    (second : Ends m b w done' failed') :
    Ends m b w (fun a b' w' => done a b' w' ∧ done' a b' w')
      (fun e b' w' => failed e b' w' ∧ failed' e b' w') := by
  unfold Ends at *
  rcases answer : StateT.run (StateT.run m.run b) w with ⟨⟨e | a, b'⟩, w'⟩ <;>
    rw [answer] at first second
  · exact ⟨first, second⟩
  · exact ⟨first, second⟩

/-- A loop keeps an invariant that knows what was gone through. -/
theorem ends_forM {f : β → Binder δ PUnit} {xs : List β}
    (invariant : List β → Bindings → World δ → Prop)
    (step : ∀ before x after b w, xs = before ++ x :: after → invariant before b w →
      Ends (f x) b w (fun _ => invariant (before ++ [x])) failed)
    (start : invariant [] b w) : Ends (xs.forM f) b w (fun _ => invariant xs) failed := by
  have loop (before after : List β) (split : xs = before ++ after) (b : Bindings) (w : World δ)
      (here : invariant before b w) :
      Ends (after.forM f) b w (fun _ => invariant xs) failed := by
    induction after generalizing before b w with
    | nil =>
      rw [split, List.append_nil]
      exact here
    | cons x after ih =>
      change Ends (f x >>= fun _ => after.forM f) b w _ failed
      rw [ends_bind]
      refine (step before x after b w split here).imp ?_ fun _ _ _ failed => failed
      intro _ b' w' next
      exact ih (before ++ [x]) (by simp [split]) b' w' next
  exact loop [] xs rfl b w start

end Rules

section Steps

variable [GraphicsDevice δ] {b : Bindings} {w : World δ}
  {failed : RenderError → Bindings → World δ → Prop} {done : Unit → Bindings → World δ → Prop}

/-- The commands that fill a new buffer through a vertex array. -/
def fill (vertexArray : Handle) (target : BufferTarget) (buffer : Handle) (data : List UInt8)
    (afterwards : List Command) : List Command :=
  [.bindVertexArray (some vertexArray), .bindBuffer target (some buffer),
    .bufferData target data] ++ (afterwards ++ [.bindVertexArray none])

/-- A device without a buffer to give ends the binding; otherwise the buffer is kept and filled. -/
theorem ends_uploadBuffer {target : BufferTarget} {data : List UInt8} {afterwards : List Command}
    {done : Handle → Bindings → World δ → Prop} :
    Ends (uploadBuffer target data afterwards) b w done failed ↔
      (∀ buffer, w.granted .buffer = .ok buffer →
        done buffer { b with objects := b.objects ++ [.buffer buffer] }
          ((w.allocated .buffer).performAll
            (fill b.vertexArray target buffer data afterwards))) ∧
      ∀ e, w.granted .buffer = .error e → failed e b (w.allocated .buffer) := by
  unfold uploadBuffer own command fill
  simp only [ends_bind, ends_attempt, Attempt.ends_allocate, ends_modify, ends_get, ends_engine,
    ends_pure, Engine.run_command, Engine.run_commands, World.performAll_cons,
    World.performAll_append, World.performAll_nil, List.cons_append, List.nil_append]

theorem ends_bindAttribute {declared : List String} {stage : ShaderStage} {name : String}
    {t : AttributeToken} :
    Ends (bindAttribute declared stage name t) b w done failed ↔
      let l := Lookup.attributeLocation b.program name
      match w.located l with
      | none => Ends (missing declared stage name .vertexAttribute) b (w.lookedUp l) done failed
      | some location =>
        let data := (w.lookedUp l).see t.value
        let layout : VertexLayout :=
          ⟨Int32.ofNat t.type.components, data.kind, t.type.keepsIntegers⟩
        Ends (uploadBuffer .array data.bytes [.vertexPointer location layout])
          { b with modes := b.modes ++ t.options.mode.toList } ((w.lookedUp l).looked t.value)
          (fun buffer b' w' => done () { b' with queue := (b'.queue.register
            (.vertexAttribute location) (.attributes
              { location, buffer, type := t.type, value := t.value, uploaded := data })).2 } w')
          failed := by
  unfold bindAttribute register
  simp only [ends_bind, ends_get, ends_engine, Engine.run_lookup]
  cases w.located (.attributeLocation b.program name) with
  | none => rfl
  | some location =>
    simp only [ends_bind, ends_modify, ends_engine, Engine.run_readHost]

theorem ends_bindElements {t : AttributeToken} :
    Ends (bindElements t) b w done failed ↔
      let data := w.see t.value
      match IndexType.ofElement? data.kind with
      | none => done () b (w.looked t.value)
      | some type =>
        Ends (uploadBuffer .elementArray data.bytes []) b (w.looked t.value)
          (fun buffer b' w' => done ()
            { b' with
              elements := some ⟨data.length, type⟩
              queue := (b'.queue.register .elements (.elements
                { buffer, value := t.value, uploaded := data })).2 } w')
          failed := by
  unfold bindElements register
  simp only [ends_bind, ends_engine, Engine.run_readHost]
  cases IndexType.ofElement? (w.see t.value).kind with
  | none => rfl
  | some type => simp only [ends_bind, ends_modify]

theorem ends_bindUniform {declared : List String} {stage : ShaderStage} {name : String}
    {t : UniformToken} :
    Ends (bindUniform declared stage name t) b w done failed ↔
      let l := Lookup.uniformLocation b.program name
      match w.located l with
      | none => Ends (missing declared stage name .uniform) b (w.lookedUp l) done failed
      | some location =>
        done () { b with queue := (b.queue.register (.uniform location) (.uniform
          { location, setter := .forType t.type, value := t.value })).2 } (w.lookedUp l) := by
  unfold bindUniform register
  simp only [ends_bind, ends_get, ends_engine, Engine.run_lookup]
  cases w.located (.uniformLocation b.program name) <;> rfl

/-- The commands that give a texture its unit and its parameters. -/
def seat (unit : UInt32) (texture : Handle) (parameters : TextureParameters) : List Command :=
  [.activeTexture unit, .bindTexture (some texture), .textureParameters parameters]

/-- The bindings with a sampler's texture, unit and update. -/
def withSampler (t : SamplerToken) (redraw : RedrawKey) (location : Location) (texture : Handle)
    (subscribed : List Handle) (b : Bindings) : Bindings :=
  { b with
    objects := b.objects ++ [.texture texture]
    nextUnit := b.nextUnit + 1
    queue := (b.queue.register (.uniform location) (.sampler
      { location, unit := b.nextUnit, texture, options := t.options, value := t.value,
        uploaded := none, subscribed, redraw })).2 }

theorem ends_bindSampler {declared : List String} {redraw : RedrawKey} {stage : ShaderStage}
    {name : String} {t : SamplerToken} :
    Ends (bindSampler declared redraw stage name t) b w done failed ↔
      let l := Lookup.uniformLocation b.program name
      match w.located l with
      | none => Ends (missing declared stage name .sampler2D) b (w.lookedUp l) done failed
      | some location =>
        (∀ texture, (w.lookedUp l).granted .texture = .ok texture →
          let seated := ((w.lookedUp l).allocated .texture).performAll
            (seat b.nextUnit texture t.options.parameters)
          match seated.see t.value with
          | .surface id =>
            let answer := (Engine.subscribe redraw id []).run (seated.looked t.value)
            done () (withSampler t redraw location texture answer.1 b) answer.2
          | .pixels _ => done () (withSampler t redraw location texture [] b)
              (seated.looked t.value)) ∧
        ∀ e, (w.lookedUp l).granted .texture = .error e →
          failed e b ((w.lookedUp l).allocated .texture) := by
  unfold bindSampler register own command seat withSampler
  simp only [ends_bind, ends_get, ends_engine, Engine.run_lookup]
  cases w.located (.uniformLocation b.program name) with
  | none => rfl
  | some location =>
    simp only [ends_bind, ends_attempt, Attempt.ends_allocate, ends_modify, ends_get, ends_engine,
      Engine.run_command, Engine.run_readHost, World.performAll_cons, World.performAll_nil]
    refine and_congr (forall_congr' fun texture => imp_congr_right fun _ => ?_) Iff.rfl
    generalize World.see t.value _ = source
    cases source <;> rfl

omit [GraphicsDevice δ] in
/-- A binding that is skipped leaves a report and nothing else. -/
theorem ends_missing (declared : List String) (stage : ShaderStage) (name : String)
    (type : TokenType) (b : Bindings) (w : World δ) :
    ∃ entry, ∀ (done : Unit → Bindings → World δ → Prop) failed,
      Ends (missing declared stage name type) b w done failed ↔
        done () { b with missing := b.missing ++ [entry] } w :=
  ⟨_, fun _ _ => Iff.rfl⟩

end Steps

/-- The indices that are listed with a draw, unless others are in use. -/
def uploadListed [GraphicsDevice δ] (draw : Draw) (used : Option IndexBuffer) : Binder δ Unit :=
  match draw, used with
  | .elements indices, none => uploadIndices indices
  | _, _ => pure ()

/-- A binding step that keeps an invariant, or fails with what is said of failures. -/
def Keeps (invariant failed : Bindings → World δ → Prop) (m : Binder δ α) : Prop :=
  ∀ b w, invariant b w → Ends m b w (fun _ => invariant) fun _ => failed

section Keeps

variable {invariant failed : Bindings → World δ → Prop} {redraw : RedrawKey}

theorem Keeps.bind {m : Binder δ α} {f : α → Binder δ β} (first : Keeps invariant failed m)
    (second : ∀ a, Keeps invariant failed (f a)) : Keeps invariant failed (m >>= f) := by
  intro b w here
  rw [ends_bind]
  exact (first b w here).imp (fun a b' w' => second a b' w') fun _ _ _ => id

theorem Keeps.forM {f : β → Binder δ PUnit} {xs : List β}
    (each : ∀ x ∈ xs, Keeps invariant failed (f x)) : Keeps invariant failed (xs.forM f) := by
  intro b w here
  refine ends_forM (fun _ => invariant) ?_ here
  rintro before x after b w rfl next
  exact each x (by simp) b w next

theorem keeps_pure {a : α} : Keeps invariant failed (pure a : Binder δ α) := fun _ _ => id

theorem Keeps.missing {declared : List String} {stage : ShaderStage} {name : String}
    {type : TokenType}
    (noted : ∀ b w missing, invariant b w → invariant { b with missing } w) :
    Keeps invariant failed (missing declared stage name type : Binder δ Unit) :=
  fun b w => noted b w _

variable [GraphicsDevice δ]

/-- The kind of a token decides how it is bound. -/
theorem keeps_bindToken {declared : List String} {stage : ShaderStage} {n : NamedToken}
    (pointer : ∀ a, n.token.kind = .vertexAttribute a → a.options.target = .array →
      Keeps invariant failed (bindAttribute declared stage n.name a))
    (elements : ∀ a, n.token.kind = .vertexAttribute a → a.options.target = .elementArray →
      Keeps invariant failed (bindElements a))
    (uniform : ∀ k, n.token.kind = .uniform k →
      Keeps invariant failed (bindUniform declared stage n.name k))
    (sampler : ∀ k, n.token.kind = .sampler k →
      Keeps invariant failed (bindSampler declared redraw stage n.name k)) :
    Keeps invariant failed (bindToken declared redraw stage n : Binder δ Unit) := by
  unfold bindToken
  split
  · next a kind =>
    split
    · next target => exact pointer a kind target
    · next target => exact elements a kind target
  · next k kind => exact uniform k kind
  · next k kind => exact sampler k kind
  · exact keeps_pure

theorem keeps_bindIndexToken {t : Token} (quit : ∀ b w, invariant b w → failed b w)
    (elements : ∀ a, t.kind = .vertexAttribute a → a.options.target = .elementArray →
      Keeps invariant failed (bindElements a)) :
    Keeps invariant failed (bindIndexToken t : Binder δ Unit) := by
  have throws (e : RenderError) : Keeps invariant failed (throw e : Binder δ Unit) :=
    fun b w here => quit b w here
  unfold bindIndexToken
  split
  · next a kind =>
    split
    · next target => exact elements a kind target
    · exact throws _
  · exact throws _

/-- What every step keeps, binding everything keeps. -/
theorem keeps_bindAll {vertex fragment : CompiledShader} {config : ProgramConfig}
    (token : ∀ (declared : List String) stage, ∀ n ∈ vertex.tokens ++ fragment.tokens,
      Keeps invariant failed (bindToken declared redraw stage n))
    (indexed : ∀ t ∈ config.indices, Keeps invariant failed (bindIndexToken t))
    (listed : ∀ indices, config.draw = .elements indices →
      Keeps invariant failed (uploadIndices indices)) :
    Keeps invariant failed (bindAll redraw vertex fragment config : Binder δ Unit) := by
  have last : Keeps invariant failed (do uploadListed config.draw (← get).elements : Binder δ Unit) := by
    intro b w here
    unfold uploadListed
    rw [ends_bind, ends_get]
    split
    · next draw _ => exact listed _ draw b w here
    · exact here
  unfold bindAll
  refine Keeps.bind (Keeps.forM fun n member => ?_) fun _ =>
    Keeps.bind (Keeps.forM fun n member => ?_) fun _ => ?_
  · exact token _ _ n (List.mem_append_left _ member)
  · exact token _ _ n (List.mem_append_right _ member)
  cases found : config.indices with
  | some t => exact (indexed t found).bind fun _ => last
  | none => exact last

end Keeps

/-- The steps that binding is made of, whatever is bound. A buffer or a texture comes with the
commands that fill it, so that between steps no vertex array is left bound. -/
inductive Step [GraphicsDevice δ] : Bindings × World δ → Bindings × World δ → Prop
  | note {b b' : Bindings} {w : World δ} (program : b'.program = b.program)
      (vertexArray : b'.vertexArray = b.vertexArray) (objects : b'.objects = b.objects) :
      Step (b, w) (b', w)
  | lookup {b : Bindings} {w : World δ} (l : Lookup) : Step (b, w) (b, w.lookedUp l)
  | look {b : Bindings} {w : World δ} {α : Type} (value : Accessor α) :
      Step (b, w) (b, w.looked value)
  | listen {b : Bindings} {w : World δ} (id : SurfaceId) (s : Subscription)
      (source : w.textureOf? id = some s.source) :
      Step (b, w) (b, w.listen id s)
  | refused {b : Bindings} {w : World δ} {a : Allocation} {e : RenderError}
      (resource : a = .buffer ∨ a = .texture) (granted : w.granted a = .error e) :
      Step (b, w) (b, w.allocated a)
  | buffer {b : Bindings} {w : World δ} {buffer : Handle}
      (granted : w.granted .buffer = .ok buffer) (target : BufferTarget) (data : List UInt8)
      (pointers : List (Location × VertexLayout)) :
      Step (b, w)
        ({ b with objects := b.objects ++ [.buffer buffer] },
          (w.allocated .buffer).performAll (fill b.vertexArray target buffer data
            (pointers.map fun p => .vertexPointer p.1 p.2)))
  | texture {b : Bindings} {w : World δ} {texture : Handle}
      (granted : w.granted .texture = .ok texture) (unit : UInt32)
      (parameters : TextureParameters) :
      Step (b, w)
        ({ b with objects := b.objects ++ [.texture texture] },
          (w.allocated .texture).performAll (seat unit texture parameters))

/-- Any number of binding steps. -/
abbrev Path [GraphicsDevice δ] : Bindings × World δ → Bindings × World δ → Prop :=
  Relation.ReflTransGen Step

section Paths

variable [GraphicsDevice δ] {start : Bindings × World δ} {b : Bindings} {w : World δ}

/-- A binding step that leads from anywhere on a path to somewhere on it, also when it fails. -/
def Follows (m : Binder δ α) : Prop :=
  ∀ start b w, Path start (b, w) →
    Ends m b w (fun _ b' w' => Path start (b', w')) (fun _ b' w' => Path start (b', w'))

theorem follows_missing {declared : List String} {stage : ShaderStage} {name : String}
    {type : TokenType} : Follows (missing declared stage name type : Binder δ Unit) := by
  intro start b w path
  obtain ⟨entry, ends⟩ := ends_missing declared stage name type b w
  rw [ends]
  exact path.tail (.note rfl rfl rfl)

/-- Filling a buffer, whatever is noted down after it. -/
theorem ends_filled {target : BufferTarget} {data : List UInt8}
    (pointers : List (Location × VertexLayout)) (note : Handle → Bindings → Bindings)
    (program : ∀ h b, (note h b).program = b.program)
    (vertexArray : ∀ h b, (note h b).vertexArray = b.vertexArray)
    (objects : ∀ h b, (note h b).objects = b.objects) (path : Path start (b, w)) :
    Ends (uploadBuffer target data (pointers.map fun p => .vertexPointer p.1 p.2)) b w
      (fun h b' w' => Path start (note h b', w')) (fun _ b' w' => Path start (b', w')) := by
  rw [ends_uploadBuffer]
  refine ⟨?_, ?_⟩
  · intro buffer granted
    exact (path.tail (.buffer granted target data pointers)).tail
      (.note (program _ _) (vertexArray _ _) (objects _ _))
  · intro e granted
    exact path.tail (.refused (.inl rfl) granted)

theorem follows_bindAttribute {declared : List String} {stage : ShaderStage} {name : String}
    {t : AttributeToken} : Follows (bindAttribute declared stage name t : Binder δ Unit) := by
  intro start b w path
  rw [ends_bindAttribute]
  have looked := path.tail (.lookup (.attributeLocation b.program name))
  dsimp only
  split
  · exact follows_missing start _ _ looked
  · next location _ =>
    have noted (w' : World δ) :
        Step (b, w') ({ b with modes := b.modes ++ t.options.mode.toList }, w') :=
      .note rfl rfl rfl
    have ready := (looked.tail (.look t.value)).tail (noted _)
    exact ends_filled [(location, _)] (fun h b' => { b' with queue := _ }) (fun _ _ => rfl) (fun _ _ => rfl)
      (fun _ _ => rfl) ready

theorem follows_bindElements {t : AttributeToken} : Follows (bindElements t : Binder δ Unit) := by
  intro start b w path
  rw [ends_bindElements]
  have ready := path.tail (.look t.value)
  dsimp only
  split
  · exact ready
  · next type _ =>
    exact ends_filled []
      (fun h b' => { b' with
        elements := some ⟨(w.see t.value).length, type⟩
        queue := _ }) (fun _ _ => rfl) (fun _ _ => rfl) (fun _ _ => rfl) ready

theorem follows_bindUniform {declared : List String} {stage : ShaderStage} {name : String}
    {t : UniformToken} : Follows (bindUniform declared stage name t : Binder δ Unit) := by
  intro start b w path
  rw [ends_bindUniform]
  have looked := path.tail (.lookup (.uniformLocation b.program name))
  dsimp only
  split
  · exact follows_missing start _ _ looked
  · exact looked.tail (.note rfl rfl rfl)

/-- Subscribing listens at most once. -/
theorem path_subscribe {redraw : RedrawKey} {id : SurfaceId} {subscribed : List Handle}
    (path : Path start (b, w)) :
    Path start (b, ((Engine.subscribe redraw id subscribed : Engine δ (List Handle)).run w).2) := by
  obtain ⟨handles, same | ⟨s, source, added⟩⟩ := SamplerUpdate.run_subscribe redraw id subscribed w
  · rw [same]
    exact path
  · rw [added]
    exact path.tail (.listen id s source)

theorem follows_bindSampler {declared : List String} {redraw : RedrawKey} {stage : ShaderStage}
    {name : String} {t : SamplerToken} :
    Follows (bindSampler declared redraw stage name t : Binder δ Unit) := by
  intro start b w path
  rw [ends_bindSampler]
  have looked := path.tail (.lookup (.uniformLocation b.program name))
  dsimp only
  split
  · exact follows_missing start _ _ looked
  · refine ⟨?_, fun e granted => looked.tail (.refused (.inr rfl) granted)⟩
    intro texture granted
    have seated := (looked.tail (.texture granted b.nextUnit t.options.parameters)).tail
      (.look t.value)
    split
    · exact (path_subscribe seated).tail (.note rfl rfl rfl)
    · exact seated.tail (.note rfl rfl rfl)

theorem follows_bindToken {declared : List String} {redraw : RedrawKey} {stage : ShaderStage}
    {n : NamedToken} : Follows (bindToken declared redraw stage n : Binder δ Unit) := fun start =>
  keeps_bindToken (fun _ _ _ => follows_bindAttribute start) (fun _ _ _ => follows_bindElements start)
    (fun _ _ => follows_bindUniform start) fun _ _ => follows_bindSampler start

theorem follows_uploadIndices {indices : List UInt32} :
    Follows (uploadIndices indices : Binder δ Unit) := by
  intro start b w path
  unfold uploadIndices
  rw [ends_bind, ends_discard]
  exact ends_filled [] (fun _ b' => { b' with elements := _ })
    (fun _ _ => rfl) (fun _ _ => rfl) (fun _ _ => rfl) path

/-- Binding everything that a draw needs takes these steps only. -/
theorem follows_bindAll {redraw : RedrawKey} {vertex fragment : CompiledShader}
    {config : ProgramConfig} : Follows (bindAll redraw vertex fragment config : Binder δ Unit) :=
  fun start => keeps_bindAll (fun _ _ _ _ => follows_bindToken start)
    (fun _ _ => keeps_bindIndexToken (fun _ _ => id) fun _ _ _ => follows_bindElements start)
    fun _ _ => follows_uploadIndices start

end Paths
end Binder
end ShaderStack

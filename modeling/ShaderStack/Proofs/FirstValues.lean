import ShaderStack.Proofs.Compiling
import ShaderStack.Proofs.Turns

/-! What binding uploads, and what the updates of a new program remember.

Binding reads each accessor once, and an array is uploaded as it was read. Pixels are not: a sampler
starts with an empty texture, whatever its accessor gives. -/
namespace ShaderStack

open World (Emits)

variable {δ : Type} {w w' start : World δ} {m : Moment} {b b' : Bindings} {t : Token} {u : Update}

/-- Bytes that an array attribute of a call gives in it. -/
def Moment.Gives (m : Moment) (bytes : List UInt8) : Prop :=
  ∃ t ∈ m.tokens, ∃ a, t.kind = .vertexAttribute a ∧ a.options.target = .array ∧
    ∃ seen host, m.Reaches seen host ∧ bytes = (a.value.run host).1.bytes

/-- No vertex data but these are uploaded. -/
def Moment.Admits (m : Moment) (e : Event) : Prop :=
  ∀ bytes, e = .command (.bufferData .array bytes) → m.Gives bytes

namespace Update

/-- An update as it is bound: it has the array that its accessor gave in the call, or no pixels. -/
def Begun (m : Moment) : Update → Prop
  | attributes u => ∃ seen host, m.Reaches seen host ∧ (u.value.run host).1 = u.uploaded
  | elements u => ∃ seen host, m.Reaches seen host ∧ (u.value.run host).1 = u.uploaded
  | uniform _ => True
  | sampler u => u.uploaded = none

theorem Begun.array {bound : ArrayBinding} {first : HostArray} (begun : u.Begun m)
    (found : u.array? = some (bound, first)) :
    ∃ seen host, m.Reaches seen host ∧ (bound.value.run host).1 = first := by
  cases u with
  | attributes u | elements u =>
    obtain ⟨rfl, rfl⟩ := Prod.mk.inj (Option.some.inj found)
    exact begun
  | uniform u | sampler u => exact nomatch found

theorem Begun.texture {bound : TextureBinding} {given : Option HostArray} (begun : u.Begun m)
    (found : u.texture? = some (bound, given)) : given = none := by
  cases u with
  | sampler u =>
    obtain ⟨rfl, rfl⟩ := Prod.mk.inj (Option.some.inj found)
    exact begun
  | attributes u | elements u | uniform u => exact nomatch found

end Update

namespace Binder

/-- Only tokens of the call were asked, all updates are as they were bound, and only arrays of the call
were uploaded as vertex data. -/
structure Begins (m : Moment) (start : World δ) (b : Bindings) (w : World δ) : Prop where
  reaches : ∃ seen, m.Reaches seen w.host
  begun : ∀ e ∈ b.queue.entries, e.2.Begun m
  sent : Emits m.Admits start w

namespace Begins

theorem move (begins : Begins m start b w) (queue : b'.queue = b.queue) (host : w'.host = w.host)
    (run : Emits m.Admits w w') : Begins m start b' w' :=
  ⟨host ▸ begins.reaches, queue ▸ begins.begun, begins.sent.trans run⟩

theorem lookedUp [GraphicsDevice δ] (l : Lookup) (begins : Begins m start b w) :
    Begins m start b (w.lookedUp l) := begins.move rfl rfl (Emits.emit (by simp [Moment.Admits]))

theorem look (value : Accessor α) (begins : Begins m start b w) (known : t ∈ m.tokens)
    (after : t.after w.host = (value.run w.host).2) : Begins m start b (w.looked value) := by
  obtain ⟨seen, reaches⟩ := begins.reaches
  refine ⟨⟨t.arrays w.host ++ seen, ?_⟩, begins.begun, begins.sent.trans (Emits.silent rfl)⟩
  rw [World.looked_host, ← after]
  exact .read reaches known

theorem register {slot : BindingSlot} (begins : Begins m start b w)
    (queue : b'.queue = (b.queue.register slot u).2) (begun : u.Begun m) (host : w'.host = w.host)
    (run : Emits m.Admits w w') : Begins m start b' w' := by
  refine ⟨host ▸ begins.reaches, ?_, begins.sent.trans run⟩
  rw [queue]
  intro e member
  rcases eq_or_mem_of_mem_assign member with rfl | old
  · exact begun
  · exact begins.begun e old

end Begins

/-- A step that starts with updates as they were bound ends with them. -/
abbrev Opens (m : Moment) (start : World δ) (action : Binder δ α) : Prop :=
  Keeps (Begins m start) (fun _ w => Emits m.Admits start w) action

theorem opens_missing {declared : List String} {stage : ShaderStage} {name : String}
    {type : TokenType} : Opens m start (missing declared stage name type : Binder δ Unit) :=
  Keeps.missing fun _ _ _ begins => begins.move rfl rfl (Emits.refl _)

variable [GraphicsDevice δ]

/-- A buffer is made and filled. Vertex data must be given in the call. -/
theorem admits_fill {vertexArray buffer : Handle} {target : BufferTarget} {data : List UInt8}
    {afterwards : List Command} (given : target = .array → m.Gives data)
    (others : ∀ c ∈ afterwards, m.Admits (.command c)) :
    Emits m.Admits w ((w.allocated .buffer).performAll
      (fill vertexArray target buffer data afterwards)) := by
  have asked : Emits m.Admits w (w.allocated .buffer) := Emits.emit (by simp [Moment.Admits])
  refine asked.pushAll fun c member => ?_
  simp only [fill, List.cons_append, List.nil_append, List.mem_cons, List.mem_append, List.not_mem_nil,
    or_false] at member
  rcases member with rfl | rfl | rfl | after | rfl
  · simp [Moment.Admits]
  · simp [Moment.Admits]
  · rintro bytes same
    obtain ⟨rfl, rfl⟩ := Command.bufferData.inj (Event.command.inj same)
    exact given rfl
  · exact others c after
  · simp [Moment.Admits]

theorem opens_bindAttribute {declared : List String} {stage : ShaderStage} {name : String}
    {a : AttributeToken} (known : t ∈ m.tokens) (kind : t.kind = .vertexAttribute a)
    (target : a.options.target = .array) :
    Opens m start (bindAttribute declared stage name a : Binder δ Unit) := by
  intro b w begins
  have asked := begins.lookedUp (.attributeLocation b.program name)
  have looked := asked.look a.value known (by simp [Token.after, kind])
  rw [ends_bindAttribute]
  dsimp only
  split
  · exact opens_missing b _ asked
  · rw [ends_uploadBuffer]
    refine ⟨fun buffer _ => ?_, fun _ _ => looked.sent.push (by simp [Moment.Admits])⟩
    obtain ⟨seen, reaches⟩ := begins.reaches
    have given : m.Gives (w.see a.value).bytes := ⟨t, known, a, kind, target, seen, w.host, reaches, rfl⟩
    refine looked.register (u := .attributes _) rfl ⟨seen, w.host, reaches, rfl⟩ World.performAll_host ?_
    exact admits_fill (fun _ => given) (by simp [Moment.Admits])

theorem opens_bindElements {a : AttributeToken} (known : t ∈ m.tokens)
    (kind : t.kind = .vertexAttribute a) : Opens m start (bindElements a : Binder δ Unit) := by
  intro b w begins
  have looked := begins.look a.value known (by simp [Token.after, kind])
  rw [ends_bindElements]
  dsimp only
  split
  · exact looked
  · rw [ends_uploadBuffer]
    refine ⟨fun buffer _ => ?_, fun _ _ => looked.sent.push (by simp [Moment.Admits])⟩
    obtain ⟨seen, reaches⟩ := begins.reaches
    exact looked.register (u := .elements _) rfl ⟨seen, w.host, reaches, rfl⟩ World.performAll_host
      (admits_fill (by simp) (by simp))

theorem opens_bindUniform {declared : List String} {stage : ShaderStage} {name : String}
    {k : UniformToken} : Opens m start (bindUniform declared stage name k : Binder δ Unit) := by
  intro b w begins
  have asked := begins.lookedUp (.uniformLocation b.program name)
  rw [ends_bindUniform]
  dsimp only
  split
  · exact opens_missing b _ asked
  · exact asked.register (u := .uniform _) rfl trivial rfl (Emits.refl _)

theorem opens_bindSampler {declared : List String} {redraw : RedrawKey} {stage : ShaderStage}
    {name : String} {k : SamplerToken} (known : t ∈ m.tokens) (kind : t.kind = .sampler k) :
    Opens m start (bindSampler declared redraw stage name k : Binder δ Unit) := by
  intro b w begins
  have asked := begins.lookedUp (.uniformLocation b.program name)
  rw [ends_bindSampler]
  dsimp only
  split
  · exact opens_missing b _ asked
  · refine ⟨fun texture _ => ?_, fun _ _ => asked.sent.push (by simp [Moment.Admits])⟩
    have seated : Begins m start b (((w.lookedUp (.uniformLocation b.program name)).allocated
        .texture).performAll (seat b.nextUnit texture k.options.parameters)) := by
      have granted : Begins m start b ((w.lookedUp (.uniformLocation b.program name)).allocated .texture) :=
        asked.move rfl rfl (Emits.emit (by simp [Moment.Admits]))
      exact granted.move rfl World.performAll_host (Emits.performAll (by simp [seat, Moment.Admits]))
    have looked := seated.look k.value known (by simp [Token.after, kind])
    split
    · next id _ =>
      obtain ⟨handles, same | ⟨s, _, added⟩⟩ := SamplerUpdate.run_subscribe redraw id [] _
      · rw [same]
        exact looked.register (u := .sampler _) rfl rfl rfl (Emits.refl _)
      · rw [added]
        exact looked.register (u := .sampler _) rfl rfl World.listen_host (Emits.silent World.listen_events)
    · exact looked.register (u := .sampler _) rfl rfl rfl (Emits.refl _)

theorem opens_uploadIndices {indices : List UInt32} :
    Opens m start (uploadIndices indices : Binder δ Unit) := by
  intro b w begins
  unfold uploadIndices
  rw [ends_bind, ends_discard, ends_uploadBuffer]
  refine ⟨fun buffer _ => ?_, fun _ _ => begins.sent.push (by simp [Moment.Admits])⟩
  exact begins.move rfl World.performAll_host (admits_fill (by simp) (by simp))

theorem opens_bindAll {redraw : RedrawKey} {vertex fragment : CompiledShader} {config : ProgramConfig}
    (known : ∀ n ∈ vertex.tokens ++ fragment.tokens, n.token ∈ m.tokens)
    (indexed : ∀ t ∈ config.indices, t ∈ m.tokens) :
    Opens m start (bindAll redraw vertex fragment config : Binder δ Unit) := by
  refine keeps_bindAll (fun declared stage n member => ?_) (fun t member => ?_)
    fun _ _ => opens_uploadIndices
  · exact keeps_bindToken (fun _ kind target => opens_bindAttribute (known n member) kind target)
      (fun _ kind _ => opens_bindElements (known n member) kind) (fun _ _ => opens_bindUniform)
      fun _ kind => opens_bindSampler (known n member) kind
  · exact keeps_bindIndexToken (fun _ _ begins => begins.sent)
      fun _ kind _ => opens_bindElements (indexed t member) kind

end Binder

namespace ProgramCache

variable [GraphicsDevice δ] {cache : ProgramCache} {redraw : RedrawKey}
  {vertex fragment : CompiledShader} {config : ProgramConfig}
  (reaches : ∃ seen, m.Reaches seen w.host)
  (known : ∀ n ∈ vertex.tokens ++ fragment.tokens, n.token ∈ m.tokens)
  (indexed : ∀ t ∈ config.indices, t ∈ m.tokens)

include reaches known indexed

theorem begins_bind (handle : Handle) (owned : Bool) :
    (bind handle owned redraw vertex fragment config).Ends w
      (fun p w' => (∀ e ∈ p.bindings.queue.entries, e.2.Begun m) ∧ Emits m.Admits w w')
      (fun _ w' => Emits m.Admits w w') := by
  have asked : Emits m.Admits w (w.allocated .vertexArray) := Emits.emit (by simp [Moment.Admits])
  rw [ends_bind]
  refine ⟨fun vertexArray _ => ?_, fun e _ => ?_⟩
  · have start : Binder.Begins m w { program := handle, vertexArray } (w.allocated .vertexArray) :=
      ⟨reaches, fun _ none => absurd none List.not_mem_nil, asked⟩
    refine (Binder.opens_bindAll known indexed _ _ start).imp
      (fun _ _ _ begins => ⟨begins.begun, begins.sent⟩) fun e b w' sent => ?_
    have dropped : Emits (·.isErasure) w' ((bound owned config b).drop.run w').2 := Program.erases_drop
    refine sent.trans (dropped.mono ?_)
    rintro _ erasure bytes rfl
    exact Bool.noConfusion erasure
  · split
    · exact asked.push (by simp [Moment.Admits])
    · exact asked

/-- A program that is built has its updates as they were bound. -/
theorem begun_compile {p : Program}
    (built : ((cache.compile redraw vertex fragment config).run w).1.1 = .ok p) :
    ∀ e ∈ p.bindings.queue.entries, e.2.Begun m := by
  obtain ⟨handle, w', linked, yielded⟩ := bind_of_compile built
  have reaches' : ∃ seen, m.Reaches seen w'.host := by rcases linked with rfl | rfl <;> exact reaches
  exact ((begins_bind reaches' known indexed handle _).of_ok (Prod.ext yielded rfl)).1

/-- A compilation, whether it succeeds or not, uploads no vertex data but arrays that are given in it. -/
theorem admits_compile : Emits m.Admits w ((cache.compile redraw vertex fragment config).run w).2 := by
  have asked : Emits m.Admits w (w.allocated (.program vertex.source fragment.source)) :=
    Emits.emit (by simp [Moment.Admits])
  refine world_of_compile _ (fun _ _ => Emits.refl w) asked fun handle owned w' start => ?_
  have linked : Emits m.Admits w w' := by
    rcases start with rfl | rfl
    · exact Emits.refl _
    · exact asked
  have reaches' : ∃ seen, m.Reaches seen w'.host := by rcases start with rfl | rfl <;> exact reaches
  exact (begins_bind reaches' known indexed handle owned).imp (fun _ _ begins => linked.trans begins.2)
    fun _ _ => linked.trans

end ProgramCache
end ShaderStack

import ShaderStack.Proofs.Steadiness
import ShaderStack.Proofs.Indices
import ShaderStack.Proofs.Relinking

/-! Programs that are steady from the start.

Binding uploads the first value of each token. A calm token gives the same array at every look, a uniform
that its setter takes, or a rendered surface, so the update that is registered for it is steady. On the
recording device nothing else can go wrong once the two stages link. -/
namespace ShaderStack

open World (Extends)

variable {sources : List (String × TextureSource)}

/-- An array that never changes. -/
def AttributeToken.Fixed (t : AttributeToken) : Prop := ∃ data, t.value = pure data

/-- A token whose update is steady as long as the sources stay the same. -/
def Token.Calm (sources : List (String × TextureSource)) (t : Token) : Prop :=
  match t.kind with
  | .vertexAttribute a => a.Fixed
  | .uniform k => ∀ host, (k.value.run host).2 = host ∧
      ((UniformSetter.forType k.type).push? (k.value.run host).1).isSome
  | .sampler k => ∀ host, host.sources = sources → ∃ id, k.value.run host = (.surface id, host)
  | .scope _ => True

/-- An index buffer that never changes. -/
def Token.FixedIndices (t : Token) : Prop :=
  ∃ a, t.kind = .vertexAttribute a ∧ a.options.target = .elementArray ∧ a.Fixed

namespace Binder

variable {start w : World RecordingDevice} {b b' : Bindings} {slot : BindingSlot} {u : Update}

/-- Everything that is bound so far is steady. -/
structure Settled (sources : List (String × TextureSource)) (start : World RecordingDevice)
    (b : Bindings) (w : World RecordingDevice) : Prop where
  steady : ∀ e ∈ b.queue.entries, e.2.Steady sources
  sources : w.host.sources = sources
  world : start.LeavesTargets w

namespace Settled

theorem reached {w' : World RecordingDevice} (settled : Settled sources start b w)
    (queue : b'.queue = b.queue) (host : w'.host = w.host)
    (run : w.LeavesTargets w') : Settled sources start b' w' :=
  ⟨queue ▸ settled.steady, (congrArg Host.sources host).trans settled.sources, settled.world.trans run⟩

theorem register (settled : Settled sources start b w)
    (queue : b'.queue = (b.queue.register slot u).2) (steady : u.Steady sources) :
    Settled sources start b' w := by
  refine ⟨fun e member => ?_, settled.sources, settled.world⟩
  rw [queue] at member
  rcases eq_or_mem_of_mem_assign member with rfl | old
  · exact steady
  · exact settled.steady e old

/-- A buffer is there for everybody, and filling it does nothing else. -/
theorem uploadBuffer {target : BufferTarget} {data : List UInt8} {afterwards : List Command}
    (settled : Settled sources start b w) (note : Handle → Bindings → Bindings)
    (steady : ∀ buffer b, ∃ slot u, (note buffer b).queue = (b.queue.register slot u).2 ∧ u.Steady sources) :
    Ends (uploadBuffer target data afterwards) b w
      (fun buffer b' w' => Settled sources start (note buffer b') w') fun _ _ _ => False := by
  rw [ends_uploadBuffer_recording]
  obtain ⟨slot, u, queue, steady⟩ := steady w.device.nextHandle
    { b with objects := b.objects ++ [.buffer w.device.nextHandle] }
  refine (settled.reached rfl ?_ ?_).register queue steady
  · rw [World.performAll_host]
    rfl
  · exact Extends.step.trans (.performAll fun _ _ => trivial)

end Settled

section Keeps

abbrev Settles (sources : List (String × TextureSource)) (start : World RecordingDevice)
    (m : Binder RecordingDevice Unit) : Prop :=
  Keeps (Settled sources start) (fun _ _ => False) m

variable {declared : List String} {redraw : RedrawKey} {stage : ShaderStage} {name : String}

theorem settles_missing {type : TokenType} :
    Settles sources start (missing declared stage name type) :=
  Keeps.missing fun _ _ _ settled => settled.reached rfl rfl (Extends.refl _)

theorem settles_bindAttribute {t : AttributeToken} (fixed : t.Fixed) :
    Settles sources start (bindAttribute declared stage name t) := by
  intro b w settled
  obtain ⟨data, value⟩ := fixed
  have looked : Settled sources start b (w.lookedUp (.attributeLocation b.program name)) :=
    settled.reached rfl rfl .step
  rw [ends_bindAttribute, value]
  dsimp only
  split
  · exact settles_missing b _ looked
  · next location _ =>
    have seen : World.LeavesTargets (w.lookedUp (.attributeLocation b.program name))
        ((w.lookedUp (.attributeLocation b.program name)).looked (pure data : Accessor HostArray)) := .looked
    have ready : Settled sources start { b with modes := b.modes ++ t.options.mode.toList } _ :=
      looked.reached rfl rfl seen
    exact ready.uploadBuffer (fun buffer b' => { b' with queue := (b'.queue.register _ _).2 })
      fun _ _ => ⟨_, _, rfl, rfl⟩

theorem settles_bindElements {t : AttributeToken} (fixed : t.Fixed) :
    Settles sources start (bindElements t) := by
  intro b w settled
  obtain ⟨data, value⟩ := fixed
  rw [ends_bindElements, value]
  have seen : w.LeavesTargets (w.looked (pure data : Accessor HostArray)) := .looked
  have ready := settled.reached rfl rfl seen
  dsimp only
  split
  · exact ready
  · next type _ =>
    exact ready.uploadBuffer
      (fun buffer b' => { b' with elements := some ⟨data.length, type⟩, queue := (b'.queue.register _ _).2 })
      fun _ _ => ⟨_, _, rfl, rfl⟩

theorem settles_bindUniform {t : UniformToken}
    (calm : ∀ host, (t.value.run host).2 = host ∧
      ((UniformSetter.forType t.type).push? (t.value.run host).1).isSome) :
    Settles sources start (bindUniform declared stage name t) := by
  intro b w settled
  have looked : Settled sources start b (w.lookedUp (.uniformLocation b.program name)) :=
    settled.reached rfl rfl .step
  rw [ends_bindUniform]
  dsimp only
  split
  · exact settles_missing b _ looked
  · exact looked.register rfl calm

theorem settles_bindSampler {t : SamplerToken}
    (calm : ∀ host, host.sources = sources → ∃ id, t.value.run host = (.surface id, host)) :
    Settles sources start (bindSampler declared redraw stage name t) := by
  intro b w settled
  have looked : Settled sources start b (w.lookedUp (.uniformLocation b.program name)) :=
    settled.reached rfl rfl .step
  rw [ends_bindSampler_recording]
  dsimp only
  split
  · exact settles_missing b _ looked
  · next location _ =>
    set seated := ((w.lookedUp (.uniformLocation b.program name)).allocated .texture).performAll
      (seat b.nextUnit (w.lookedUp (.uniformLocation b.program name)).device.nextHandle
        t.options.parameters)
    have host : seated.host = w.host := World.performAll_host
    obtain ⟨id, gives⟩ := calm seated.host ((congrArg Host.sources host).trans settled.sources)
    have shown : seated.see t.value = .surface id := congrArg Prod.fst gives
    have untouched : (seated.looked t.value).host = w.host := (congrArg Prod.snd gives).trans host
    have run : w.LeavesTargets (seated.looked t.value) :=
      ((Extends.step.trans .step).trans (.performAll fun _ _ => trivial)).trans .looked
    rw [shown]
    dsimp only
    obtain ⟨handles, same | ⟨s, _, listens⟩⟩ :=
      SamplerUpdate.run_subscribe redraw id [] (seated.looked t.value)
    · rw [same]
      have reached : Settled sources start b _ := settled.reached rfl untouched run
      exact reached.register rfl calm
    · rw [listens]
      have reached : Settled sources start b ((seated.looked t.value).listen id s) :=
        settled.reached rfl (World.listen_host.trans untouched) (run.trans .listen)
      exact reached.register rfl calm

theorem settles_bindToken {n : NamedToken} (calm : n.token.Calm sources) :
    Settles sources start (bindToken declared redraw stage n) := by
  unfold Token.Calm at calm
  apply keeps_bindToken
  · intro a kind _
    rw [kind] at calm
    exact settles_bindAttribute calm
  · intro a kind _
    rw [kind] at calm
    exact settles_bindElements calm
  · intro k kind
    rw [kind] at calm
    exact settles_bindUniform calm
  · intro k kind
    rw [kind] at calm
    exact settles_bindSampler calm

theorem settles_bindIndexToken {t : Token} (fixed : t.FixedIndices) :
    Settles sources start (bindIndexToken t) := by
  obtain ⟨a, kind, target, fixed⟩ := fixed
  unfold bindIndexToken
  simp only [kind, target, if_true]
  exact settles_bindElements fixed

variable {vertex fragment : CompiledShader} {config : ProgramConfig}

/-- An indexed draw has indices once everything is bound, those of a token or those that are listed. -/
theorem settles_bindAll (calm : ∀ n ∈ vertex.tokens ++ fragment.tokens, n.token.Calm sources)
    (fixed : ∀ t ∈ config.indices, t.FixedIndices) (settled : Settled sources start b w) :
    Ends (bindAll redraw vertex fragment config) b w
      (fun _ b' w' => Settled sources start b' w' ∧
        ∀ listed, config.draw = .elements listed → b'.elements.isSome)
      fun _ _ _ => False := by
  have unlisted : Settles sources start
      (bindAll redraw vertex fragment { config with draw := .arrays 0 0 }) :=
    keeps_bindAll (fun _ _ n member => settles_bindToken (calm n member))
      (fun t member => settles_bindIndexToken (fixed t member)) fun _ same => Draw.noConfusion same
  rw [ends_bindAll]
  refine (unlisted b w settled).imp (fun _ b' w' settled => ?_) fun _ _ _ => id
  unfold uploadListed
  split
  · next indices draw =>
    unfold uploadIndices
    rw [ends_bind, ends_discard, ends_uploadBuffer_recording, ends_modify]
    refine ⟨settled.reached rfl ?_ ?_, fun _ _ => rfl⟩
    · rw [World.performAll_host]
      rfl
    · exact Extends.step.trans (.performAll fun _ _ => trivial)
  · next other =>
    refine ⟨settled, fun listed draw => ?_⟩
    by_contra none
    exact other listed draw (by simpa using none)

end Keeps
end Binder

namespace ProgramCache

open Binder (Settled)

variable {w : World RecordingDevice} {vertex fragment : CompiledShader}
  {linkage : Linkage} {config : ProgramConfig}

/-- Texts that build are linked, or a cached program stands in for them. -/
theorem exists_link (cache : ProgramCache) (w : World RecordingDevice)
    (built : Linkage.build vertex.source fragment.source = .ok linkage) (cached : Bool) :
    ∃ handle owned cache' w',
      (cache.link vertex fragment cached).run w = ((.ok (handle, owned), cache'), w') ∧
        w'.host = w.host ∧ w.LeavesTargets w' := by
  rw [run_link]
  split
  · exact ⟨_, _, _, _, rfl, rfl, Extends.refl w⟩
  · dsimp only
    rw [(granted_program w built).1]
    exact ⟨_, _, _, _, rfl, rfl, .step⟩

/-- Calm tokens of texts that build give a steady program. -/
theorem exists_compile (cache : ProgramCache) (redraw : RedrawKey)
    (fit : checkSharedNames vertex fragment = .ok ())
    (built : Linkage.build vertex.source fragment.source = .ok linkage)
    (calm : ∀ n ∈ vertex.tokens ++ fragment.tokens, n.token.Calm sources)
    (fixed : ∀ t ∈ config.indices, t.FixedIndices) (same : w.host.sources = sources) :
    ∃ p cache' w', (cache.compile redraw vertex fragment config).run w = ((.ok p, cache'), w') ∧
      p.Steady sources ∧ w'.host.sources = sources ∧ w.LeavesTargets w' := by
  obtain ⟨handle, owned, cache', w₁, linked, host, run⟩ :=
    exists_link cache w built config.cached
  have free : Settled sources w { program := handle, vertexArray := w₁.device.nextHandle }
      (w₁.allocated .vertexArray) :=
    ⟨fun _ member => absurd member List.not_mem_nil, (congrArg Host.sources host).trans same, run.trans .step⟩
  have bound : (bind handle owned redraw vertex fragment config).Ends w₁
      (fun p w' => p.Steady sources ∧ w'.host.sources = sources ∧
        w.LeavesTargets w') fun _ _ => False := by
    rw [ends_bind_recording]
    refine (Binder.settles_bindAll calm fixed free).imp ?_ fun _ _ _ => id
    rintro _ b w' ⟨settled, indexed⟩
    exact ⟨⟨settled.steady, indexed⟩, settled.sources, settled.world⟩
  obtain ⟨p, w', ran, steady⟩ := bound.exists_ok
  refine ⟨p, cache', w', ?_, steady⟩
  rw [run_compile, fit]
  dsimp only
  rw [linked]
  dsimp only
  rw [ran]

end ProgramCache
end ShaderStack

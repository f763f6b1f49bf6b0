import ShaderStack.Proofs.Frames
import ShaderStack.Proofs.Slots

/-! Naive binding.

A naive binder would upload every array and push every value anew for each draw. What updates show at a
draw is what it would leave: for each slot it gives the value of the token that was bound last, and
uploading everything once more would change nothing that draws depend on. -/
namespace ShaderStack

/-- What naive binding of a token to a slot would leave there for a draw. -/
def Token.Shown (m : Moment) (p : Program) (indices : Option IndexBuffer) (g : GraphicsState)
    (slot : BindingSlot) (t : Token) : Prop :=
  match slot, t.kind with
  | .vertexAttribute location, .vertexAttribute a =>
    let data := (a.value.run m.host).1
    ∃ buffer, g.pointers (some p.bindings.vertexArray) location = some (some buffer,
        ⟨Int32.ofNat a.type.components, data.kind, a.type.keepsIntegers⟩) ∧
      g.buffers buffer = data.bytes
  | .elements, .vertexAttribute a =>
    let data := (a.value.run m.host).1
    ∃ (buffer : Handle) (type : IndexType),
      g.elementArrays (some p.bindings.vertexArray) = some buffer ∧
        g.buffers buffer = data.bytes ∧ type.Reads data.kind ∧ indices = some ⟨data.length, type⟩
  | .uniform location, .uniform u =>
    g.uniforms p.handle location = some (u.value.run m.host).1.pushed
  | .uniform location, .sampler k =>
    ∃ unit own, (⟨.texture, own⟩ : Object) ∈ p.owns ∧
      g.uniforms p.handle location = some (.integers 1 [unit.toInt32]) ∧
        match (k.value.run m.host).1 with
        | .pixels data =>
          g.units unit = some own ∧ ∃ image, pixelImage? k.options data = some image ∧
            g.textures own = .image image (some data.bytes)
        | .surface id => g.units unit = some ((m.surfaces id).getD own)
  | _, _ => False

section Renewal

variable {m : Moment} {g : GraphicsState} {program vertexArray : Handle} {indices : Option IndexBuffer}

/-- Everything for one update, uploaded and pushed anew. -/
def Update.renewal (m : Moment) : Update → List Command
  | attributes u =>
    let data := (u.value.run m.host).1
    [.bindBuffer .array (some u.buffer), .bufferData .array data.bytes,
      .vertexPointer u.location (u.layout data)]
  | elements u =>
    [.bindBuffer .elementArray (some u.buffer),
      .bufferData .elementArray (u.value.run m.host).1.bytes]
  | uniform u => [.uniform u.location (u.value.run m.host).1.pushed]
  | sampler u =>
    .activeTexture u.unit ::
      match (u.value.run m.host).1 with
      | .pixels data =>
        .bindTexture (some u.texture) ::
          ((pixelImage? u.options data).toList.map (.textureImage · (some data.bytes)) ++ [u.unitPush])
      | .surface id => [.bindTexture (some ((m.surfaces id).getD u.texture)), u.unitPush]

/-- Renewing what is shown changes neither what is bound for draws nor any content. -/
theorem Update.Shown.renewed {u : Update} (shown : u.Shown m program vertexArray g indices)
    (bound : g.vertexArray = some vertexArray) (used : g.program = some program) :
    ∃ buffer unit, g.afterAll (u.renewal m) = { g with arrayBuffer := buffer, activeUnit := unit } := by
  cases u with
  | attributes u =>
    obtain ⟨pointer, buffer⟩ := shown
    have buffers : Function.update g.buffers u.buffer (u.value.run m.host).1.bytes = g.buffers :=
      Function.update_eq_self_iff.mpr buffer.symm
    have pointers : Function.update g.pointers g.vertexArray (Function.update (g.pointers g.vertexArray)
        u.location (some (some u.buffer, u.layout (u.value.run m.host).1))) = g.pointers := by
      rw [bound, Function.update_eq_self_iff, Function.update_eq_self_iff]
      exact pointer.symm
    refine ⟨some u.buffer, g.activeUnit, ?_⟩
    simp [renewal, GraphicsState.afterAll, GraphicsState.afterCommand, GraphicsState.bound, buffers,
      pointers]
  | elements u =>
    obtain ⟨array, buffer, _⟩ := shown
    have buffers : Function.update g.buffers u.buffer (u.value.run m.host).1.bytes = g.buffers :=
      Function.update_eq_self_iff.mpr buffer.symm
    refine ⟨g.arrayBuffer, g.activeUnit, ?_⟩
    simp [renewal, GraphicsState.afterAll, GraphicsState.afterCommand, GraphicsState.bound, buffers,
      bound, array]
  | uniform u =>
    have uniforms : Function.update g.uniforms program (Function.update (g.uniforms program) u.location
        (some (u.value.run m.host).1.pushed)) = g.uniforms := by
      rw [Function.update_eq_self_iff, Function.update_eq_self_iff]
      exact shown.symm
    refine ⟨g.arrayBuffer, g.activeUnit, ?_⟩
    simp [renewal, GraphicsState.afterAll, GraphicsState.afterCommand, used, uniforms]
  | sampler u =>
    obtain ⟨pushed, texture⟩ := shown
    have uniforms : Function.update g.uniforms program (Function.update (g.uniforms program) u.location
        (some (.integers 1 [u.unit.toInt32]))) = g.uniforms := by
      rw [Function.update_eq_self_iff, Function.update_eq_self_iff]
      exact pushed.symm
    refine ⟨g.arrayBuffer, u.unit, ?_⟩
    cases source : (u.value.run m.host).1 with
    | surface id =>
      rw [source] at texture
      have units : Function.update g.units u.unit (some ((m.surfaces id).getD u.texture)) = g.units :=
        Function.update_eq_self_iff.mpr texture.symm
      simp [renewal, source, GraphicsState.afterAll, GraphicsState.afterCommand, SamplerUpdate.unitPush,
        used, uniforms, units]
    | pixels data =>
      rw [source] at texture
      obtain ⟨unit, image, fits, content⟩ := texture
      have units : Function.update g.units u.unit (some u.texture) = g.units :=
        Function.update_eq_self_iff.mpr unit.symm
      have textures : Function.update g.textures u.texture (.image image (some data.bytes)) =
          g.textures := Function.update_eq_self_iff.mpr content.symm
      simp [renewal, source, fits, GraphicsState.afterAll, GraphicsState.afterCommand,
        SamplerUpdate.unitPush, used, uniforms, unit, units, textures]

/-- So does renewing all updates of a queue, one after another. -/
theorem UpdateQueue.renewed {entries : List (BindingSlot × Update)}
    (shown : ∀ e ∈ entries, e.2.Shown m program vertexArray g indices)
    (bound : g.vertexArray = some vertexArray) (used : g.program = some program) :
    ∃ buffer unit, g.afterAll (entries.flatMap fun e => e.2.renewal m) =
      { g with arrayBuffer := buffer, activeUnit := unit } := by
  induction entries generalizing g with
  | nil => exact ⟨g.arrayBuffer, g.activeUnit, rfl⟩
  | cons e rest ih =>
    obtain ⟨buffer, unit, first⟩ := (shown e List.mem_cons_self).renewed bound used
    have later (e' : BindingSlot × Update) (member : e' ∈ rest) : e'.2.Shown m program vertexArray
        { g with arrayBuffer := buffer, activeUnit := unit } indices := by
      refine (shown e' (List.mem_cons_of_mem e member)).keep (fun c _ => ?_) fun _ => rfl
      cases c <;> rfl
    obtain ⟨buffer', unit', others⟩ := ih later bound used
    refine ⟨buffer', unit', ?_⟩
    rw [List.flatMap_cons, GraphicsState.afterAll, List.foldl_append]
    unfold GraphicsState.afterAll at first others
    rw [first, others]

/-- A draw that finds what naive binding would leave. -/
structure Program.DrawsNaively (m : Moment) (bound : List (BindingSlot × Token)) (p : Program)
    (d : GraphicsState × Command) : Prop where
  inUse : d.1.vertexArray = some p.bindings.vertexArray ∧ d.1.program = some p.handle
  /-- The slots are those that a token is bound to, and each shows the last one. -/
  shown : ∃ indices, d.2 ∈ p.drawCommands indices ∧
    (∀ slot, slot ∈ p.bindings.queue.slots ↔ (lastAt bound slot).isSome) ∧
      ∀ slot t, lastAt bound slot = some t → t.Shown m p indices d.1 slot
  /-- Uploading and pushing everything once more would change no more than the buffer and the unit
  that the next upload goes to. -/
  renewed : ∃ buffer unit,
    d.1.afterAll (p.bindings.queue.entries.flatMap fun e => e.2.renewal m) =
      { d.1 with arrayBuffer := buffer, activeUnit := unit }

end Renewal

section Shown

variable {m : Moment} {g : GraphicsState} {indices : Option IndexBuffer} {p q : Program}
  {u : Update} {t : Token} {tokens : List Token}

/-- What an update shows is what its token gives. -/
theorem Update.Shown.token (shown : u.Shown m p.handle p.bindings.vertexArray g indices)
    (carried : u.Carries t)
    (own : ∀ c ∈ u.stores p.bindings.vertexArray, ∃ o ∈ p.owns, c.object? = some o) :
    t.Shown m p indices g u.slot := by
  cases u with
  | attributes u =>
    obtain ⟨a, kind, _, type, value⟩ := carried
    obtain ⟨pointer, buffer⟩ := shown
    simp only [Token.Shown, slot, kind]
    rw [← value, ← type]
    exact ⟨u.buffer, pointer, buffer⟩
  | elements u =>
    obtain ⟨a, kind, _, value⟩ := carried
    obtain ⟨array, buffer, type, found, drawn⟩ := shown
    simp only [Token.Shown, slot, kind]
    rw [← value]
    exact ⟨u.buffer, type, array, buffer, found, drawn⟩
  | uniform u =>
    obtain ⟨k, kind, _, value⟩ := carried
    simp only [Token.Shown, slot, kind]
    rw [← value]
    exact shown
  | sampler u =>
    obtain ⟨k, kind, options, value⟩ := carried
    obtain ⟨pushed, texture⟩ := shown
    obtain ⟨o, mine, part⟩ := own (.texture u.texture) (by simp [stores])
    obtain rfl : (⟨.texture, u.texture⟩ : Object) = o := Option.some.inj part
    simp only [Token.Shown, slot, kind]
    rw [← value, ← options]
    exact ⟨u.unit, u.texture, mine, pushed, texture⟩

theorem Update.renewal_frozen : u.frozen.renewal m = u.renewal m := by
  cases u <;> rfl

theorem Token.shown_of_frozen {slot : BindingSlot} (same : p.frozen = q.frozen)
    (shown : t.Shown m p indices g slot) : t.Shown m q indices g slot := by
  obtain ⟨handles, arrays⟩ := Program.handles_of_frozen same
  unfold Token.Shown at shown ⊢
  rw [← handles, ← arrays, ← Program.owns_of_frozen same]
  exact shown

/-- A draw that shows what the updates bring shows the tokens that were bound last. -/
theorem Program.drawsNaively {bound : List (BindingSlot × Token)}
    {d : GraphicsState × Command} (wired : q.Wired tokens)
    (serves : Serves q.bindings.queue.entries bound) (same : p.frozen = q.frozen)
    (inUse : d.1.vertexArray = some p.bindings.vertexArray ∧ d.1.program = some p.handle)
    (command : d.2 ∈ p.drawCommands p.bindings.elements)
    (shown : ∀ e ∈ p.bindings.queue.entries,
      e.2.Shown m p.handle p.bindings.vertexArray d.1 p.bindings.elements) : q.DrawsNaively m bound d := by
  obtain ⟨handles, arrays⟩ := handles_of_frozen same
  have entries := entries_of_frozen same
  have serves' : Serves p.bindings.queue.entries bound := serves.of_frozen entries
  have wired' : p.Wired tokens := wired.of_frozen same
  have commands (indices : Option IndexBuffer) : p.drawCommands indices = q.drawCommands indices := by
    have drawn := congrArg (fun p : Program => p.drawCommands indices) same
    exact drawn
  have renewals : (q.bindings.queue.entries.flatMap fun e => e.2.renewal m) =
      p.bindings.queue.entries.flatMap fun e => e.2.renewal m := by
    have all := congrArg (List.flatMap fun e : BindingSlot × Update => e.2.renewal m) entries
    simpa [List.flatMap_map, Update.renewal_frozen] using all.symm
  refine ⟨?_, ⟨p.bindings.elements, commands _ ▸ command, serves.mem_slots, ?_⟩, ?_⟩
  · rw [← handles, ← arrays]
    exact inUse
  · intro slot t last
    obtain ⟨u, there, rfl, carried⟩ := serves'.exists_of_last last
    refine Token.shown_of_frozen same ((shown _ there).token carried ?_)
    exact wired'.owned _ there
  · rw [renewals]
    exact UpdateQueue.renewed shown inUse.1 inUse.2

end Shown
end ShaderStack

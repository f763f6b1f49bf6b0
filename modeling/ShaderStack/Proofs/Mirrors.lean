import ShaderStack.Proofs.Echoes

/-! Drawing twice.

Programs that remember the same draw the same, each about its own objects: first every update, then the
queue, the program, the targets and the stack. -/
namespace ShaderStack

open World (Echo)

variable {R : Correspondence} {w w' : World RecordingDevice}

theorem AttributeUpdate.commands_twin {u : AttributeUpdate} {buffer : Handle}
    (same : R .buffer u.buffer buffer) (data : HostArray) :
    List.Forall₂ (Command.Twin R) (u.commands data) ({ u with buffer }.commands data) := by
  have takes : { u with buffer }.takes data = u.takes data := rfl
  unfold commands
  rw [takes]
  by_cases taken : u.takes data
  · rw [if_pos taken, if_pos taken]
    refine .cons (.bindBuffer (.some same)) (.cons (.plain fun _ => rfl) ?_)
    by_cases kind : data.kind = u.uploaded.kind
    · simp [kind]
    · simp only [kind, ne_eq, not_false_eq_true, if_true]
      exact .cons (.plain fun _ => rfl) .nil
  · rw [if_neg taken, if_neg taken]
    exact .nil

theorem ElementsUpdate.commands_twin {u : ElementsUpdate} {buffer : Handle}
    (same : R .buffer u.buffer buffer) (data : HostArray) :
    List.Forall₂ (Command.Twin R) (u.commands data) ({ u with buffer }.commands data) := by
  have indices : { u with buffer }.indices? data = u.indices? data := rfl
  unfold commands
  rw [indices]
  by_cases new : (u.indices? data).isSome
  · rw [if_pos new, if_pos new]
    exact .cons (.bindBuffer (.some same)) (.cons (.plain fun _ => rfl) .nil)
  · rw [if_neg new, if_neg new]
    exact .nil

theorem UniformUpdate.commands_twin (u : UniformUpdate) (value : UniformValue) :
    List.Forall₂ (Command.Twin R) (u.commands value) (u.commands value) := by
  unfold commands
  cases u.setter.push? value with
  | some push => exact .cons (.plain fun _ => rfl) .nil
  | none => exact .nil

theorem SamplerUpdate.upload_twin (u : SamplerUpdate) (data : HostArray) :
    List.Forall₂ (Command.Twin R) (u.upload data) (u.upload data) := by
  unfold upload
  split
  · exact .nil
  · cases textureLayout u.options data with
    | error e => exact .nil
    | ok layout =>
      dsimp only
      cases layout.image? with
      | some image => exact .cons (.plain fun _ => rfl) .nil
      | none => exact .nil

/-- A surface is subscribed to under its own texture, once in both runs or in neither. -/
theorem World.Twin.subscribe (twin : w.Twin R w') (redraw : RedrawKey) (id : SurfaceId)
    {subscribed subscribed' : List Handle} (sources : List.Forall₂ (R .texture) subscribed subscribed') :
    let answer := (Engine.subscribe redraw id subscribed : Engine _ _).run w
    let answer' := (Engine.subscribe redraw id subscribed' : Engine _ _).run w'
    List.Forall₂ (R .texture) answer.1 answer'.1 ∧ Echo R w w' R answer.2 answer'.2 := by
  have found := twin.textureOf? id
  unfold Engine.subscribe
  simp only [Engine.run_bind, Engine.run_get]
  generalize w.textureOf? id = source, w'.textureOf? id = source' at found
  cases found with
  | none => exact ⟨sources, Echo.refl twin⟩
  | @some a b same =>
    have member := List.rel_mem (twin.proper.biUnique (by decide)) same sources
    by_cases old : a ∈ subscribed
    · simp only [old, member.mp old, if_true]
      exact ⟨sources, Echo.refl twin⟩
    · simp only [old, mt member.mpr old, if_false]
      exact ⟨.cons same sources, twin.listen id ⟨rfl, same⟩⟩

/-- The update of a surface, with the subscription as it was answered. -/
theorem SamplerUpdate.run_subscribed {u : SamplerUpdate} {id : SurfaceId}
    (current : (w.perform (.activeTexture u.unit)).see u.value = .surface id) :
    (u.run : Engine _ SamplerUpdate).run w =
      let seated := ((w.perform (.activeTexture u.unit)).looked u.value).perform
        (.bindTexture (some ((w.textureOf? id).getD u.texture)))
      let answer := (Engine.subscribe u.redraw id u.subscribed : Engine _ _).run seated
      ({ u with subscribed := answer.1 }, answer.2.perform u.unitPush) := by
  have texture : ((w.perform (.activeTexture u.unit)).looked u.value).textureOf? id =
      w.textureOf? id := by
    cases id <;> rfl
  unfold SamplerUpdate.run
  simp only [Engine.run_bind, Engine.run_command, Engine.run_readHost, current, Engine.run_get,
    texture]
  rfl

/-- An update that has run twice. -/
structure Update.Mirrored (R : Correspondence) (w w' : World RecordingDevice)
    (ran ran' : (Update × Option IndexBuffer) × World RecordingDevice) : Prop where
  update : ran.1.1.Twin R ran'.1.1
  indices : ran'.1.2 = ran.1.2
  echo : Echo R w w' R ran.2 ran'.2

namespace Update

variable {indices : Option IndexBuffer} {u u' : Update}

theorem mirrored_sampler (twin : w.Twin R w') {u : SamplerUpdate} {texture : Handle}
    {subscribed : List Handle} (same : R .texture u.texture texture)
    (sources : List.Forall₂ (R .texture) u.subscribed subscribed) :
    Mirrored R w w' (ran (.sampler u) indices w)
      (ran (.sampler { u with texture, subscribed }) indices w') := by
  rw [ran_sampler, ran_sampler]
  have active := twin.perform (c := .activeTexture u.unit) (.plain fun _ => rfl)
  have looked := active.next fun twin => twin.looked u.value
  have seen := active.twin.see u.value
  have push {v v' : World RecordingDevice} (twin : v.Twin R v') :
      Echo R v v' R (v.perform u.unitPush) (v'.perform u.unitPush) :=
    twin.perform (.plain fun _ => rfl)
  cases current : (w.perform (.activeTexture u.unit)).see u.value with
  | pixels data =>
    have next : { u with texture, subscribed }.next data =
        { u.next data with texture, subscribed } := by
      unfold SamplerUpdate.next
      dsimp only
      split <;> rfl
    rw [SamplerUpdate.run_pixels current,
      SamplerUpdate.run_pixels (u := { u with texture, subscribed }) (seen.trans current), next]
    have old : (u.next data).texture = u.texture ∧ (u.next data).subscribed = u.subscribed := by
      unfold SamplerUpdate.next
      split <;> exact ⟨rfl, rfl⟩
    refine ⟨.sampler (old.1 ▸ same) (old.2 ▸ sources), rfl, looked.next fun twin => ?_⟩
    refine twin.performAll (.cons (.bindTexture (.some same)) ?_)
    exact List.rel_append (u.upload_twin data) (.cons (.plain fun _ => rfl) .nil)
  | surface id =>
    have bound : Option.Rel (R .texture) (some ((w.textureOf? id).getD u.texture))
        (some ((w'.textureOf? id).getD texture)) := by
      have found := twin.textureOf? id
      generalize w.textureOf? id = a, w'.textureOf? id = b at found
      cases found with
      | some known => exact .some known
      | none => exact .some same
    have seated := looked.next fun twin => twin.perform (.bindTexture bound)
    obtain ⟨sources', answered⟩ := seated.twin.subscribe u.redraw id sources
    rw [SamplerUpdate.run_subscribed current,
      SamplerUpdate.run_subscribed (u := { u with texture, subscribed }) (seen.trans current)]
    exact ⟨.sampler same sources', rfl, (seated.trans answered).next push⟩

/-- Every update does the same in both runs. -/
theorem mirrored_ran (twin : w.Twin R w') (same : u.Twin R u') (indices : Option IndexBuffer) :
    Mirrored R w w' (u.ran indices w) (u'.ran indices w') := by
  cases same with
  | @attributes u buffer same =>
    have next (data : HostArray) : { u with buffer }.next data = { u.next data with buffer } := by
      have takes : { u with buffer }.takes data = u.takes data := rfl
      unfold AttributeUpdate.next
      rw [takes]
      split <;> rfl
    have old (data : HostArray) : (u.next data).buffer = u.buffer := by
      unfold AttributeUpdate.next
      split <;> rfl
    rw [ran_attributes, ran_attributes, AttributeUpdate.run_eq, AttributeUpdate.run_eq, next, twin.see]
    refine ⟨.attributes (old _ ▸ same), rfl, (twin.looked u.value).next fun twin => ?_⟩
    exact twin.performAll (AttributeUpdate.commands_twin same _)
  | @elements u buffer same =>
    have next (data : HostArray) : { u with buffer }.next data = { u.next data with buffer } := by
      have indices : { u with buffer }.indices? data = u.indices? data := rfl
      unfold ElementsUpdate.next
      rw [indices]
      split <;> rfl
    have old (data : HostArray) : (u.next data).buffer = u.buffer := by
      unfold ElementsUpdate.next
      split <;> rfl
    rw [ran_elements, ran_elements, ElementsUpdate.run_eq, ElementsUpdate.run_eq, next, twin.see]
    refine ⟨.elements (old _ ▸ same), rfl, (twin.looked u.value).next fun twin => ?_⟩
    exact twin.performAll (ElementsUpdate.commands_twin same _)
  | @uniform u =>
    rw [ran_uniform, ran_uniform, UniformUpdate.run_eq, UniformUpdate.run_eq, twin.see]
    exact ⟨.uniform, rfl, (twin.looked u.value).next fun twin => twin.performAll (u.commands_twin _)⟩
  | sampler same sources => exact mirrored_sampler twin same sources

end Update

/-- A queue runs in order in both runs. -/
theorem UpdateQueue.mirrored_ran {entries entries' : List (BindingSlot × Update)}
    (twin : w.Twin R w') (same : List.Forall₂ (Keyed (Update.Twin R)) entries entries')
    (indices : Option IndexBuffer) :
    let after := ran entries indices w
    let after' := ran entries' indices w'
    List.Forall₂ (Keyed (Update.Twin R)) after.1.1 after'.1.1 ∧ after'.1.2 = after.1.2 ∧
      Echo R w w' R after.2 after'.2 := by
  induction same generalizing w w' indices with
  | nil => exact ⟨.nil, rfl, Echo.refl twin⟩
  | @cons e e' rest rest' head _ ih =>
    obtain ⟨_, u⟩ := e
    obtain ⟨slot, u'⟩ := e'
    obtain ⟨rfl, same⟩ := head
    obtain ⟨update, used, first⟩ := Update.mirrored_ran twin same indices
    obtain ⟨later, last, run⟩ := ih first.twin (u.ran indices w).1.2
    dsimp only
    rw [ran_cons, ran_cons, used]
    exact ⟨.cons ⟨rfl, update⟩ later, last, first.trans run⟩

theorem Bindings.mirrored_flush {b b' : Bindings} (twin : w.Twin R w') (same : b.Twin R b') :
    (b.flush.run w).1.Twin R (b'.flush.run w').1 ∧
      Echo R w w' R (b.flush.run w).2 (b'.flush.run w').2 := by
  obtain ⟨queue, elements, run⟩ := UpdateQueue.mirrored_ran twin same.queue b.elements
  rw [run_flush, run_flush, same.elements]
  exact ⟨{ same with queue, elements }, run⟩

namespace Program

variable {p p' : Program}

theorem drawCommands_twin (same : p.Twin R p') (indices : Option IndexBuffer) :
    List.Forall₂ (Command.Twin R) (p.drawCommands indices) (p'.drawCommands indices) := by
  unfold drawCommands
  rw [same.mode, same.draw]
  cases p.draw with
  | arrays first count => exact .cons (.plain fun _ => rfl) .nil
  | elements listed =>
    cases indices with
    | some used => exact .cons (.plain fun _ => rfl) .nil
    | none => exact .nil

theorem mirrored_hook (twin : w.Twin R w') (hook : Option String) :
    Echo R w w' R (w.hooked hook) (w'.hooked hook) := by
  cases hook with
  | some label => exact twin.called
  | none => exact Echo.refl twin

theorem mirrored_render (twin : w.Twin R w') (same : p.Twin R p') :
    (p.render.run w).1.Twin R (p'.render.run w').1 ∧
      Echo R w w' R (p.render.run w).2 (p'.render.run w').2 := by
  have readied : Echo R w w' R (p.readied w) (p'.readied w') :=
    (twin.perform (.useProgram (.some same.bindings.program))).next fun twin =>
      twin.perform (.bindVertexArray (.some same.bindings.vertexArray))
  obtain ⟨bindings, flushed⟩ := Bindings.mirrored_flush readied.twin same.bindings
  have drawn : (p.flushed w).Twin R (p'.flushed w') := { same with bindings }
  have before : Echo R w w' R (p.before w) (p'.before w') := by
    unfold before
    rw [same.hook]
    exact (readied.trans flushed).next fun twin => mirrored_hook twin p.hook
  rw [run_render, run_render]
  refine ⟨drawn, (before.next fun twin => twin.performAll ?_).next fun twin =>
    twin.perform (.bindVertexArray .none)⟩
  rw [drawn.bindings.elements]
  exact drawCommands_twin same _

theorem mirrored_renderAll {ps ps' : List Program} (twin : w.Twin R w')
    (same : List.Forall₂ (Program.Twin R) ps ps') :
    List.Forall₂ (Program.Twin R) ((renderAll ps).run w).1 ((renderAll ps').run w').1 ∧
      Echo R w w' R ((renderAll ps).run w).2 ((renderAll ps').run w').2 := by
  induction same generalizing w w' with
  | nil => exact ⟨.nil, Echo.refl twin⟩
  | @cons p p' ps ps' head _ ih =>
    obtain ⟨first, run⟩ := mirrored_render twin head
    obtain ⟨rest, run'⟩ := ih run.twin
    rw [renderAll_cons, renderAll_cons]
    exact ⟨.cons first rest, run.trans run'⟩

end Program

namespace RenderTexture

theorem mirrored_renderInto (twin : w.Twin R w') (key : Nat) {restore restore' : Option Handle}
    (back : Option.Rel (R .framebuffer) restore restore') (width height : UInt32) :
    Echo R w w' R ((renderInto key restore width height).run w).2
      ((renderInto key restore' width height).run w').2 := by
  rcases rel_cases (twin.texture? key) with ⟨here, there⟩ | ⟨t, t', here, there, same⟩
  · rw [run_renderInto_missing here, run_renderInto_missing there]
    exact Echo.refl twin
  · have opened : Echo R w w' R (t.opened w) (t'.opened w') := by
      unfold opened
      rw [same.width, same.height]
      exact twin.performAll (.cons (.bindFramebuffer (.some same.framebuffer))
        (.cons (.plain fun _ => rfl) (.cons (.plain fun _ => rfl) .nil)))
    obtain ⟨programs, drawn⟩ := Program.mirrored_renderAll opened.twin same.programs
    have stored : Echo R w w' R (drawnInto key t w) (drawnInto key t' w') :=
      (opened.trans drawn).next fun twin => twin.altered key fun _ _ known => { known with programs }
    have closed : Echo R w w' R (closed key restore width height (drawnInto key t w))
        (closed key restore' width height (drawnInto key t' w')) := by
      refine (stored.next fun twin => twin.performAll ?_).next fun twin => twin.altered key ?_
      · exact .cons (.bindFramebuffer back) (.cons (.plain fun _ => rfl) .nil)
      · exact fun _ _ known => { known with generation := by rw [known.generation] }
    rw [run_renderInto here, run_renderInto there]
    exact closed.next fun twin => twin.notify (twin.listeners key)

theorem mirrored_render (twin : w.Twin R w') (key : Nat) :
    Echo R w w' R ((render key).run w).2 ((render key).run w').2 := by
  rcases rel_cases (twin.texture? key) with ⟨here, there⟩ | ⟨t, t', here, there, same⟩
  · rw [run_render_missing here, run_render_missing there]
    exact Echo.refl twin
  · rw [run_render here, run_render there, same.width, same.height]
    exact mirrored_renderInto twin key .none t.width t.height

end RenderTexture
end ShaderStack

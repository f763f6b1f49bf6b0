import ShaderStack.Proofs.Rendering
import ShaderStack.Proofs.Tallies
import Mathlib.Algebra.Ring.Nat

/-! What a frame costs when nothing has to be uploaded.

An update is steady if its accessor keeps giving what the device has: the array that was uploaded last, a
value that the setter takes, or a rendered surface. Steady updates push their uniforms and do nothing else,
and they stay steady. So does a program with steady updates, and a stack of such programs: every frame of it
costs the same. -/
namespace ShaderStack

variable {w w' : World RecordingDevice} {sources : List (String × TextureSource)}

/-- A run that counts for so much, and leaves the sources of the host alone. -/
structure World.Spends (cost : CallStats) (w w' : World RecordingDevice) : Prop where
  stats : w'.device.stats = w.device.stats + cost
  sources : w'.host.sources = w.host.sources

namespace World.Spends

variable {cost cost' : CallStats} {w₁ : World RecordingDevice}

theorem silent (device : w'.device = w.device) (sources : w'.host.sources = w.host.sources) :
    w.Spends 0 w' :=
  ⟨by rw [device, add_zero], sources⟩

theorem refl (w : World RecordingDevice) : w.Spends 0 w := silent rfl rfl

theorem trans (first : w.Spends cost w₁) (second : w₁.Spends cost' w') :
    w.Spends (cost + cost') w' :=
  ⟨by rw [second.stats, first.stats, add_assoc], second.sources.trans first.sources⟩

/-- A run before which, or after which, nothing was spent. -/
theorem after (first : w.Spends 0 w₁) (second : w₁.Spends cost w') : w.Spends cost w' := by
  have sum := first.trans second
  rwa [zero_add] at sum

theorem before (first : w.Spends cost w₁) (second : w₁.Spends 0 w') : w.Spends cost w' := by
  have sum := first.trans second
  rwa [add_zero] at sum

theorem perform (c : Command) : w.Spends c.cost (w.perform c) :=
  ⟨RecordingDevice.stats_command, rfl⟩

theorem performAll (cs : List Command) : w.Spends (cs.map Command.cost).sum (w.performAll cs) := by
  induction cs generalizing w with
  | nil => exact refl w
  | cons c cs ih => exact (perform c).trans ih

theorem looked {value : Accessor α} (sources : (value.run w.host).2.sources = w.host.sources) :
    w.Spends 0 (w.looked value) := silent rfl sources

theorem listen {id : SurfaceId} {s : Subscription} : w.Spends 0 (w.listen id s) :=
  silent listen_device (congrArg Host.sources listen_host)

theorem altered {key : Nat} {change : RenderTexture → RenderTexture} :
    w.Spends 0 (w.altered key change) := by
  refine silent ?_ (congrArg Host.sources host_altered)
  unfold World.altered
  split <;> rfl

theorem notify {listeners : List Subscription} : w.Spends 0 (w.notify listeners) := by
  induction listeners generalizing w with
  | nil => exact refl w
  | cons s rest ih =>
    have asked : w.Spends 0 (w.setRequests s.redraw ((w.requests s.redraw).request s.source)) :=
      silent rfl rfl
    exact asked.after ih

end World.Spends

theorem World.see_pure {a : α} : w.see (pure a) = a := rfl

theorem Command.cost_uniform {location : Location} {push : UniformPush} :
    (Command.uniform location push).cost = { uniformPushes := 1 } := by
  cases push <;> rfl

open World (Spends Extends)

namespace Update

/-- How often an update that uploads nothing pushes a uniform. -/
def pushCount : Update → Nat
  | .attributes _ => 0
  | .elements _ => 0
  | .uniform _ => 1
  | .sampler _ => 1

/-- An update that uploads nothing as long as the sources stay the same. -/
def Steady (sources : List (String × TextureSource)) : Update → Prop
  | .attributes u => u.value = pure u.uploaded
  | .elements u => u.value = pure u.uploaded
  | .uniform u => ∀ host, (u.value.run host).2 = host ∧ (u.setter.push? (u.value.run host).1).isSome
  | .sampler u => ∀ host, host.sources = sources → ∃ id, u.value.run host = (.surface id, host)

variable {u : Update}

/-- A steady update sends its push, and is steady again. -/
structure Repeats (sources : List (String × TextureSource)) (u u' : Update) : Prop where
  steady : u'.Steady sources
  pushCount : u'.pushCount = u.pushCount

theorem Steady.ran (steady : u.Steady sources) (indices : Option IndexBuffer)
    (same : w.host.sources = sources) :
    Repeats sources u (u.ran indices w).1.1 ∧ (u.ran indices w).1.2 = indices ∧
      w.Spends { uniformPushes := u.pushCount } (u.ran indices w).2 := by
  cases u with
  | attributes u =>
    have value : u.value = pure u.uploaded := steady
    have idle : u.takes (w.see u.value) = false := by
      rw [value, World.see_pure]
      simp [AttributeUpdate.takes, HostArray.sameBuffer]
    have next : u.next (w.see u.value) = u := by simp [AttributeUpdate.next, idle]
    have none : u.commands (w.see u.value) = [] := by simp [AttributeUpdate.commands, idle]
    rw [ran_attributes, AttributeUpdate.run_eq, next, none]
    refine ⟨⟨steady, rfl⟩, rfl, Spends.looked ?_⟩
    rw [value]
    rfl
  | elements u =>
    have value : u.value = pure u.uploaded := steady
    have idle : u.indices? (w.see u.value) = none := by
      rw [value, World.see_pure]
      simp [ElementsUpdate.indices?, HostArray.sameBuffer]
    have next : u.next (w.see u.value) = u := by simp [ElementsUpdate.next, idle]
    have none : u.commands (w.see u.value) = [] := by simp [ElementsUpdate.commands, idle]
    rw [ran_elements, ElementsUpdate.run_eq, next, none, idle]
    refine ⟨⟨steady, rfl⟩, rfl, Spends.looked ?_⟩
    rw [value]
    rfl
  | uniform u =>
    obtain ⟨untouched, taken⟩ := steady w.host
    obtain ⟨push, taken⟩ := Option.isSome_iff_exists.mp taken
    have sent : u.commands (w.see u.value) = [.uniform u.location push] := by
      simp [UniformUpdate.commands, World.see, taken]
    rw [ran_uniform, UniformUpdate.run_eq, sent]
    have pushed := (Spends.looked (congrArg Host.sources untouched)).after
      (.perform (.uniform u.location push))
    rw [Command.cost_uniform] at pushed
    exact ⟨⟨steady, rfl⟩, rfl, pushed⟩
  | sampler u =>
    obtain ⟨id, gives⟩ := steady w.host same
    have current : (w.perform (.activeTexture u.unit)).see u.value = .surface id :=
      congrArg Prod.fst gives
    obtain ⟨handles, w', run, between⟩ := SamplerUpdate.run_surface current
    have looked : (w.perform (.activeTexture u.unit)).Spends 0
        ((w.perform (.activeTexture u.unit)).looked u.value) :=
      Spends.looked (congrArg (Host.sources ∘ Prod.snd) gives)
    have bound := ((Spends.perform (w := w) (.activeTexture u.unit)).trans looked).trans
      (.perform (.bindTexture (some ((w.textureOf? id).getD u.texture))))
    rw [ran_sampler, run]
    refine ⟨⟨steady, rfl⟩, rfl, ?_⟩
    rcases between with rfl | ⟨s, _, rfl⟩
    · exact bound.trans (.perform u.unitPush)
    · exact (bound.before .listen).trans (.perform u.unitPush)

end Update

namespace Program

/-- How often a program that uploads nothing pushes a uniform. -/
def pushCount (p : Program) : Nat := (p.bindings.queue.entries.map fun e => e.2.pushCount).sum

/-- What a program that uploads nothing costs: its pushes, and one draw. -/
def cost (p : Program) : CallStats := { draws := 1, uniformPushes := p.pushCount }

/-- A program that uploads nothing, and has what it draws. -/
structure Steady (sources : List (String × TextureSource)) (p : Program) : Prop where
  updates : ∀ e ∈ p.bindings.queue.entries, e.2.Steady sources
  indexed : ∀ listed, p.draw = .elements listed → p.bindings.elements.isSome

end Program

theorem UpdateQueue.ran_of_steady {entries : List (BindingSlot × Update)}
    (steady : ∀ e ∈ entries, e.2.Steady sources) (indices : Option IndexBuffer)
    (same : w.host.sources = sources) :
    let ran := UpdateQueue.ran entries indices w
    (∀ e ∈ ran.1.1, e.2.Steady sources) ∧
      (ran.1.1.map fun e => e.2.pushCount) = (entries.map fun e => e.2.pushCount) ∧ ran.1.2 = indices ∧
      w.Spends { uniformPushes := (entries.map fun e => e.2.pushCount).sum } ran.2 := by
  induction entries generalizing w with
  | nil => exact ⟨steady, rfl, rfl, Spends.refl w⟩
  | cons entry rest ih =>
    obtain ⟨slot, u⟩ := entry
    obtain ⟨first, kept, spent⟩ := (steady (slot, u) List.mem_cons_self).ran indices same
    obtain ⟨later, pushes, kept', spent'⟩ :=
      ih (fun e member => steady e (List.mem_cons_of_mem _ member)) (spent.sources.trans same)
    dsimp only
    rw [ran_cons, kept]
    refine ⟨?_, ?_, kept', ?_⟩
    · intro e member
      rcases List.mem_cons.mp member with rfl | there
      · exact first.steady
      · exact later e there
    · rw [List.map_cons, List.map_cons, pushes, first.pushCount]
    · rw [List.map_cons, List.sum_cons]
      exact spent.trans spent'

namespace Program

variable {p : Program}

/-- A steady program draws once, whatever it draws. -/
theorem Steady.draws (steady : p.Steady sources) :
    ((p.drawCommands p.bindings.elements).map Command.cost).sum = { draws := 1 } := by
  unfold drawCommands
  cases draw : p.draw with
  | arrays first count => rfl
  | elements listed =>
    obtain ⟨indices, found⟩ := Option.isSome_iff_exists.mp (steady.indexed listed draw)
    rw [found]
    rfl

theorem Steady.render (steady : p.Steady sources) (same : w.host.sources = sources) :
    (p.render.run w).1.Steady sources ∧ (p.render.run w).1.cost = p.cost ∧
      w.Spends p.cost (p.render.run w).2 := by
  have readied : w.Spends 0 (p.readied w) :=
    (Spends.perform (.useProgram (some p.handle))).after
      (.perform (.bindVertexArray (some p.bindings.vertexArray)))
  obtain ⟨updates, pushes, indices, spent⟩ :=
    UpdateQueue.ran_of_steady steady.updates p.bindings.elements (readied.sources.trans same)
  have elements : (p.flushed w).bindings.elements = p.bindings.elements := indices
  have hooked : (p.bindings.flush.run (p.readied w)).2.Spends 0 (p.before w) := by
    unfold before World.hooked
    split
    · exact .silent rfl rfl
    · exact .refl _
  rw [run_render]
  refine ⟨⟨updates, ?_⟩, ?_, ?_⟩
  · intro listed draw
    rw [elements]
    exact steady.indexed listed draw
  · exact congrArg (fun ns => { draws := 1, uniformPushes := List.sum ns : CallStats }) pushes
  · have drawn := ((readied.after spent).before hooked).trans
      (.performAll (p.drawCommands (p.flushed w).bindings.elements))
    rw [elements, steady.draws] at drawn
    rw [elements]
    have whole := drawn.before (.perform (.bindVertexArray none))
    have sum : (⟨0, 0, 0, p.pushCount, 0, 0, 0, 0⟩ : CallStats) + { draws := 1 } = p.cost := by
      ext <;> simp [cost]
    rw [← sum]
    exact whole

theorem renderAll_of_steady {ps : List Program} (steady : ∀ p ∈ ps, p.Steady sources)
    (same : w.host.sources = sources) :
    let rendered := (renderAll ps).run w
    (∀ p ∈ rendered.1, p.Steady sources) ∧ rendered.1.map cost = ps.map cost ∧
      w.Spends (ps.map cost).sum rendered.2 := by
  induction ps generalizing w with
  | nil => exact ⟨steady, rfl, Spends.refl w⟩
  | cons p ps ih =>
    obtain ⟨first, kept, spent⟩ := (steady p List.mem_cons_self).render same
    obtain ⟨later, kept', spent'⟩ :=
      ih (fun q member => steady q (List.mem_cons_of_mem _ member)) (spent.sources.trans same)
    dsimp only
    rw [renderAll_cons]
    refine ⟨?_, ?_, spent.trans spent'⟩
    · intro q member
      rcases List.mem_cons.mp member with rfl | there
      · exact first
      · exact later q there
    · rw [List.map_cons, List.map_cons, kept, kept']

end Program

namespace World

/-- A run after which the targets differ by their listeners at most. -/
abbrev LeavesTargets (w w' : World RecordingDevice) : Prop :=
  Extends (fun _ => True) RenderTexture.bare w w'

/-- A target whose programs upload nothing, with what they cost together. -/
def Holds (sources : List (String × TextureSource)) (w : World RecordingDevice) (key : Nat)
    (cost : CallStats) : Prop :=
  ∃ t, w.texture? key = some t ∧ (∀ p ∈ t.programs, p.Steady sources) ∧
    (t.programs.map Program.cost).sum = cost

variable {key : Nat} {cost : CallStats}

theorem LeavesTargets.exists_programs (run : w.LeavesTargets w') {t : RenderTexture}
    (found : w.texture? key = some t) : ∃ t', w'.texture? key = some t' ∧ t'.programs = t.programs := by
  obtain ⟨t', found', same⟩ := run.exists_texture found
  exact ⟨t', found', show t'.bare.programs = t.bare.programs by rw [same]⟩

/-- Only drawing into a target changes its programs. -/
theorem Holds.extends (holds : w.Holds sources key cost) (run : w.LeavesTargets w') :
    w'.Holds sources key cost := by
  obtain ⟨t, found, steady, sum⟩ := holds
  obtain ⟨t', found', programs⟩ := run.exists_programs found
  refine ⟨t', found', ?_, ?_⟩ <;> rw [programs] <;> assumption

/-- A change keeps the targets that it does not concern, and one whose programs stay good. -/
theorem Holds.altered {other : Nat} {change : RenderTexture → RenderTexture}
    (holds : w.Holds sources key cost)
    (good : ∀ t, key = other → w.texture? key = some t → (∀ p ∈ t.programs, p.Steady sources) →
      (t.programs.map Program.cost).sum = cost → (∀ p ∈ (change t).programs, p.Steady sources) ∧
        ((change t).programs.map Program.cost).sum = cost) :
    (w.altered other change).Holds sources key cost := by
  obtain ⟨t, found, steady, sum⟩ := holds
  unfold World.altered
  by_cases same : key = other
  · subst same
    rw [found]
    refine ⟨change t, lookup_assign_same, good t rfl found steady sum⟩
  · cases w.texture? other with
    | none => exact ⟨t, found, steady, sum⟩
    | some _ => exact ⟨t, (lookup_assign_other same).trans found, steady, sum⟩

end World

namespace RenderTexture

variable {key : Nat} {cost : CallStats}

/-- A target of steady programs is drawn for what they cost, and all targets keep their costs. -/
theorem renderInto_of_steady (holds : w.Holds sources key cost) (same : w.host.sources = sources)
    (restore : Option Handle) (width height : UInt32) :
    let w' := ((renderInto key restore width height).run w).2
    w.Spends cost w' ∧ ∀ k c, w.Holds sources k c → w'.Holds sources k c := by
  obtain ⟨t, found, steady, sum⟩ := holds
  have opened : w.Spends 0 (t.opened w) := .performAll
    [.bindFramebuffer (some t.framebuffer), .viewport 0 0 t.width t.height, .clear .opaqueBlack .one]
  obtain ⟨drawn, kept, spent⟩ := Program.renderAll_of_steady steady (opened.sources.trans same)
  rw [sum] at spent
  rw [run_renderInto found]
  constructor
  · have returned : w.Spends cost (drawnInto key t w) := (opened.after spent).before .altered
    have closed : (drawnInto key t w).Spends 0 (closed key restore width height (drawnInto key t w)) :=
      Spends.before (.performAll [.bindFramebuffer restore, .viewport 0 0 width height]) .altered
    exact (returned.before closed).before .notify
  · intro k c there
    have drawing : w.LeavesTargets ((Program.renderAll t.programs).run (t.opened w)).2 :=
      extends_drawn.mono fun _ _ => trivial
    have returned : (drawnInto key t w).Holds sources k c := by
      refine (there.extends drawing).altered ?_
      rintro t' rfl found' _ sum'
      obtain ⟨t₁, found₁, programs⟩ := drawing.exists_programs found
      rw [found'] at found₁
      obtain rfl := Option.some.inj found₁
      refine ⟨drawn, ?_⟩
      change (((Program.renderAll t.programs).run (t.opened w)).1.map Program.cost).sum = c
      rw [kept, ← programs, sum']
    have closed : (closed key restore width height (drawnInto key t w)).Holds sources k c :=
      (returned.extends (.performAll fun _ _ => trivial)).altered
        fun _ _ _ steady sum => ⟨steady, sum⟩
    exact closed.extends .notify

end RenderTexture

namespace Stack

variable {s : Stack} {costs : List CallStats}

/-- A stack that uploads nothing, with what its layers cost. -/
structure Steady (sources : List (String × TextureSource)) (s : Stack) (w : World RecordingDevice)
    (costs : List CallStats) : Prop where
  programs : ∀ p ∈ s.programs, p.Steady sources
  layers : List.Forall₂ (w.Holds sources) s.layers costs
  sources : w.host.sources = sources

/-- What a frame of such a stack costs. -/
def frameCost (s : Stack) (costs : List CallStats) : CallStats :=
  costs.sum + (s.programs.map Program.cost).sum

theorem layered_of_steady {layers : List Nat} (holds : List.Forall₂ (w.Holds sources) layers costs)
    (same : w.host.sources = sources) (framebuffer : Option Handle) (width height : UInt32) :
    let w' := layered framebuffer width height layers w
    w.Spends costs.sum w' ∧ ∀ k c, w.Holds sources k c → w'.Holds sources k c := by
  induction layers generalizing w costs with
  | nil =>
    cases holds
    exact ⟨Spends.refl w, fun _ _ => id⟩
  | cons key rest ih =>
    obtain _ | ⟨first, later⟩ := holds
    obtain ⟨spent, kept⟩ := RenderTexture.renderInto_of_steady first same framebuffer width height
    obtain ⟨spent', kept'⟩ := ih (later.imp fun k c => kept k c) (spent.sources.trans same)
    refine ⟨?_, fun k c there => kept' k c (kept k c there)⟩
    rw [List.sum_cons]
    exact spent.trans spent'

/-- A frame costs what the programs and the layers cost, and the next one costs the same. -/
theorem Steady.render (steady : s.Steady sources w costs) :
    let frame := (s.render : Engine RecordingDevice Stack).run w
    frame.1.Steady sources frame.2 costs ∧ frame.1.frameCost costs = s.frameCost costs ∧
      w.Spends (s.frameCost costs) frame.2 := by
  dsimp only
  rw [Stack.render, run_renderTo]
  obtain ⟨spent, kept⟩ := layered_of_steady steady.layers steady.sources none s.width s.height
  obtain ⟨drawn, costs_eq, spent'⟩ := Program.renderAll_of_steady steady.programs
    (spent.sources.trans steady.sources)
  have whole : w.Spends (s.frameCost costs) (s.answered _) :=
    (spent.trans spent').before (.silent rfl rfl)
  refine ⟨⟨drawn, ?_, whole.sources.trans steady.sources⟩, ?_, whole⟩
  · refine steady.layers.imp fun k c there => ?_
    refine World.Holds.extends ?_ .setRequests
    exact (kept k c there).extends (Program.extends_renderAll.mono fun _ _ => trivial)
  · exact congrArg (fun drawn => costs.sum + List.sum drawn) costs_eq

end Stack
end ShaderStack

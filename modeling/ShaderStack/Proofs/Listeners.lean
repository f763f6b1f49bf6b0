import ShaderStack.Proofs.Allocation

/-! Who hears of new content.

A stack's requests come from the listeners of surfaces. A render texture's listeners hear of it under
its own texture, and between two calls of listeners the requests stay what they were. -/
namespace ShaderStack

variable {δ : Type}

namespace World

/-- Every listener of a render texture hears of it under the target's own texture. -/
def Attuned (w : World δ) : Prop := ∀ e ∈ w.textures, ∀ s ∈ e.2.listeners, s.source = e.2.texture

/-- No listener was called on the way, and those that were added are attuned. -/
structure Hushed (w w' : World δ) : Prop where
  redraws : w'.redraws = w.redraws
  attuned : w.Attuned → w'.Attuned

namespace Hushed

variable {w w₁ w₂ : World δ}

/-- No target is new. -/
theorem silent (redraws : w₁.redraws = w.redraws) (textures : ∀ e ∈ w₁.textures, e ∈ w.textures) :
    Hushed w w₁ := ⟨redraws, fun attuned e member => attuned e (textures e member)⟩

theorem refl (w : World δ) : Hushed w w := silent rfl fun _ => id

theorem trans (first : Hushed w w₁) (second : Hushed w₁ w₂) : Hushed w w₂ :=
  ⟨second.redraws.trans first.redraws, fun attuned => second.attuned (first.attuned attuned)⟩

theorem emit {act : δ → δ} {event : Event} : Hushed w (w.emit act event) := silent rfl fun _ => id

theorem looked {value : Accessor α} : Hushed w (w.looked value) := silent rfl fun _ => id

/-- Runs one after another. -/
theorem foldl {step : World δ → β → World δ} {xs : List β} (each : ∀ w x, Hushed w (step w x)) :
    Hushed w (xs.foldl step w) := by
  induction xs generalizing w with
  | nil => exact refl w
  | cons x xs ih => exact (each w x).trans ih

theorem performAll [GraphicsDevice δ] {cs : List Command} : Hushed w (w.performAll cs) :=
  foldl fun _ _ => emit

theorem setTexture {key : Nat} {t : RenderTexture}
    (attuned : w.Attuned → ∀ s ∈ t.listeners, s.source = t.texture) :
    Hushed w (w.setTexture key t) := by
  refine ⟨rfl, ?_⟩
  intro before e member
  rcases eq_or_mem_of_mem_assign member with rfl | old
  · exact attuned before
  · exact before e old

/-- A target changes, but neither its texture nor who listens. -/
theorem altered {key : Nat} {change : RenderTexture → RenderTexture}
    (texture : ∀ t, (change t).texture = t.texture)
    (listeners : ∀ t, (change t).listeners = t.listeners) : Hushed w (w.altered key change) := by
  unfold World.altered
  cases present : w.texture? key with
  | none => exact refl w
  | some t =>
    refine setTexture fun attuned => ?_
    rw [texture, listeners]
    exact attuned _ (mem_of_lookup present)

theorem listen {id : SurfaceId} {s : Subscription} (source : w.textureOf? id = some s.source) :
    Hushed w (w.listen id s) := by
  cases id with
  | external name => exact silent rfl fun _ => id
  | renderTexture key =>
    obtain ⟨t, present, own⟩ := Option.map_eq_some_iff.mp source
    rw [World.listen_present present]
    refine setTexture fun attuned => ?_
    intro s' member
    rcases List.mem_append.mp member with old | new
    · exact attuned _ (mem_of_lookup present) s' old
    · rw [List.mem_singleton.mp new]
      exact own.symm

end Hushed
end World

open World (Hushed Attuned)

variable [GraphicsDevice δ] {w : World δ}

/-! ### Drawing -/

theorem SamplerUpdate.hushed_run {u : SamplerUpdate} : Hushed w (u.run.run w).2 := by
  have start : Hushed w ((w.perform (.activeTexture u.unit)).looked u.value) :=
    Hushed.emit.trans Hushed.looked
  cases current : (w.perform (.activeTexture u.unit)).see u.value with
  | pixels data =>
    rw [run_pixels current]
    exact start.trans Hushed.performAll
  | surface id =>
    obtain ⟨handles, w', run, between⟩ := run_surface current
    rw [run]
    have bound : Hushed w w' := by
      rcases between with rfl | ⟨s, source, rfl⟩
      · exact start.trans Hushed.emit
      · refine (start.trans Hushed.emit).trans (Hushed.listen ?_)
        -- neither the unit nor the accessor changes what a surface shows
        cases id <;> exact source
    exact bound.trans Hushed.emit

theorem Update.hushed_ran {u : Update} {indices : Option IndexBuffer} :
    Hushed w (u.ran indices w).2 := by
  cases u with
  | attributes u =>
    rw [ran_attributes, AttributeUpdate.run_eq]
    exact Hushed.looked.trans Hushed.performAll
  | elements u =>
    rw [ran_elements, ElementsUpdate.run_eq]
    exact Hushed.looked.trans Hushed.performAll
  | uniform u =>
    rw [ran_uniform, UniformUpdate.run_eq]
    exact Hushed.looked.trans Hushed.performAll
  | sampler u => exact SamplerUpdate.hushed_run

theorem UpdateQueue.hushed_ran {entries : List (BindingSlot × Update)}
    {indices : Option IndexBuffer} : Hushed w (UpdateQueue.ran entries indices w).2 := by
  induction entries generalizing indices w with
  | nil => exact Hushed.refl w
  | cons entry rest ih =>
    rw [ran_cons]
    exact Update.hushed_ran.trans ih

namespace Program

theorem hushed_render {p : Program} : Hushed w (p.render.run w).2 := by
  have readied : Hushed w (p.readied w) := Hushed.emit.trans Hushed.emit
  have updates : Hushed (p.readied w) (p.bindings.flush.run (p.readied w)).2 := by
    rw [Bindings.run_flush]
    exact UpdateQueue.hushed_ran
  have before : Hushed w (p.before w) := by
    refine (readied.trans updates).trans ?_
    unfold before World.hooked
    split
    · exact Hushed.emit
    · exact Hushed.refl _
  rw [run_render]
  exact (before.trans Hushed.performAll).trans Hushed.emit

theorem hushed_renderAll {ps : List Program} : Hushed w ((renderAll ps).run w).2 := by
  induction ps generalizing w with
  | nil => exact Hushed.refl w
  | cons p ps ih =>
    rw [renderAll_cons]
    exact hushed_render.trans ih

theorem hushed_drop {p : Program} : Hushed w (p.drop.run w).2 := by
  have released : Hushed w (p.bindings.release.run w).2 := by
    unfold Bindings.release
    simp only [Engine.run_bind, Engine.run_commands, Engine.run_command]
    exact Hushed.performAll.trans Hushed.emit
  unfold drop
  simp only [Engine.run_bind]
  by_cases owned : p.owned
  · rw [if_pos owned]
    exact released.trans Hushed.emit
  · rw [if_neg owned]
    exact released

theorem hushed_dropAll {ps : List Program} : Hushed w ((dropAll ps).run w).2 := by
  unfold dropAll
  rw [Engine.run_forM]
  exact Hushed.foldl fun _ _ => hushed_drop

end Program

namespace RenderTexture

/-- Up to the call of its listeners, a target's render is hushed. -/
theorem hushed_closed {key : Nat} {t : RenderTexture} {restore : Option Handle}
    {width height : UInt32} :
    Hushed w (closed key restore width height (drawnInto key t w)) := by
  have opened : Hushed w (t.opened w) := Hushed.performAll
  have drawn : Hushed w (drawnInto key t w) :=
    (opened.trans Program.hushed_renderAll).trans (Hushed.altered (fun _ => rfl) fun _ => rfl)
  exact (drawn.trans Hushed.performAll).trans (Hushed.altered (fun _ => rfl) fun _ => rfl)

/-! ### Making and deleting -/

theorem hushed_make {width height : UInt32} :
    (make width height).Ends w (fun _ => Hushed w) fun _ => Hushed w := by
  rw [ends_make]
  split
  · exact Hushed.refl w
  · refine ⟨?_, fun e _ => Hushed.emit⟩
    intro texture _
    have stored : Hushed w ((w.allocated .texture).performAll (storage texture width height)) :=
      Hushed.emit.trans Hushed.performAll
    refine ⟨?_, fun e _ => (stored.trans Hushed.emit).trans Hushed.emit⟩
    intro framebuffer _
    have attached : Hushed w (World.probed .framebufferComplete
        ((World.allocated .framebuffer ((w.allocated .texture).performAll
          (storage texture width height))).performAll
            [.bindFramebuffer (some framebuffer), .framebufferTexture texture])) :=
      ((stored.trans Hushed.emit).trans Hushed.performAll).trans Hushed.emit
    dsimp only
    split
    · exact (attached.trans Hushed.emit).trans Hushed.performAll
    · refine Hushed.trans ?_ (Hushed.setTexture fun _ => by simp)
      exact ⟨attached.redraws, attached.attuned⟩

theorem hushed_release {key : Nat} : Hushed w ((release key).run w).2 := by
  cases present : w.texture? key with
  | none =>
    have same : ((release key).run w).2 = w := by
      unfold release
      simp only [Engine.run_bind, Engine.run_get, present]
      rfl
    rw [same]
    exact Hushed.refl w
  | some t =>
    rw [run_release present]
    split
    · exact Hushed.altered (fun _ => rfl) fun _ => rfl
    · have removed : Hushed w { w with textures := w.textures.filter (·.1 ≠ key) } :=
        Hushed.silent rfl fun e member => (List.mem_filter.mp member).1
      exact (removed.trans Program.hushed_dropAll).trans Hushed.performAll

end RenderTexture

namespace ProgramCache

theorem hushed_path {b b' : Bindings} {w' : World δ} (path : Binder.Path (b, w) (b', w')) :
    Hushed w w' := by
  have walk (q : Bindings × World δ) (path : Binder.Path (b, w) q) : Hushed w q.2 := by
    induction path with
    | refl => exact Hushed.refl w
    | tail _ step ih =>
      refine ih.trans ?_
      cases step with
      | note _ _ _ => exact Hushed.refl _
      | lookup l =>
        dsimp only
        exact Hushed.emit
      | look value => exact Hushed.looked
      | listen id s source => exact Hushed.listen source
      | refused _ _ =>
        dsimp only
        exact Hushed.emit
      | buffer _ target data pointers => exact Hushed.emit.trans Hushed.performAll
      | texture _ unit parameters => exact Hushed.emit.trans Hushed.performAll
  exact walk (b', w') path

theorem hushed_bind (handle : Handle) (owned : Bool) (redraw : RedrawKey)
    (vertex fragment : CompiledShader) (config : ProgramConfig) :
    (bind handle owned redraw vertex fragment config).Ends w (fun _ => Hushed w) fun _ => Hushed w := by
  rw [ends_bind]
  refine ⟨?_, ?_⟩
  · intro vertexArray _
    refine (Binder.follows_bindAll _ _ _ .refl).imp ?_ ?_
    · exact fun _ b w' path => Hushed.emit.trans (hushed_path path)
    · exact fun _ b w' path => (Hushed.emit.trans (hushed_path path)).trans Program.hushed_drop
  · intro e _
    split
    · exact Hushed.emit.trans Hushed.emit
    · exact Hushed.emit

theorem hushed_compile {cache : ProgramCache} {redraw : RedrawKey} {vertex fragment : CompiledShader}
    {config : ProgramConfig} :
    Hushed w ((cache.compile redraw vertex fragment config).run w).2 := by
  refine world_of_compile _ (fun _ _ => Hushed.refl w) Hushed.emit fun handle owned w' start => ?_
  have linked : Hushed w w' := by
    rcases start with rfl | rfl
    · exact Hushed.refl _
    · exact Hushed.emit
  exact (hushed_bind handle owned redraw vertex fragment config).imp (fun _ _ => linked.trans)
    fun _ _ => linked.trans

end ProgramCache

namespace Stack

theorem hushed_make {supported : Bool} {width height : UInt32} {options : StackOptions} :
    (make supported width height options).Ends w (fun _ => Hushed w) fun _ => Hushed w := by
  rw [ends_make]
  split
  · exact Hushed.refl w
  · have sized : Hushed w (World.perform (.viewport 0 0 width height)
        ((extensions options).foldl (fun w name => w.probed (.enableExtension name)) w)) :=
      (Hushed.foldl fun _ _ => Hushed.emit).trans Hushed.emit
    exact ⟨sized.redraws, sized.attuned⟩

theorem hushed_resize {s : Stack} {width height : UInt32} :
    Hushed w ((s.resize width height).run w).2 := by
  rw [run_resize]
  split
  · exact Hushed.refl w
  · exact Hushed.emit.trans (Hushed.foldl fun _ _ => Hushed.emit)

theorem hushed_drop {s : Stack} : Hushed w (s.drop.run w).2 := by
  rw [run_drop]
  refine (Hushed.trans ?_ (Hushed.foldl fun _ _ => Hushed.performAll)).trans Hushed.performAll
  exact Program.hushed_dropAll.trans (Hushed.foldl fun _ _ => RenderTexture.hushed_release)

theorem hushed_bindTarget (s : Stack) (c : ReadConfig) (width height : UInt32) :
    (bindTarget c width height s).Ends w (fun _ => Hushed w) fun _ => Hushed w := by
  rw [ends_bindTarget]
  split
  · exact Hushed.emit
  · rw [ends_makeTarget]
    refine ⟨?_, fun e _ => Hushed.emit⟩
    intro renderbuffer _
    have stored : Hushed w ((w.allocated .renderbuffer).perform
        (.renderbufferStorage renderbuffer c.internalFormat width height)) :=
      Hushed.emit.trans Hushed.emit
    refine ⟨?_, fun e _ => (stored.trans Hushed.emit).trans Hushed.emit⟩
    intro framebuffer _
    have attached : Hushed w (World.probed .framebufferComplete
        ((World.allocated .framebuffer ((w.allocated .renderbuffer).perform
          (.renderbufferStorage renderbuffer c.internalFormat width height))).performAll
            [.bindFramebuffer (some framebuffer), .framebufferRenderbuffer renderbuffer])) :=
      ((stored.trans Hushed.emit).trans Hushed.performAll).trans Hushed.emit
    dsimp only
    split
    · exact attached.trans Hushed.performAll
    · exact attached

end Stack
end ShaderStack

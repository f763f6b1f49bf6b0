import ShaderStack.Proofs.Updates

/-! Drawing programs, render textures and stacks, up to the commands of the updates.

Each equation names the worlds between the steps; the lemmas beside it say what the whole run
leaves alone. -/
namespace ShaderStack

open World (Extends)

variable {δ : Type} [GraphicsDevice δ] {w : World δ} {view : RenderTexture → RenderTexture}

theorem AttributeUpdate.extends_run {u : AttributeUpdate} :
    Extends (·.isUpdate) view w (u.run.run w).2 := by
  rw [run_eq]
  refine Extends.looked.trans (Extends.performAll ?_)
  intro c member
  unfold commands at member
  split at member
  · split at member <;> simp at member <;> rcases member with rfl | rfl | rfl <;> rfl
  · simp at member

theorem ElementsUpdate.extends_run {u : ElementsUpdate} :
    Extends (·.isUpdate) view w (u.run.run w).2 := by
  rw [run_eq]
  refine Extends.looked.trans (Extends.performAll ?_)
  intro c member
  unfold commands at member
  split at member
  · simp at member
    rcases member with rfl | rfl <;> rfl
  · simp at member

theorem UniformUpdate.extends_run {u : UniformUpdate} :
    Extends (·.isUpdate) view w (u.run.run w).2 := by
  rw [run_eq]
  refine Extends.looked.trans (Extends.performAll ?_)
  intro c member
  simp only [commands, Option.mem_toList, Option.map_eq_some_iff] at member
  obtain ⟨push, _, rfl⟩ := member
  rfl

theorem SamplerUpdate.isUpdate_upload {u : SamplerUpdate} {data : HostArray} {c : Command}
    (member : c ∈ u.upload data) : c.isUpdate := by
  unfold upload at member
  split at member
  · simp at member
  · split at member
    · simp at member
    · simp only [Option.mem_toList, Option.map_eq_some_iff] at member
      obtain ⟨image, _, rfl⟩ := member
      rfl

theorem SamplerUpdate.extends_run {u : SamplerUpdate} :
    Extends (·.isUpdate) RenderTexture.bare w (u.run.run w).2 := by
  have start : Extends (·.isUpdate) RenderTexture.bare w
      ((w.perform (.activeTexture u.unit)).looked u.value) :=
    (Extends.emit (by rfl)).trans Extends.looked
  cases current : (w.perform (.activeTexture u.unit)).see u.value with
  | pixels data =>
    rw [run_pixels current]
    refine start.trans (Extends.performAll ?_)
    intro c member
    rcases List.mem_cons.mp member with rfl | member
    · rfl
    · rcases List.mem_append.mp member with upload | push
      · exact isUpdate_upload upload
      · rw [List.mem_singleton.mp push]
        rfl
  | surface id =>
    obtain ⟨handles, w', run, between⟩ := run_surface current
    rw [run]
    have bound : Extends (·.isUpdate) RenderTexture.bare w w' := by
      rcases between with rfl | ⟨s, _, rfl⟩
      · exact start.trans (Extends.emit (by rfl))
      · exact (start.trans (Extends.emit (by rfl))).trans Extends.listen
    exact bound.trans (Extends.emit (by rfl))

theorem Update.extends_ran {u : Update} {indices : Option IndexBuffer} :
    Extends (·.isUpdate) RenderTexture.bare w (u.ran indices w).2 := by
  cases u with
  | attributes u => exact AttributeUpdate.extends_run
  | elements u =>
    rw [ran_elements]
    exact ElementsUpdate.extends_run
  | uniform u => exact UniformUpdate.extends_run
  | sampler u => exact SamplerUpdate.extends_run

theorem UpdateQueue.extends_ran {entries : List (BindingSlot × Update)}
    {indices : Option IndexBuffer} :
    Extends (·.isUpdate) RenderTexture.bare w (UpdateQueue.ran entries indices w).2 := by
  induction entries generalizing indices w with
  | nil => exact Extends.refl w
  | cons entry rest ih =>
    rw [ran_cons]
    exact Update.extends_ran.trans ih

namespace World

/-- The hook of a program, if it has one. -/
def hooked : Option String → World δ → World δ
  | some label, w => w.called (.programHook label)
  | none, w => w

end World

namespace Program

/-- The draw call; without indices an indexed draw is none. -/
def drawCommands (p : Program) (indices : Option IndexBuffer) : List Command :=
  match p.draw, indices with
  | .arrays first count, _ => [.drawArrays p.mode first count]
  | .elements _, some indices => [.drawElements p.mode (Int32.ofNat indices.count) indices.type]
  | .elements _, none => []

/-- The program and its vertex array are in use when the updates start. -/
def readied (p : Program) (w : World δ) : World δ :=
  (w.perform (.useProgram (some p.handle))).perform (.bindVertexArray (some p.bindings.vertexArray))

/-- The program after its updates. -/
def flushed (p : Program) (w : World δ) : Program :=
  { p with bindings := (p.bindings.flush.run (p.readied w)).1 }

/-- The world in which the program draws. -/
def before (p : Program) (w : World δ) : World δ :=
  (p.bindings.flush.run (p.readied w)).2.hooked p.hook

theorem run_render {p : Program} :
    p.render.run w = (p.flushed w,
      ((p.before w).performAll (p.drawCommands (p.flushed w).bindings.elements)).perform
        (.bindVertexArray none)) := by
  unfold render flushed before drawCommands readied
  simp only [Engine.run_bind, Engine.run_command]
  generalize StateT.run (p.bindings.flush : Engine δ Bindings) _ = updated
  obtain ⟨bindings, w'⟩ := updated
  cases p.hook <;> cases p.draw <;> cases bindings.elements <;> rfl

theorem shell_flushed {p : Program} : (p.flushed w).shell = p.shell := rfl

theorem extends_before {p : Program} :
    Extends (fun e => e.isFrame ∧ e.isQuiet) RenderTexture.bare w (p.before w) := by
  have readied : Extends (fun e => e.isFrame ∧ e.isQuiet) RenderTexture.bare w (p.readied w) :=
    (Extends.emit ⟨rfl, rfl⟩).trans (Extends.emit ⟨rfl, rfl⟩)
  have updates : Extends (fun e => e.isFrame ∧ e.isQuiet) RenderTexture.bare (p.readied w)
      (p.bindings.flush.run (p.readied w)).2 := by
    rw [Bindings.run_flush]
    exact UpdateQueue.extends_ran.mono fun _ update =>
      ⟨Event.isFrame_of_isUpdate update, Event.isQuiet_of_isUpdate update⟩
  refine (readied.trans updates).trans ?_
  unfold before World.hooked
  split
  · exact Extends.emit ⟨rfl, rfl⟩
  · exact Extends.refl _

theorem extends_render {p : Program} :
    Extends (·.isFrame) RenderTexture.bare w (p.render.run w).2 := by
  rw [run_render]
  have before : Extends (·.isFrame) RenderTexture.bare w (p.before w) :=
    extends_before.mono fun _ fits => fits.1
  refine (before.trans (Extends.performAll ?_)).trans (Extends.emit (by rfl))
  intro c member
  unfold drawCommands at member
  split at member <;> simp at member <;> subst member <;> rfl

theorem renderAll_cons {p : Program} {ps : List Program} :
    (renderAll (p :: ps) : Engine δ (List Program)).run w =
      ((p.render.run w).1 :: ((renderAll ps).run (p.render.run w).2).1,
        ((renderAll ps).run (p.render.run w).2).2) := by
  unfold renderAll
  rw [List.mapM_cons]
  rfl

theorem shell_renderAll {ps : List Program} :
    ((renderAll ps).run w).1.map shell = ps.map shell := by
  induction ps generalizing w with
  | nil => rfl
  | cons p ps ih =>
    rw [renderAll_cons, List.map_cons, List.map_cons, ih, run_render, shell_flushed]

theorem extends_renderAll {ps : List Program} :
    Extends (·.isFrame) RenderTexture.bare w ((renderAll ps).run w).2 := by
  induction ps generalizing w with
  | nil => exact Extends.refl w
  | cons p ps ih =>
    rw [renderAll_cons]
    exact extends_render.trans ih

end Program

namespace World

/-- A change to a target, if it is there. -/
def altered (key : Nat) (change : RenderTexture → RenderTexture) (w : World δ) : World δ :=
  match w.texture? key with
  | some t => w.setTexture key (change t)
  | none => w

omit [GraphicsDevice δ] in
theorem events_altered {key : Nat} {change : RenderTexture → RenderTexture} :
    (w.altered key change).events = w.events := by
  unfold altered
  split <;> rfl

omit [GraphicsDevice δ] in
theorem host_altered {key : Nat} {change : RenderTexture → RenderTexture} :
    (w.altered key change).host = w.host := by
  unfold altered
  split <;> rfl

omit [GraphicsDevice δ] in
theorem Extends.altered {allowed : Event → Prop} {key : Nat}
    {change : RenderTexture → RenderTexture}
    (hidden : ∀ t, w.texture? key = some t → view (change t) = view t) :
    Extends allowed view w (w.altered key change) := by
  unfold World.altered
  cases present : w.texture? key with
  | none => exact Extends.refl w
  | some t => exact Extends.setTexture present (hidden t present)

end World

namespace RenderTexture

omit [GraphicsDevice δ] in
theorem run_update {key : Nat} {change : RenderTexture → RenderTexture} :
    (update key change : Engine δ Unit).run w = ((), w.altered key change) := rfl

/-- The target is bound, sized and cleared. -/
def opened (t : RenderTexture) (w : World δ) : World δ :=
  w.performAll
    [.bindFramebuffer (some t.framebuffer), .viewport 0 0 t.width t.height,
      .clear .opaqueBlack .one]

/-- The target's programs have drawn, and the target holds them again. -/
def drawnInto (key : Nat) (t : RenderTexture) (w : World δ) : World δ :=
  let drawn := (Program.renderAll t.programs).run (t.opened w)
  drawn.2.altered key fun t => { t with programs := drawn.1 }

/-- Back on `restore`, with the render counted. -/
def closed (key : Nat) (restore : Option Handle) (width height : UInt32) (w : World δ) : World δ :=
  (w.performAll [.bindFramebuffer restore, .viewport 0 0 width height]).altered key
    fun t => { t with generation := t.generation + 1 }

theorem run_renderInto {key : Nat} {restore : Option Handle} {width height : UInt32}
    {t : RenderTexture} (present : w.texture? key = some t) :
    (renderInto key restore width height).run w =
      ((), let w' := closed key restore width height (drawnInto key t w)
        w'.notify (((w'.texture? key).map RenderTexture.listeners).getD [])) := by
  unfold renderInto
  simp only [Engine.run_bind, Engine.run_get, present]
  simp only [Engine.run_commands, run_update]
  rfl

theorem run_renderInto_missing {key : Nat} {restore : Option Handle} {width height : UInt32}
    (missing : w.texture? key = none) :
    (renderInto key restore width height : Engine δ Unit).run w = ((), w) := by
  unfold renderInto
  simp only [Engine.run_bind, Engine.run_get, missing]
  rfl

theorem extends_opened {t : RenderTexture} : Extends (·.isFrame) view w (t.opened w) := by
  refine Extends.performAll ?_
  simp [Event.isFrame, Command.isFrame]

theorem extends_drawn {t : RenderTexture} :
    Extends (·.isFrame) bare w ((Program.renderAll t.programs).run (t.opened w)).2 :=
  extends_opened.trans Program.extends_renderAll

/-- The programs that come back are the programs that were taken, up to their updates. -/
theorem extends_returned {key : Nat} {t : RenderTexture} (present : w.texture? key = some t) :
    Extends (·.isFrame) shell ((Program.renderAll t.programs).run (t.opened w)).2
      (drawnInto key t w) := by
  refine Extends.altered ?_
  intro t' present'
  obtain ⟨found, present'', same⟩ := extends_drawn.exists_texture present
  rw [present'] at present''
  obtain rfl := Option.some.inj present''
  have programs : t'.bare.programs = t.bare.programs := by rw [same]
  change t'.programs = t.programs at programs
  simp only [shell, Program.shell_renderAll, programs]

theorem extends_drawnInto {key : Nat} {t : RenderTexture} (present : w.texture? key = some t) :
    Extends (·.isFrame) shell w (drawnInto key t w) :=
  extends_drawn.coarsen.trans (extends_returned present)

theorem extends_closed {key : Nat} {restore : Option Handle} {width height : UInt32} :
    Extends (·.isFrame) shell w (closed key restore width height w) := by
  refine (Extends.performAll ?_).trans (Extends.altered fun _ _ => rfl)
  simp [Event.isFrame, Command.isFrame]

theorem extends_renderInto {key : Nat} {restore : Option Handle} {width height : UInt32} :
    Extends (·.isFrame) shell w ((renderInto key restore width height).run w).2 := by
  cases present : w.texture? key with
  | none =>
    rw [run_renderInto_missing present]
    exact Extends.refl w
  | some t =>
    rw [run_renderInto present]
    exact ((extends_drawnInto present).trans extends_closed).trans Extends.notify

theorem run_render {key : Nat} {t : RenderTexture} (present : w.texture? key = some t) :
    (render key).run w = (renderInto key none t.width t.height).run w := by
  unfold render
  simp only [Engine.run_bind, Engine.run_get, present]

theorem run_render_missing {key : Nat} (missing : w.texture? key = none) :
    (render key : Engine δ Unit).run w = ((), w) := by
  unfold render
  simp only [Engine.run_bind, Engine.run_get, missing]
  rfl

theorem extends_render {key : Nat} : Extends (·.isFrame) shell w ((render key).run w).2 := by
  cases present : w.texture? key with
  | none =>
    rw [run_render_missing present]
    exact Extends.refl w
  | some t =>
    rw [run_render present]
    exact extends_renderInto

end RenderTexture

namespace Stack

/-- A framebuffer and its viewport are set up, unless the frame goes to the default one. -/
def targeted (framebuffer : Option Handle) (width height : UInt32) (w : World δ) : World δ :=
  if framebuffer.isSome then w.performAll [.bindFramebuffer framebuffer, .viewport 0 0 width height]
  else w

/-- The layers have drawn, each going back to the frame's target. -/
def layered (framebuffer : Option Handle) (width height : UInt32) (layers : List Nat)
    (w : World δ) : World δ :=
  layers.foldl
    (fun w key => ((RenderTexture.renderInto key framebuffer width height).run w).2) w

/-- The frame answers the requests of the layers that it drew. -/
def answered (s : Stack) (w : World δ) : World δ :=
  w.setRequests s.redraw ((w.requests s.redraw).discard
    (s.layers.filterMap fun key => w.textureOf? (.renderTexture key)))

theorem run_renderTo {s : Stack} {framebuffer : Option Handle} {width height : UInt32} :
    (s.renderTo framebuffer width height).run w =
      let drawn := (Program.renderAll s.programs).run
        (layered framebuffer width height s.layers (targeted framebuffer width height w))
      ({ s with programs := drawn.1 }, s.answered drawn.2) := by
  unfold renderTo targeted layered
  cases framebuffer with
  | none =>
    simp only [Engine.run_bind, Engine.run_forM, Option.isSome_none, Bool.false_eq_true, if_false]
    rfl
  | some handle =>
    simp only [Engine.run_bind, Engine.run_forM, Option.isSome_some, if_true, Engine.run_commands]
    rfl

theorem extends_targeted {framebuffer : Option Handle} {width height : UInt32} :
    Extends (·.isFrame) view w (targeted framebuffer width height w) := by
  unfold targeted
  split
  · refine Extends.performAll ?_
    simp [Event.isFrame, Command.isFrame]
  · exact Extends.refl w

theorem extends_layered {framebuffer : Option Handle} {width height : UInt32} {layers : List Nat} :
    Extends (·.isFrame) RenderTexture.shell w (layered framebuffer width height layers w) := by
  induction layers generalizing w with
  | nil => exact Extends.refl w
  | cons key rest ih => exact RenderTexture.extends_renderInto.trans ih

theorem extends_renderTo {s : Stack} {framebuffer : Option Handle} {width height : UInt32} :
    Extends (·.isFrame) RenderTexture.shell w ((s.renderTo framebuffer width height).run w).2 := by
  rw [run_renderTo]
  exact ((extends_targeted.trans extends_layered).trans
    Program.extends_renderAll.coarsen).trans Extends.setRequests

/-- A frame changes nothing of a stack but what its programs' updates remember. -/
theorem renderTo_eq (s : Stack) (framebuffer : Option Handle) (width height : UInt32)
    (w : World δ) :
    ∃ programs, ((s.renderTo framebuffer width height).run w).1 = { s with programs } ∧
      programs.map Program.shell = s.programs.map Program.shell := by
  rw [run_renderTo]
  exact ⟨_, rfl, Program.shell_renderAll⟩

/-- A new size goes to the viewport and to the listeners; the same size goes nowhere. -/
theorem run_resize {s : Stack} {width height : UInt32} :
    (s.resize width height).run w =
      if s.width = width ∧ s.height = height then (s, w)
      else ({ s with width, height }, s.resizeListeners.foldl
        (fun w listener => w.called (.resized listener width height))
        (w.perform (.viewport 0 0 width height))) := by
  unfold resize
  split
  · rfl
  · simp only [Engine.run_bind, Engine.run_command, Engine.run_forM, Engine.run_callback,
      Engine.run_pure]

theorem extends_resize (s : Stack) (width height : UInt32) (w : World δ) :
    Extends (·.isFrame) view w ((s.resize width height).run w).2 := by
  have calls (listeners : List String) (w : World δ) : Extends (·.isFrame) view w
      (listeners.foldl (fun w listener => w.called (.resized listener width height)) w) := by
    induction listeners generalizing w with
    | nil => exact Extends.refl w
    | cons listener rest ih => exact (Extends.emit (by rfl)).trans (ih _)
  rw [run_resize]
  split
  · exact Extends.refl w
  · exact (Extends.emit (by rfl)).trans (calls _ _)

end Stack
end ShaderStack

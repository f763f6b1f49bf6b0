import ShaderStack.Proofs.Graphics
import ShaderStack.Proofs.Allocation

/-! Where frames draw.

A program draws wherever the context points at when its turn comes, so that everything rests on what
render textures, frames and readbacks leave behind. -/
namespace ShaderStack

open World (Extends Emits Draws Restores)

variable {δ : Type} [GraphicsDevice δ] {w : World δ}

/-- The whole of a surface from its corner. -/
abbrev wholeOf (width height : UInt32) : Option (Int32 × Int32 × UInt32 × UInt32) :=
  some (0, 0, width, height)

/-- A draw of one of the programs, aimed somewhere. -/
def Program.drawsAny (ps : List Program)
    (aim : Option Handle × Option (Int32 × Int32 × UInt32 × UInt32)) (d : GraphicsState × Command) :
    Prop :=
  ∃ p ∈ ps, d.1.vertexArray = some p.bindings.vertexArray ∧ d.1.aim = aim

namespace Program

/-- The hook leaves the graphics state to the updates. -/
theorem graphics_before_eq {p : Program} :
    (p.before w).graphics = (p.bindings.flush.run (p.readied w)).2.graphics := by
  unfold before World.hooked
  split
  · exact World.graphics_emit
  · rfl

/-- Everything up to the draw leaves the aim as it is and the vertex array bound. -/
theorem graphics_before {p : Program} :
    (p.before w).graphics.aim = w.graphics.aim ∧
      (p.before w).graphics.vertexArray = some p.bindings.vertexArray := by
  have updates : Extends (·.isUpdate) RenderTexture.bare (p.readied w)
      (p.bindings.flush.run (p.readied w)).2 := by
    rw [Bindings.run_flush]
    exact UpdateQueue.extends_ran
  have readied : (p.readied w).graphics.aim = w.graphics.aim ∧
      (p.readied w).graphics.vertexArray = some p.bindings.vertexArray := by
    simp [readied, GraphicsState.after, GraphicsState.afterCommand]
  have flushed : (p.bindings.flush.run (p.readied w)).2.graphics.aim = w.graphics.aim ∧
      (p.bindings.flush.run (p.readied w)).2.graphics.vertexArray =
        some p.bindings.vertexArray := by
    refine updates.events.graphics_keeps
      (fun g => g.aim = w.graphics.aim ∧ g.vertexArray = some p.bindings.vertexArray) ?_ readied
    rintro g e update ⟨aim, vertexArray⟩
    obtain ⟨sameAim, sameArray, _⟩ := GraphicsState.after_of_isUpdate (g := g) update
    exact ⟨sameAim.trans aim, sameArray.trans vertexArray⟩
  rw [graphics_before_eq]
  exact flushed

/-- One draw call or none. -/
theorem drawCommands_cases (p : Program) (indices : Option IndexBuffer) :
    p.drawCommands indices = [] ∨ ∃ c, p.drawCommands indices = [c] ∧
      Event.draw? (.command c) = some c ∧ ∀ g : GraphicsState, g.afterCommand c = g.drawInto := by
  unfold drawCommands
  split
  · exact .inr ⟨_, rfl, rfl, fun _ => rfl⟩
  · exact .inr ⟨_, rfl, rfl, fun _ => rfl⟩
  · exact .inl rfl

/-- A program's only draw is made in the state that its updates led to. -/
theorem draws_render {p : Program} :
    Draws (fun d => d.1 = (p.before w).graphics ∧
      d.2 ∈ p.drawCommands (p.flushed w).bindings.elements) w (p.render.run w).2 := by
  have before : Draws (fun d => d.1 = (p.before w).graphics ∧
      d.2 ∈ p.drawCommands (p.flushed w).bindings.elements) w (p.before w) :=
    Draws.ofEmits extends_before.events fun e fits => Event.draw?_isQuiet fits.2
  rw [run_render]
  refine (before.trans ?_).trans (Draws.emit (by simp [Event.draw?]))
  rcases p.drawCommands_cases (p.flushed w).bindings.elements with none | ⟨c, one, draw, _⟩
  · rw [none]
    exact Draws.refl _
  · rw [one]
    refine Draws.emit ?_
    intro c' draw'
    obtain rfl : c = c' := Option.some.inj (draw.symm.trans draw')
    exact ⟨rfl, List.mem_singleton_self c⟩

/-- The vertex array is let go after the draw. -/
theorem graphics_render (p : Program) (w : World δ) :
    (p.render.run w).2.graphics = { (p.before w).graphics with vertexArray := none } ∨
      (p.render.run w).2.graphics =
        { (p.before w).graphics.drawInto with vertexArray := none } := by
  rw [run_render]
  rcases p.drawCommands_cases (p.flushed w).bindings.elements with none | ⟨c, one, _, drawn⟩
  · rw [none]
    exact .inl World.graphics_emit
  · rw [one, World.performAll_cons, World.performAll_nil, World.graphics_emit, World.graphics_emit]
    refine .inr ?_
    rw [← drawn]
    rfl

theorem aim_render {p : Program} : (p.render.run w).2.graphics.aim = w.graphics.aim := by
  obtain ⟨before, _⟩ := graphics_before (p := p) (w := w)
  rw [← before]
  rcases p.graphics_render w with quiet | drawn
  · rw [quiet]
  · rw [drawn]
    exact GraphicsState.aim_drawInto

theorem drawsAny_render {p : Program} :
    Draws (drawsAny [p] w.graphics.aim) w (p.render.run w).2 := by
  refine draws_render.mono ?_
  rintro d ⟨state, _⟩
  obtain ⟨aim, vertexArray⟩ := graphics_before (p := p) (w := w)
  refine ⟨p, List.mem_singleton_self p, ?_, ?_⟩
  · rw [state, vertexArray]
  · rw [state, aim]

/-- Programs that draw one after another all draw to the same place. -/
theorem drawsAny_renderAll (ps : List Program) (w : World δ) :
    Draws (drawsAny ps w.graphics.aim) w ((renderAll ps).run w).2 ∧
      ((renderAll ps).run w).2.graphics.aim = w.graphics.aim := by
  induction ps generalizing w with
  | nil => exact ⟨Draws.refl w, rfl⟩
  | cons p ps ih =>
    obtain ⟨draws, aim⟩ := ih (p.render.run w).2
    rw [aim_render] at draws aim
    rw [renderAll_cons]
    refine ⟨?_, aim⟩
    refine (drawsAny_render.mono ?_).trans (draws.mono ?_)
    · rintro d ⟨q, member, drawn⟩
      exact ⟨q, List.mem_cons.mpr (.inl (List.mem_singleton.mp member)), drawn⟩
    · rintro d ⟨q, member, drawn⟩
      exact ⟨q, List.mem_cons_of_mem p member, drawn⟩

end Program

namespace RenderTexture

/-- Where a target's programs draw. -/
abbrev aim (t : RenderTexture) : Option Handle × Option (Int32 × Int32 × UInt32 × UInt32) :=
  (some t.framebuffer, wholeOf t.width t.height)

end RenderTexture

/-- A draw of a target's program into the target. -/
def World.drawsLayer (w : World δ) (d : GraphicsState × Command) : Prop :=
  ∃ key t, w.texture? key = some t ∧ Program.drawsAny t.programs t.aim d

omit [GraphicsDevice δ] in
theorem World.drawsLayer_of_extends {w' : World δ} {allowed : Event → Prop}
    (run : Extends allowed RenderTexture.shell w w') {d : GraphicsState × Command}
    (draws : w'.drawsLayer d) : w.drawsLayer d := by
  obtain ⟨key, t', present, p', member, vertexArray, aimed⟩ := draws
  have same := run.texture? key
  rw [present, Option.map_some] at same
  obtain ⟨t, found, view⟩ := Option.map_eq_some_iff.mp same.symm
  have programs : t.shell.programs = t'.shell.programs := by rw [view]
  have aims : t.shell.aim = t'.shell.aim := by rw [view]
  obtain ⟨p, member', shell⟩ := exists_of_map_eq programs.symm member
  have arrays : p'.shell.bindings.vertexArray = p.shell.bindings.vertexArray := by rw [shell]
  exact ⟨key, t, found, p, member', vertexArray.trans (congrArg some arrays),
    aimed.trans aims.symm⟩

omit [GraphicsDevice δ] in
theorem World.drawsLayer_of_textures {w' : World δ} (same : w'.textures = w.textures)
    {d : GraphicsState × Command} (draws : w'.drawsLayer d) : w.drawsLayer d := by
  unfold drawsLayer texture? at *
  rwa [same] at draws

namespace RenderTexture

/-- A target's frame goes into the target and ends on what the caller asks for. -/
theorem draws_renderInto {key : Nat} {t : RenderTexture} (restore : Option Handle)
    (width height : UInt32) (present : w.texture? key = some t) :
    Draws (Program.drawsAny t.programs t.aim) w
        ((renderInto key restore width height).run w).2 ∧
      ((renderInto key restore width height).run w).2.graphics.aim =
        (restore, wholeOf width height) := by
  have opened : (t.opened w).graphics.aim = t.aim := by
    simp [RenderTexture.opened, GraphicsState.after, GraphicsState.afterCommand,
      GraphicsState.aim_drawInto]
  obtain ⟨drawn, _⟩ := Program.drawsAny_renderAll t.programs (t.opened w)
  rw [opened] at drawn
  have bound : Draws (Program.drawsAny t.programs t.aim) w (t.opened w) :=
    ((Draws.emit (by simp [Event.draw?])).trans (Draws.emit (by simp [Event.draw?]))).trans
      (Draws.emit (by simp [Event.draw?]))
  rw [run_renderInto present]
  refine ⟨?_, ?_⟩
  · have back : Draws (Program.drawsAny t.programs t.aim) (drawnInto key t w)
        (closed key restore width height (drawnInto key t w)) :=
      (Draws.performAll (by simp [Event.draw?])).trans (Draws.silent World.events_altered)
    have taken : Draws (Program.drawsAny t.programs t.aim) w (drawnInto key t w) :=
      (bound.trans drawn).trans (Draws.silent World.events_altered)
    exact (taken.trans back).trans (Draws.silent World.events_notify)
  · rw [World.graphics_of_events World.events_notify, closed,
      World.graphics_of_events World.events_altered]
    simp [GraphicsState.after, GraphicsState.afterCommand]

theorem renderInto_missing {key : Nat} {restore : Option Handle} {width height : UInt32}
    (missing : w.texture? key = none) :
    ((renderInto key restore width height : Engine δ Unit).run w).2 = w := by
  rw [run_renderInto_missing missing]

end RenderTexture

namespace Stack

/-- Where a frame's own programs draw. A frame on the screen without layers points nowhere, so that
they draw where the context points at already. -/
def frameAim (framebuffer : Option Handle) (width height : UInt32) (layers : List Nat)
    (before : Option Handle × Option (Int32 × Int32 × UInt32 × UInt32)) :
    Option Handle × Option (Int32 × Int32 × UInt32 × UInt32) :=
  if framebuffer = none ∧ layers = [] then before else (framebuffer, wholeOf width height)

theorem draws_layered {layers : List Nat} (framebuffer : Option Handle) (width height : UInt32)
    (present : ∀ key ∈ layers, ∃ t, w.texture? key = some t) :
    Draws w.drawsLayer w (layered framebuffer width height layers w) ∧
      (layered framebuffer width height layers w).graphics.aim =
        if layers = [] then w.graphics.aim else (framebuffer, wholeOf width height) := by
  induction layers generalizing w with
  | nil => exact ⟨Draws.refl w, rfl⟩
  | cons key layers ih =>
    obtain ⟨t, found⟩ := present key List.mem_cons_self
    obtain ⟨draws, aim⟩ := RenderTexture.draws_renderInto framebuffer width height found
    have run : Extends (·.isFrame) RenderTexture.shell w
        ((RenderTexture.renderInto key framebuffer width height).run w).2 :=
      RenderTexture.extends_renderInto
    obtain ⟨later, aim'⟩ :=
      ih (run.present fun other member => present other (List.mem_cons_of_mem key member))
    refine ⟨(draws.mono fun d drawn => ⟨key, t, found, drawn⟩).trans
      (later.mono fun d drawn => World.drawsLayer_of_extends run drawn), ?_⟩
    rw [if_neg (List.cons_ne_nil key layers)]
    refine aim'.trans ?_
    split
    · exact aim
    · rfl

/-- A frame's layers draw into their own targets, and its programs where the frame goes. -/
theorem draws_renderTo {s : Stack} (framebuffer : Option Handle) (width height : UInt32)
    (present : ∀ key ∈ s.layers, ∃ t, w.texture? key = some t) :
    Draws (fun d => w.drawsLayer d ∨ Program.drawsAny s.programs
        (frameAim framebuffer width height s.layers w.graphics.aim) d) w
        ((s.renderTo framebuffer width height).run w).2 ∧
      ((s.renderTo framebuffer width height).run w).2.graphics.aim =
        frameAim framebuffer width height s.layers w.graphics.aim := by
  have targeted : Draws w.drawsLayer w (targeted framebuffer width height w) ∧
      (targeted framebuffer width height w).graphics.aim =
        if framebuffer = none then w.graphics.aim else (framebuffer, wholeOf width height) := by
    unfold Stack.targeted
    cases framebuffer with
    | none => exact ⟨Draws.refl w, rfl⟩
    | some h =>
      refine ⟨Draws.performAll (by simp [Event.draw?]), ?_⟩
      simp [GraphicsState.after, GraphicsState.afterCommand]
  obtain ⟨drawnTarget, aimTarget⟩ := targeted
  have setUp : Extends (·.isFrame) RenderTexture.shell w
      (Stack.targeted framebuffer width height w) := extends_targeted
  obtain ⟨drawnLayers, aimLayers⟩ := draws_layered framebuffer width height (setUp.present present)
  obtain ⟨drawnOwn, aimOwn⟩ := Program.drawsAny_renderAll s.programs
    (layered framebuffer width height s.layers (Stack.targeted framebuffer width height w))
  have aimed : (layered framebuffer width height s.layers
      (Stack.targeted framebuffer width height w)).graphics.aim =
        frameAim framebuffer width height s.layers w.graphics.aim := by
    rw [aimLayers, aimTarget, frameAim]
    by_cases bare : s.layers = [] <;> by_cases screen : framebuffer = none <;> simp [bare, screen]
  rw [aimed] at drawnOwn aimOwn
  rw [run_renderTo]
  refine ⟨?_, aimOwn⟩
  have layers := drawnLayers.mono fun d drawn => World.drawsLayer_of_extends setUp drawn
  exact (((drawnTarget.mono fun _ => .inl).trans (layers.mono fun _ => .inl)).trans
    (drawnOwn.mono fun _ => .inr)).trans (Draws.silent rfl)

/-- A readback target that cannot be made leaves nothing bound. -/
theorem restores_makeTarget {internal : InternalFormat} {width height : UInt32} :
    (makeTarget internal width height).Ends w
      (fun _ w' => Emits (·.isSteady) w w' ∧ w'.textures = w.textures)
      (fun _ w' => Restores w w') := by
  rw [ends_makeTarget]
  refine ⟨?_, fun e _ => Restores.ofQuiet (Emits.emit (by rfl))⟩
  intro renderbuffer _
  have stored : Emits (·.isQuiet) w ((w.allocated .renderbuffer).perform
      (.renderbufferStorage renderbuffer internal width height)) :=
    (Emits.emit (by rfl)).push (by rfl)
  refine ⟨?_, fun e _ => Restores.ofQuiet ((stored.push (by rfl)).push (by rfl))⟩
  intro framebuffer _
  have attached : Emits (·.isSteady) w (World.probed .framebufferComplete
      ((World.allocated .framebuffer ((w.allocated .renderbuffer).perform
        (.renderbufferStorage renderbuffer internal width height))).performAll
          [.bindFramebuffer (some framebuffer), .framebufferRenderbuffer renderbuffer])) := by
    refine Emits.push (Emits.pushAll ?_ ?_) (by rfl)
    · exact (stored.push (by rfl)).mono fun _ => Event.isSteady_of_isQuiet
    · simp [Event.isSteady, Command.isSteady, Command.isQuiet]
  dsimp only
  split
  · exact Restores.unbound [.deleteFramebuffer framebuffer, .deleteRenderbuffer renderbuffer]
      attached (by simp [Command.isQuiet])
  · exact ⟨attached, rfl⟩

/-- The target of a readback stays with its stack under the size that was read. -/
theorem steady_bindTarget {s : Stack} {c : ReadConfig} {width height : UInt32} :
    (bindTarget c width height s).Ends w
      (fun answer w' => (∃ target, answer.2.targets.lookup (c.resolve width height) = some target ∧
          target.framebuffer = answer.1) ∧
        answer.2 = { s with targets := answer.2.targets } ∧
        Emits (·.isSteady) w w' ∧ w'.textures = w.textures)
      (fun _ w' => Restores w w') := by
  rw [ends_bindTarget]
  cases found : s.targets.lookup (c.resolve width height) with
  | some target => exact ⟨⟨target, found, rfl⟩, rfl, Emits.emit (by rfl), rfl⟩
  | none =>
    refine restores_makeTarget.imp ?_ fun _ _ restores => restores
    rintro target w' ⟨steady, textures⟩
    refine ⟨⟨target, ?_, rfl⟩, rfl, steady, textures⟩
    simp [List.lookup_append, found]

/-- A readback draws the stack into its target and goes back to the size of the stack. -/
theorem draws_read {s : Stack} {c : ReadConfig}
    (present : ∀ key ∈ s.layers, ∃ t, w.texture? key = some t) :
    (s.read c).Ends w
      (fun answer w' =>
        ∃ target, answer.2.targets.lookup
            (c.resolve (c.width.getD s.width) (c.height.getD s.height)) = some target ∧
          Draws (fun d => w.drawsLayer d ∨ Program.drawsAny s.programs
            (some target.framebuffer, wholeOf (c.width.getD s.width) (c.height.getD s.height)) d)
            w w' ∧
          w'.graphics.aim = (none, wholeOf s.width s.height))
      (fun _ w' => Restores w w') := by
  rw [ends_read]
  dsimp only
  split
  · exact Restores.ofQuiet (Emits.refl w)
  · refine steady_bindTarget.imp ?_ fun _ _ restores => restores
    rintro ⟨framebuffer, bound⟩ w' ⟨⟨target, found, rfl⟩, same, steady, textures⟩
    dsimp only at found same ⊢
    have programs : bound.programs = s.programs := by rw [same]
    have layers : bound.layers = s.layers := by rw [same]
    obtain ⟨drawn, _⟩ := draws_renderTo (s := bound) (some target.framebuffer)
      (c.width.getD s.width) (c.height.getD s.height)
      (w := w'.perform (.clear .opaqueBlack .one)) fun key member => by
        rw [layers] at member
        obtain ⟨t, present⟩ := present key member
        refine ⟨t, ?_⟩
        unfold World.texture? at *
        rwa [World.emit_textures, textures]
    obtain ⟨programs', shown, _⟩ := renderTo_eq bound (some target.framebuffer)
      (c.width.getD s.width) (c.height.getD s.height) (w'.perform (.clear .opaqueBlack .one))
    have aimed : frameAim (some target.framebuffer) (c.width.getD s.width) (c.height.getD s.height)
        bound.layers (w'.perform (.clear .opaqueBlack .one)).graphics.aim =
          (some target.framebuffer, wholeOf (c.width.getD s.width) (c.height.getD s.height)) := by
      simp [frameAim]
    rw [aimed, programs] at drawn
    refine ⟨target, ?_, ?_, ?_⟩
    · rw [shown]
      exact found
    · have cleared : Emits (·.isSteady) w (w'.perform (.clear .opaqueBlack .one)) :=
        steady.push (by rfl)
      refine (((Draws.ofEmits cleared fun _ => Event.draw?_isSteady).trans
        (drawn.mono fun d => Or.imp_left ?_)).trans
        (Draws.emit (by simp [Event.draw?]))).trans (Draws.performAll (by simp [Event.draw?]))
      exact World.drawsLayer_of_textures textures
    · rw [shown, same]
      simp [GraphicsState.after, GraphicsState.afterCommand]

end Stack

namespace RenderTexture

theorem restores_make {width height : UInt32} :
    (make width height : Attempt δ Nat).Ends w (fun _ w' => Restores w w')
      (fun _ w' => Restores w w') := by
  rw [ends_make]
  split
  · exact Restores.ofQuiet (Emits.refl w)
  · refine ⟨?_, fun e _ => Restores.ofQuiet (Emits.emit (by rfl))⟩
    intro texture _
    have stored : Emits (·.isQuiet) w ((w.allocated .texture).performAll
        (storage texture width height)) := by
      refine (Emits.emit (by rfl)).pushAll ?_
      simp [storage, Event.isQuiet, Command.isQuiet]
    refine ⟨?_, fun e _ => Restores.ofQuiet ((stored.push (by rfl)).push (by rfl))⟩
    intro framebuffer _
    have attached : Emits (·.isSteady) w (World.probed .framebufferComplete
        ((World.allocated .framebuffer ((w.allocated .texture).performAll
          (storage texture width height))).performAll
            [.bindFramebuffer (some framebuffer), .framebufferTexture texture])) := by
      refine Emits.push (Emits.pushAll ?_ ?_) (by rfl)
      · exact (stored.push (by rfl)).mono fun _ => Event.isSteady_of_isQuiet
      · simp [Event.isSteady, Command.isSteady, Command.isQuiet]
    dsimp only
    split
    · exact Restores.unbound [.deleteFramebuffer framebuffer, .deleteTexture texture] attached
        (by simp [Command.isQuiet])
    · have closed := Restores.unbound [] attached (by simp)
      exact ⟨closed.steady.trans (Emits.silent rfl), closed.screen⟩

end RenderTexture
end ShaderStack

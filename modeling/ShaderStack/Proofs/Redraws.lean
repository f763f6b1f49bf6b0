import ShaderStack.Device.Recording
import ShaderStack.Proofs.Flushing
import ShaderStack.Proofs.Listeners
import ShaderStack.Proofs.Session

/-! When a stack asks to be drawn again.

A request is raised by new content of a surface that a sampler of the stack is subscribed to, outside
of the stack's own frames. It stands until the requests are taken or a frame of the stack draws a layer
with that texture; a frame that only samples the texture leaves it standing. -/
namespace ShaderStack

variable {δ : Type}

section History

variable {σ ι : Type} (next : σ → ι → σ) (settles : σ → ι → Prop)

/-- No step of a run settles a request. -/
def Stands : σ → List ι → Prop
  | _, [] => True
  | s, i :: rest => ¬ settles s i ∧ Stands (next s i) rest

variable {next settles} {raises : σ → ι → Prop}

theorem Stands.mono {narrower : σ → ι → Prop} {s : σ} {steps : List ι} (stands : Stands next settles s steps)
    (narrow : ∀ s i, narrower s i → settles s i) : Stands next narrower s steps := by
  induction steps generalizing s with
  | nil => trivial
  | cons i rest ih => exact ⟨fun here => stands.1 (narrow s i here), ih stands.2⟩

theorem Stands.not_settles {s : σ} {before after : List ι} {i : ι}
    (stands : Stands next settles s (before ++ i :: after)) : ¬ settles (before.foldl next s) i := by
  induction before generalizing s with
  | nil => exact stands.1
  | cons first before ih => exact ih stands.2

/-- What is pending after a run was raised by one of its steps, or was pending before it, and was
settled by no step since. -/
theorem pending_foldl_iff (valid pending : σ → Prop) (keeps : ∀ s i, valid s → valid (next s i))
    (step : ∀ s i, valid s → (pending (next s i) ↔ raises s i ∨ pending s ∧ ¬ settles s i))
    (s : σ) (start : valid s) (steps : List ι) :
    pending (steps.foldl next s) ↔
      (∃ before i after, steps = before ++ i :: after ∧ raises (before.foldl next s) i ∧
        Stands next settles (next (before.foldl next s) i) after) ∨
      pending s ∧ Stands next settles s steps := by
  induction steps generalizing s with
  | nil => simp [Stands]
  | cons i rest ih =>
    rw [List.foldl_cons, ih (next s i) (keeps s i start), step s i start]
    constructor
    · rintro (⟨before, j, after, rfl, raised, stands⟩ | ⟨raised | ⟨old, kept⟩, stands⟩)
      · exact .inl ⟨i :: before, j, after, rfl, raised, stands⟩
      · exact .inl ⟨[], i, rest, rfl, raised, stands⟩
      · exact .inr ⟨old, kept, stands⟩
    · rintro (⟨before, j, after, split, raised, stands⟩ | ⟨old, kept, stands⟩)
      · cases before with
        | nil =>
          obtain ⟨rfl, rfl⟩ := List.cons.inj split
          exact .inr ⟨.inl raised, stands⟩
        | cons first before =>
          obtain ⟨rfl, rfl⟩ := List.cons.inj split
          exact .inl ⟨before, j, after, rfl, raised, stands⟩
      · exact .inr ⟨.inr ⟨old, kept⟩, stands⟩

end History

theorem RedrawRequests.mem_request {source x : Handle} {r : RedrawRequests} :
    x ∈ (r.request source).sources ↔ x ∈ r.sources ∨ source = x := by
  unfold request
  split
  · next old =>
    refine ⟨.inl, ?_⟩
    rintro (known | rfl)
    · exact known
    · exact old
  · simp [eq_comm]

namespace World

variable {w w' : World δ} {k : RedrawKey} {x : Handle}

/-- New content of a texture waits for a redraw of a stack. -/
def Pending (k : RedrawKey) (x : Handle) (w : World δ) : Prop := x ∈ (w.requests k).sources

/-- A sampler of a stack is subscribed to a render texture. -/
def Hears (k : RedrawKey) (key : Nat) (x : Handle) (w : World δ) : Prop :=
  ∃ t, w.texture? key = some t ∧ t.texture = x ∧ ∃ s ∈ t.listeners, s.redraw = k

theorem Hushed.pending_iff (run : Hushed w w') : w'.Pending k x ↔ w.Pending k x := by
  unfold Pending requests
  rw [run.redraws]

theorem pending_setRequests {key : RedrawKey} {r : RedrawRequests} :
    (w.setRequests key r).Pending k x ↔ if key = k then x ∈ r.sources else w.Pending k x := by
  unfold Pending requests setRequests
  by_cases same : key = k
  · subst same
    rw [lookup_assign_same, if_pos rfl, Option.getD_some]
  · rw [lookup_assign_other (Ne.symm same), if_neg same]

theorem pending_notify {listeners : List Subscription} :
    (w.notify listeners).Pending k x ↔
      w.Pending k x ∨ ∃ s ∈ listeners, s.redraw = k ∧ s.source = x := by
  induction listeners generalizing w with
  | nil => simp [notify]
  | cons s rest ih =>
    have first : (w.setRequests s.redraw ((w.requests s.redraw).request s.source)).Pending k x ↔
        w.Pending k x ∨ s.redraw = k ∧ s.source = x := by
      rw [pending_setRequests, RedrawRequests.mem_request]
      by_cases mine : s.redraw = k
      · subst mine
        simp [Pending]
      · simp [mine]
    unfold notify at ih ⊢
    rw [List.foldl_cons, ih, first, List.exists_mem_cons_iff, or_assoc]

theorem textures_notify {listeners : List Subscription} :
    (w.notify listeners).textures = w.textures := by
  induction listeners generalizing w with
  | nil => rfl
  | cons s rest ih => exact ih

end World

open World (Hushed Attuned Extends)

variable [GraphicsDevice δ] {w : World δ} {k : RedrawKey} {x : Handle}

/-- A render of a target asks for a redraw wherever it is heard of. -/
theorem RenderTexture.pending_renderInto {key : Nat} {restore : Option Handle} {width height : UInt32}
    (attuned : w.Attuned) :
    let w' := ((renderInto key restore width height).run w).2
    w'.Attuned ∧ (w'.Pending k x ↔ w.Pending k x ∨ w'.Hears k key x) := by
  dsimp only
  cases present : w.texture? key with
  | none =>
    rw [run_renderInto_missing present]
    refine ⟨attuned, ?_⟩
    simp [World.Hears, present]
  | some t =>
    have hushed : Hushed w (closed key restore width height (drawnInto key t w)) := hushed_closed
    rw [run_renderInto present]
    dsimp only
    generalize closed key restore width height (drawnInto key t w) = v at hushed ⊢
    have own := hushed.attuned attuned
    refine ⟨fun e member => own e (World.textures_notify ▸ member), ?_⟩
    have textures (listeners : List Subscription) :
        (v.notify listeners).Hears k key x ↔ v.Hears k key x := by
      unfold World.Hears World.texture?
      rw [World.textures_notify]
    rw [textures, World.pending_notify, hushed.pending_iff]
    refine or_congr Iff.rfl ?_
    unfold World.Hears
    cases found : v.texture? key with
    | none => simp
    | some t' =>
      have source (s : Subscription) (member : s ∈ t'.listeners) : s.source = t'.texture :=
        own _ (mem_of_lookup found) s member
      constructor
      · rintro ⟨s, member, mine, rfl⟩
        exact ⟨t', rfl, (source s member).symm, s, member, mine⟩
      · rintro ⟨_, same, rfl, s, member, mine⟩
        obtain rfl := Option.some.inj same
        exact ⟨s, member, mine, source s member⟩

theorem RenderTexture.pending_render (key : Nat) (attuned : w.Attuned) :
    let w' := ((render key).run w).2
    w'.Attuned ∧ (w'.Pending k x ↔ w.Pending k x ∨ w'.Hears k key x) := by
  cases present : w.texture? key with
  | none =>
    rw [run_render_missing present]
    exact ⟨attuned, by simp [World.Hears, present]⟩
  | some t =>
    rw [run_render present]
    exact pending_renderInto attuned

namespace Stack

theorem hushed_targeted {framebuffer : Option Handle} {width height : UInt32} :
    Hushed w (targeted framebuffer width height w) := by
  unfold targeted
  split
  · exact Hushed.performAll
  · exact Hushed.refl w

/-- One of the layers that draw in turn is heard of. -/
def HearsLayer (k : RedrawKey) (x : Handle) (framebuffer : Option Handle) (width height : UInt32) :
    List Nat → World δ → Prop
  | [], _ => False
  | key :: rest, w =>
    let w' := ((RenderTexture.renderInto key framebuffer width height).run w).2
    w'.Hears k key x ∨ HearsLayer k x framebuffer width height rest w'

/-- The textures of a stack's layers. -/
def layerTextures (s : Stack) (w : World δ) : List Handle :=
  s.layers.filterMap fun key => w.textureOf? (.renderTexture key)

variable {framebuffer : Option Handle} {width height : UInt32} {layers : List Nat}

theorem pending_layered (framebuffer : Option Handle) (width height : UInt32) (layers : List Nat)
    (attuned : w.Attuned) :
    let w' := layered framebuffer width height layers w
    w'.Attuned ∧
      (w'.Pending k x ↔ w.Pending k x ∨ HearsLayer k x framebuffer width height layers w) := by
  induction layers generalizing w with
  | nil => exact ⟨attuned, by simp [layered, HearsLayer]⟩
  | cons key rest ih =>
    obtain ⟨own, first⟩ := RenderTexture.pending_renderInto (k := k) (x := x) attuned
    obtain ⟨own', later⟩ := ih own
    refine ⟨own', later.trans ?_⟩
    rw [first, or_assoc]
    rfl

/-- What is heard of is the texture of a layer. -/
theorem exists_layer (hears : HearsLayer k x framebuffer width height layers w) :
    ∃ key ∈ layers, w.textureOf? (.renderTexture key) = some x := by
  induction layers generalizing w with
  | nil => exact hears.elim
  | cons key rest ih =>
    have run : Extends (·.isFrame) RenderTexture.shell w
        ((RenderTexture.renderInto key framebuffer width height).run w).2 :=
      RenderTexture.extends_renderInto
    rcases hears with ⟨t, present, own, _⟩ | later
    · refine ⟨key, List.mem_cons_self, ?_⟩
      rw [← run.textureOf?]
      simp [World.textureOf?, present, own]
    · obtain ⟨other, member, texture⟩ := ih later
      rw [run.textureOf?] at texture
      exact ⟨other, List.mem_cons_of_mem key member, texture⟩

omit [GraphicsDevice δ] in
theorem mem_layerTextures {s : Stack} : x ∈ s.layerTextures w ↔
    ∃ key ∈ s.layers, w.textureOf? (.renderTexture key) = some x := by
  simp [layerTextures]

end Stack

/-- A frame of a stack as it starts: where it goes, and the world that it finds. -/
structure FrameStart (δ : Type) where
  stack : Stack
  target : Option Handle
  width : UInt32
  height : UInt32
  world : World δ

namespace FrameStart

/-- Another stack's frame draws a layer that is heard of. -/
def Raises (k : RedrawKey) (x : Handle) (f : FrameStart δ) : Prop :=
  f.stack.redraw ≠ k ∧ Stack.HearsLayer k x f.target f.width f.height f.stack.layers
    (Stack.targeted f.target f.width f.height f.world)

/-- A frame of the stack draws a layer with the texture. -/
def Settles (k : RedrawKey) (x : Handle) (f : FrameStart δ) : Prop :=
  f.stack.redraw = k ∧ x ∈ f.stack.layerTextures f.world

/-- A frame settles the requests of its own stack for the layers that it draws, and raises those of
other stacks. -/
theorem pending_renderTo (f : FrameStart δ) (attuned : f.world.Attuned) :
    let w' := ((f.stack.renderTo f.target f.width f.height).run f.world).2
    w'.Attuned ∧ (w'.Pending k x ↔ f.Raises k x ∨ f.world.Pending k x ∧ ¬ f.Settles k x) := by
  obtain ⟨s, framebuffer, width, height, w⟩ := f
  dsimp only at attuned
  have target : Hushed w (Stack.targeted framebuffer width height w) := Stack.hushed_targeted
  have sized : Extends (·.isFrame) RenderTexture.shell w (Stack.targeted framebuffer width height w) :=
    Stack.extends_targeted
  obtain ⟨own, drawn⟩ := Stack.pending_layered (k := k) (x := x) framebuffer width height s.layers
    (target.attuned attuned)
  have layers : Extends (·.isFrame) RenderTexture.shell w ((Program.renderAll s.programs).run
      (Stack.layered framebuffer width height s.layers (Stack.targeted framebuffer width height w))).2 :=
    (sized.trans Stack.extends_layered).trans Program.extends_renderAll.coarsen
  have programs : Hushed
      (Stack.layered framebuffer width height s.layers (Stack.targeted framebuffer width height w))
      ((Program.renderAll s.programs).run
        (Stack.layered framebuffer width height s.layers (Stack.targeted framebuffer width height w))).2 :=
    Program.hushed_renderAll
  rw [target.pending_iff, ← programs.pending_iff] at drawn
  rw [Stack.run_renderTo]
  dsimp only
  generalize ((Program.renderAll s.programs).run (Stack.layered framebuffer width height s.layers
    (Stack.targeted framebuffer width height w))).2 = v at drawn layers programs ⊢
  have textures : s.layerTextures v = s.layerTextures w := by
    unfold Stack.layerTextures
    rw [layers.textureOf?]
  refine ⟨programs.attuned own, ?_⟩
  unfold Stack.answered Raises Settles
  rw [World.pending_setRequests]
  by_cases mine : s.redraw = k
  · subst mine
    have kept : x ∈ ((v.requests s.redraw).discard (s.layerTextures v)).sources ↔
        v.Pending s.redraw x ∧ x ∉ s.layerTextures v := by
      simp [RedrawRequests.discard, World.Pending]
    rw [if_pos rfl]
    refine kept.trans ?_
    rw [textures]
    simp only [ne_eq, not_true_eq_false, false_and, false_or, true_and]
    refine and_congr_left fun absent => ?_
    refine drawn.trans (or_iff_left fun hears => absent ?_)
    -- a layer that was heard of is one of those that are settled
    obtain ⟨key, member, texture⟩ := Stack.exists_layer hears
    rw [Stack.mem_layerTextures]
    exact ⟨key, member, sized.textureOf? ▸ texture⟩
  · rw [if_neg mine, drawn]
    simp [mine, or_comm]

end FrameStart

namespace Stack

/-- The frame of a readback, unless the readback fails before it. -/
def readFrame? (c : ReadConfig) (s : Stack) (w : World δ) : Option (FrameStart δ) :=
  let width := c.width.getD s.width
  let height := c.height.getD s.height
  match c.validate width height, (s.bindTarget c width height).run.run w with
  | .ok (), (.ok (framebuffer, bound), w') =>
    some ⟨bound, some framebuffer, width, height, w'.perform (.clear .opaqueBlack .one)⟩
  | _, _ => none

/-- A readback fails without a frame, or draws one into its target and reads it. -/
theorem readStack_of_frame {s : Stack} {c : ReadConfig}
    (fits : Option (FrameStart δ) → Stack → World δ → Prop) {bound : Handle × Stack → World δ → Prop}
    {unbound : RenderError → World δ → Prop}
    (target : (s.bindTarget c (c.width.getD s.width) (c.height.getD s.height)).Ends w bound unbound)
    (invalid : fits none s w) (refused : ∀ e w', unbound e w' → fits none s w')
    (drawn : ∀ framebuffer s' w', bound (framebuffer, s') w' →
      let f : FrameStart δ := ⟨s', some framebuffer, c.width.getD s.width, c.height.getD s.height,
        w'.perform (.clear .opaqueBlack .one)⟩
      let after := (f.stack.renderTo f.target f.width f.height).run f.world
      fits (some f) after.1 ((after.2.readBack (pixelRead c f.width f.height)).performAll
        [.bindFramebuffer none, .viewport 0 0 after.1.width after.1.height])) :
    fits (s.readFrame? c w) ((Session.readStack c s).run w).1 ((Session.readStack c s).run w).2 := by
  refine Session.readStack_of_ends (fits (s.readFrame? c w)) ?_
  rw [ends_read]
  unfold readFrame?
  dsimp only
  cases c.validate (c.width.getD s.width) (c.height.getD s.height) with
  | error e => exact invalid
  | ok fit =>
    unfold Attempt.Ends at target ⊢
    generalize (s.bindTarget c (c.width.getD s.width) (c.height.getD s.height)).run.run w = answer
      at target ⊢
    obtain ⟨e | ⟨framebuffer, s'⟩, w'⟩ := answer
    · exact refused e w' target
    · exact drawn framebuffer s' w' target

theorem pending_readStack (s : Stack) (c : ReadConfig) (attuned : w.Attuned) :
    let w' := ((Session.readStack c s).run w).2
    w'.Attuned ∧ (w'.Pending k x ↔ (∃ f ∈ s.readFrame? c w, f.Raises k x) ∨
      w.Pending k x ∧ ¬ ∃ f ∈ s.readFrame? c w, f.Settles k x) := by
  refine readStack_of_frame (fun frame _ w' => w'.Attuned ∧ (w'.Pending k x ↔
    (∃ f ∈ frame, f.Raises k x) ∨ w.Pending k x ∧ ¬ ∃ f ∈ frame, f.Settles k x))
    (hushed_bindTarget s c _ _) ⟨attuned, by simp⟩ (fun _ w' bound => ?_) fun framebuffer s' w' bound => ?_
  · exact ⟨bound.attuned attuned, by simpa using bound.pending_iff⟩
  · have cleared : Hushed w (w'.perform (.clear .opaqueBlack .one)) := bound.trans Hushed.emit
    let start : FrameStart δ := ⟨s', some framebuffer, c.width.getD s.width, c.height.getD s.height,
      w'.perform (.clear .opaqueBlack .one)⟩
    obtain ⟨own, drawn⟩ := start.pending_renderTo (k := k) (x := x) (cleared.attuned attuned)
    rw [cleared.pending_iff] at drawn
    simp only [Option.mem_def, Option.some.injEq, exists_eq_left']
    have rest (v : World δ) (r : PixelRead) (cs : List Command) :
        Hushed v ((v.readBack r).performAll cs) := Hushed.emit.trans Hushed.performAll
    exact ⟨(rest _ _ _).attuned own, (rest _ _ _).pending_iff.trans drawn⟩

end Stack

namespace Session

variable {s : Session δ}

/-- The frame that a call draws. -/
def frame? (s : Session δ) : SessionStep → Option (FrameStart δ)
  | .render i => s.liveStacks[i]?.map fun stack =>
    ⟨stack, none, stack.width, stack.height, s.world⟩
  | .read i c => s.liveStacks[i]?.bind fun stack => stack.readFrame? c s.world
  | _ => none

/-- A call brings new content of a texture that a sampler of the stack is subscribed to, and is no
frame of the stack. -/
def Raises (k : RedrawKey) (x : Handle) (s : Session δ) : SessionStep → Prop
  | .fireSurface name => ∃ l ∈ (s.world.surface name).listeners, l.redraw = k ∧ l.source = x
  | .renderTexture key => key ∈ s.held ∧ (s.perform (.renderTexture key)).world.Hears k key x
  | step => ∃ f ∈ s.frame? step, f.Raises k x

/-- A call takes the requests of the stack, or draws a frame of it with the texture as a layer. -/
def Settles (k : RedrawKey) (x : Handle) (s : Session δ) : SessionStep → Prop
  | .takeRedraw i => ∃ stack ∈ s.liveStacks[i]?, stack.redraw = k
  | step => ∃ f ∈ s.frame? step, f.Settles k x

/-- The calls that draw nothing but single programs, and leave the requests alone. -/
def isHushed : SessionStep → Bool
  | .fireSurface _ | .render _ | .read _ _ | .renderTexture _ | .takeRedraw _ => false
  | _ => true

theorem hushed_perform {step : SessionStep} (hushed : isHushed step) :
    Hushed s.world (s.perform step).world := by
  cases step with
  | fireSurface _ | render _ | read _ _ | renderTexture _ | takeRedraw _ => simp [isHushed] at hushed
  | changeHost _ | changeSurface _ _ => exact Hushed.silent rfl fun _ => id
  | makeStack supported width height options =>
    exact attempt_of_ends (fun s' => Hushed s.world s'.world) Stack.hushed_make
  | compile i vertex fragment config =>
    exact world_compile (Hushed s.world) (Hushed.refl _) fun _ _ => ProgramCache.hushed_compile
  | addToStack i j =>
    refine world_takeAside (Hushed s.world) (Hushed.refl _) fun p s' same => ?_
    unfold addToStack
    split <;> exact same ▸ Hushed.refl _
  | addToTexture key j =>
    refine world_onHeld (Hushed s.world) (Hushed.refl _) fun _ => ?_
    refine world_takeAside (Hushed s.world) (Hushed.refl _) fun p s' same => ?_
    rw [← same]
    exact Hushed.altered (fun _ => rfl) fun _ => rfl
  | renderProgram j =>
    change Hushed s.world (s.renderAside j).world
    unfold renderAside
    split
    · exact Hushed.refl _
    · exact Program.hushed_render
  | dropProgram j =>
    refine world_takeAside (Hushed s.world) (Hushed.refl _) fun p s' same => ?_
    rw [← same]
    exact Program.hushed_drop
  | clear => exact Hushed.emit
  | resize i width height =>
    exact world_onStack (Hushed s.world) (Hushed.refl _) fun _ _ => Stack.hushed_resize
  | onResize i listener =>
    exact world_onStack (Hushed s.world) (Hushed.refl _) fun _ _ => Hushed.refl _
  | dropStack i =>
    change Hushed s.world (s.dropStack i).world
    unfold dropStack
    split
    · exact Hushed.refl _
    · exact Stack.hushed_drop
  | makeTexture width height =>
    exact attempt_of_ends (fun s' => Hushed s.world s'.world) RenderTexture.hushed_make
  | retain key =>
    refine world_onHeld (Hushed s.world) (Hushed.refl _) fun _ => ?_
    exact Hushed.altered (fun _ => rfl) fun _ => rfl
  | release key =>
    exact world_onHeld (Hushed s.world) (Hushed.refl _) fun _ => RenderTexture.hushed_release
  | addLayer i key =>
    refine world_onHeld (Hushed s.world) (Hushed.refl _) fun _ => ?_
    refine world_onStack (Hushed s.world) (Hushed.refl _) fun _ _ => ?_
    exact Hushed.altered (fun _ => rfl) fun _ => rfl

/-- What a call does to the requests of a stack. -/
theorem pending_perform (k : RedrawKey) (x : Handle) (s : Session δ) (step : SessionStep)
    (attuned : s.world.Attuned) :
    (s.perform step).world.Attuned ∧ ((s.perform step).world.Pending k x ↔
      s.Raises k x step ∨ s.world.Pending k x ∧ ¬ s.Settles k x step) := by
  have still (hushed : isHushed step) (raises : ¬ s.Raises k x step) (settles : ¬ s.Settles k x step) :
      (s.perform step).world.Attuned ∧ ((s.perform step).world.Pending k x ↔
        s.Raises k x step ∨ s.world.Pending k x ∧ ¬ s.Settles k x step) := by
    have run := hushed_perform (s := s) hushed
    exact ⟨run.attuned attuned, by simp [run.pending_iff, raises, settles]⟩
  cases step with
  | fireSurface name =>
    refine ⟨fun e member => attuned e (World.textures_notify ▸ member), World.pending_notify.trans ?_⟩
    simp [Raises, Settles, frame?, or_comm]
  | renderTexture key =>
    by_cases held : key ∈ s.held
    · have run : s.perform (.renderTexture key) =
          { s with world := ((RenderTexture.render key).run s.world).2 } := if_pos held
      obtain ⟨own, pending⟩ := RenderTexture.pending_render (k := k) (x := x) key attuned
      refine ⟨run ▸ own, (iff_of_eq (by rw [run])).trans (pending.trans ?_)⟩
      simp [Raises, Settles, frame?, held, run, or_comm]
    · have run : s.perform (.renderTexture key) = s := if_neg held
      rw [run]
      exact ⟨attuned, by simp [Raises, Settles, frame?, held]⟩
  | takeRedraw i =>
    change (s.onStack i _).world.Attuned ∧ ((s.onStack i _).world.Pending k x ↔ _)
    cases found : s.liveStacks[i]? with
    | none =>
      rw [onStack_none found]
      exact ⟨attuned, by simp [Raises, Settles, frame?, found]⟩
    | some stack =>
      rw [onStack_some found]
      refine ⟨attuned, ?_⟩
      have taken : (s.world.setRequests stack.redraw {}).Pending k x ↔
          s.world.Pending k x ∧ ¬ stack.redraw = k := by
        rw [World.pending_setRequests]
        by_cases mine : stack.redraw = k <;> simp [mine]
      refine taken.trans ?_
      simp [Raises, Settles, frame?, found]
  | render i =>
    change (s.onStack i _).world.Attuned ∧ ((s.onStack i _).world.Pending k x ↔ _)
    cases found : s.liveStacks[i]? with
    | none =>
      rw [onStack_none found]
      exact ⟨attuned, by simp [Raises, Settles, frame?, found]⟩
    | some stack =>
      rw [onStack_some found]
      obtain ⟨own, pending⟩ := FrameStart.pending_renderTo (k := k) (x := x)
        ⟨stack, none, stack.width, stack.height, s.world⟩ attuned
      refine ⟨own, pending.trans ?_⟩
      simp [Raises, Settles, frame?, found]
  | read i c =>
    change (s.onStack i _).world.Attuned ∧ ((s.onStack i _).world.Pending k x ↔ _)
    cases found : s.liveStacks[i]? with
    | none =>
      rw [onStack_none found]
      exact ⟨attuned, by simp [Raises, Settles, frame?, found]⟩
    | some stack =>
      rw [onStack_some found]
      obtain ⟨own, pending⟩ := stack.pending_readStack (k := k) (x := x) c attuned
      refine ⟨own, pending.trans ?_⟩
      simp [Raises, Settles, frame?, found]
  | _ => exact still rfl (by simp [Raises, frame?]) (by simp [Settles, frame?])

theorem run_eq_foldl (steps : List SessionStep) (s : Session δ) :
    run steps s = steps.foldl (fun s step => s.perform step) s := by
  induction steps generalizing s with
  | nil => rfl
  | cons step rest ih => exact ih _

/-- No call takes the requests of the stack or draws a frame of it with the texture as a layer. -/
abbrev Unsettled (k : RedrawKey) (x : Handle) : Session δ → List SessionStep → Prop :=
  Stands (fun s step => s.perform step) (Settles k x)

/-- What a run of calls leaves pending. -/
theorem pending_run_iff (k : RedrawKey) (x : Handle) (steps : List SessionStep) (s : Session δ)
    (attuned : s.world.Attuned) :
    (run steps s).world.Pending k x ↔
      (∃ before step after, steps = before ++ step :: after ∧ (run before s).Raises k x step ∧
        Unsettled k x ((run before s).perform step) after) ∨
      s.world.Pending k x ∧ Unsettled k x s steps := by
  simp only [run_eq_foldl]
  exact pending_foldl_iff (fun s => s.world.Attuned) (fun s => s.world.Pending k x)
    (fun s step here => (pending_perform k x s step here).1)
    (fun s step here => (pending_perform k x s step here).2) s attuned steps

end Session

omit [GraphicsDevice δ] in
theorem Stack.takeRedrawRequest_iff {s : Stack} :
    (s.takeRedrawRequest.run w).1 = true ↔ ∃ x, w.Pending s.redraw x := by
  have answer : (s.takeRedrawRequest.run w).1 = (w.requests s.redraw).isPending := rfl
  rw [answer]
  unfold RedrawRequests.isPending World.Pending
  cases (w.requests s.redraw).sources with
  | nil => simp
  | cons source rest => exact iff_of_true rfl ⟨source, List.mem_cons_self⟩

/-- A stack asks for a redraw exactly if a texture that a sampler of it is subscribed to got new
content outside of its frames, and since then neither were its requests taken nor did it draw that
texture as a layer. -/
theorem Session.redraw_requested_iff (device : δ) (host : Host) (steps : List SessionStep)
    (stack : Stack) :
    (stack.takeRedrawRequest.run (run steps (fresh device host)).world).1 = true ↔
      ∃ x before step after, steps = before ++ step :: after ∧
        (run before (fresh device host)).Raises stack.redraw x step ∧
        Unsettled stack.redraw x ((run before (fresh device host)).perform step) after := by
  have attuned : (fresh device host).world.Attuned := nofun
  rw [Stack.takeRedrawRequest_iff]
  refine exists_congr fun x => ?_
  rw [pending_run_iff _ _ _ _ attuned, or_iff_left]
  rintro ⟨old, _⟩
  exact absurd old List.not_mem_nil

/-- A stack with a program that samples a target. -/
def sampling : List SessionStep :=
  let canvas : SamplerToken := ⟨pure (.surface (.renderTexture 1)), {}⟩
  let vertex : CompiledShader := ⟨1, "void main", []⟩
  let fragment : CompiledShader :=
    ⟨2, "uniform sampler2D canvas;\nvoid main canvas", [⟨"canvas", ⟨10, .sampler canvas⟩⟩]⟩
  [.makeStack true 8 8 {}, .makeTexture 4 4, .compile 0 vertex fragment { draw := .arrays 0 3 },
    .addToStack 0 0]

/-- A target that is no layer is drawn, and then the stack that samples it: the frame has the new
content, and the stack asks to be drawn again. -/
theorem sampled_still_requested :
    let s := Session.run (sampling ++ [.renderTexture 1, .render 0])
      (Session.fresh ({} : RecordingDevice) {})
    ∃ stack ∈ s.liveStacks, (stack.takeRedrawRequest.run s.world).1 = true := by
  decide +kernel

end ShaderStack

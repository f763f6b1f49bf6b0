import ShaderStack.Proofs.Histories

/-! Where uploads come from.

Of the calls of a session only compilations and flushes put data on the device. What a flush puts there is
what its turns send, in their order, so that what is known of turns is known of the trace. -/
namespace ShaderStack

open World (Emits Extends)

/-- The commands that put data, or how it is read, on the device. -/
def Command.isUpload : Command → Bool
  | bufferData _ _ | vertexPointer _ _ | textureImage _ (some _) => true
  | _ => false

/-- The upload of an event. -/
def Event.upload? : Event → Option Command
  | command c => if c.isUpload then some c else none
  | _ => none

namespace Event

variable {e : Event}

theorem upload?_of_isSetup (setup : e.isSetup) : e.upload? = none := by
  cases e with
  | command c =>
    cases c with
    | textureImage image pixels =>
      cases pixels with
      | none => rfl
      | some pixels => exact Bool.noConfusion setup
    | bufferData _ _ | vertexPointer _ _ => exact Bool.noConfusion setup
    | _ => rfl
  | _ => rfl

theorem upload?_of_isErasure (erasure : e.isErasure) : e.upload? = none := by
  cases e with
  | command c =>
    cases c with
    | textureImage _ _ | bufferData _ _ | vertexPointer _ _ => exact Bool.noConfusion erasure
    | _ => rfl
  | _ => rfl

theorem filterMap_upload? {cs : List Command} :
    (cs.map command).filterMap upload? = cs.filter Command.isUpload := by
  induction cs with
  | nil => rfl
  | cons c cs ih =>
    rw [List.map_cons, List.filter_cons]
    by_cases sent : c.isUpload <;> simp [upload?, sent, ih]

end Event

variable {δ : Type} {w w₁ w₂ : World δ} {cs ds : List Command}

namespace World

/-- The world grew by events of which these are the uploads, in their order. -/
def Sends (cs : List Command) (w w₁ : World δ) : Prop :=
  ∃ es, w₁.events = w.events ++ es ∧ es.filterMap Event.upload? = cs

namespace Sends

theorem nothing (run : Emits (·.upload? = none) w w₁) : Sends [] w w₁ := by
  obtain ⟨es, split, none⟩ := run
  exact ⟨es, split, List.filterMap_eq_nil_iff.mpr none⟩

theorem refl (w : World δ) : Sends [] w w := nothing (Emits.refl w)

theorem trans (first : Sends cs w w₁) (second : Sends ds w₁ w₂) : Sends (cs ++ ds) w w₂ := by
  obtain ⟨es, split, rfl⟩ := first
  obtain ⟨fs, split', rfl⟩ := second
  exact ⟨es ++ fs, by rw [split', split, List.append_assoc], List.filterMap_append⟩

theorem behind (start : Emits (·.upload? = none) w w₁) (rest : Sends cs w₁ w₂) : Sends cs w w₂ :=
  (nothing start).trans rest

theorem ahead (first : Sends cs w w₁) (last : Emits (·.upload? = none) w₁ w₂) : Sends cs w w₂ := by
  have both := first.trans (nothing last)
  rwa [List.append_nil] at both

end Sends
end World

open World (Sends)

variable [GraphicsDevice δ]

namespace Flush

/-- What a flush uploads. -/
def uploads (f : Flush δ) : List Command :=
  f.turns.flatMap fun t => (t.update.commands t.world).filter Command.isUpload

theorem sends_render (f : Flush δ) : Sends f.uploads f.world (f.program.render.run f.world).2 := by
  obtain ⟨p, w⟩ := f
  have readied : Emits (·.upload? = none) w (p.readied w) :=
    (Emits.emit (by rfl)).trans (Emits.emit (by rfl))
  have flushed : Sends (Flush.uploads ⟨p, w⟩) (p.readied w) (p.bindings.flush.run (p.readied w)).2 := by
    rw [Bindings.run_flush]
    refine ⟨_, UpdateQueue.events_ran, ?_⟩
    rw [List.filterMap_flatMap]
    exact List.flatMap_congr fun t _ => Event.filterMap_upload?
  have hooked : Emits (·.upload? = none) (p.bindings.flush.run (p.readied w)).2 (p.before w) := by
    unfold Program.before World.hooked
    split
    · exact Emits.emit rfl
    · exact Emits.refl _
  rw [Program.run_render]
  refine ((flushed.behind readied).ahead hooked).ahead ((Emits.performAll ?_).push rfl)
  intro c member
  unfold Program.drawCommands at member
  split at member <;> simp at member <;> subst member <;> rfl

end Flush

theorem Program.sends_renderAll (ps : List Program) (w : World δ) :
    Sends ((flushes ps w).flatMap Flush.uploads) w ((renderAll ps).run w).2 := by
  induction ps generalizing w with
  | nil => exact Sends.refl w
  | cons p ps ih =>
    rw [renderAll_cons]
    exact (Flush.sends_render ⟨p, w⟩).trans (ih _)

theorem RenderTexture.sends_renderInto (key : Nat) (restore : Option Handle) (width height : UInt32)
    (w : World δ) : Sends ((flushes key w).flatMap Flush.uploads) w
      ((renderInto key restore width height).run w).2 := by
  unfold flushes
  cases present : w.texture? key with
  | none =>
    rw [run_renderInto_missing present]
    exact Sends.refl w
  | some t =>
    rw [run_renderInto present]
    have opened : Emits (·.upload? = none) w (t.opened w) :=
      Emits.performAll (by simp [Event.upload?, Command.isUpload])
    have drawn : Emits (·.upload? = none) ((Program.renderAll t.programs).run (t.opened w)).2
        (drawnInto key t w) := Emits.silent World.events_altered
    refine (((Program.sends_renderAll t.programs (t.opened w)).behind opened).ahead drawn).ahead ?_
    have restored : Emits (·.upload? = none) (drawnInto key t w)
        ((drawnInto key t w).performAll [.bindFramebuffer restore, .viewport 0 0 width height]) :=
      Emits.performAll (by simp [Event.upload?, Command.isUpload])
    exact (restored.trans (Emits.silent World.events_altered)).trans (Emits.silent World.events_notify)

theorem Stack.sends_layered (framebuffer : Option Handle) (width height : UInt32) (layers : List Nat)
    (w : World δ) : Sends ((layerFlushes framebuffer width height layers w).flatMap Flush.uploads) w
      (layered framebuffer width height layers w) := by
  induction layers generalizing w with
  | nil => exact Sends.refl w
  | cons key rest ih =>
    unfold layerFlushes
    rw [List.flatMap_append]
    exact (RenderTexture.sends_renderInto key framebuffer width height w).trans (ih _)

theorem FrameStart.sends_renderTo (f : FrameStart δ) : Sends (f.flushes.flatMap Flush.uploads) f.world
    ((f.stack.renderTo f.target f.width f.height).run f.world).2 := by
  have targeted : Emits (·.upload? = none) f.world
      (Stack.targeted f.target f.width f.height f.world) := by
    unfold Stack.targeted
    split
    · exact Emits.performAll (by simp [Event.upload?, Command.isUpload])
    · exact Emits.refl _
  have layers := (Stack.sends_layered f.target f.width f.height f.stack.layers _).behind targeted
  rw [Stack.run_renderTo, flushes, List.flatMap_append]
  exact (layers.trans (Program.sends_renderAll f.stack.programs f.layered)).ahead (Emits.silent rfl)

namespace Session

variable {s : Session δ} {step : SessionStep}

theorem sends_render (i : Nat) : Sends ((s.flushes (.render i)).flatMap Flush.uploads) s.world
    (s.perform (.render i)).world := by
  have flushes : s.flushes (.render i) = ((s.frame? (.render i)).map FrameStart.flushes).getD [] := rfl
  change Sends _ s.world (s.onStack i Stack.render).world
  rw [flushes, frame?]
  cases found : s.liveStacks[i]? with
  | none =>
    rw [onStack_none found]
    exact Sends.refl _
  | some stack =>
    rw [onStack_some found]
    exact FrameStart.sends_renderTo ⟨stack, none, stack.width, stack.height, s.world⟩

theorem sends_read (i : Nat) (c : ReadConfig) : Sends ((s.flushes (.read i c)).flatMap Flush.uploads)
    s.world (s.perform (.read i c)).world := by
  have flushes : s.flushes (.read i c) = ((s.frame? (.read i c)).map FrameStart.flushes).getD [] := rfl
  have perform : s.perform (.read i c) = s.onStack i (readStack c) := rfl
  rw [flushes, perform, frame?]
  cases found : s.liveStacks[i]? with
  | none =>
    rw [onStack_none found]
    exact Sends.refl _
  | some stack =>
    rw [onStack_some found, Option.bind_some]
    refine Stack.readStack_of_frame (fun frame _ w => Sends
      (((frame.map FrameStart.flushes).getD []).flatMap Flush.uploads) s.world w)
      Stack.setup_bindTarget (Sends.refl _) (fun _ w bound => ?_) fun framebuffer stack' w bound => ?_
    · exact Sends.nothing (bound.mono fun _ => Event.upload?_of_isSetup)
    · have cleared : Emits (·.upload? = none) s.world (w.perform (.clear .opaqueBlack .one)) :=
        (bound.2.mono fun _ => Event.upload?_of_isSetup).push rfl
      have restored (v : World δ) (r : PixelRead) (width height : UInt32) :
          Emits (·.upload? = none) v
            ((v.readBack r).performAll [.bindFramebuffer none, .viewport 0 0 width height]) :=
        (Emits.emit (by rfl)).trans (Emits.performAll (by simp [Event.upload?, Command.isUpload]))
      exact ((FrameStart.sends_renderTo _).behind cleared).ahead (restored _ _ _ _)

theorem sends_renderTexture (key : Nat) : Sends ((s.flushes (.renderTexture key)).flatMap Flush.uploads)
    s.world (s.perform (.renderTexture key)).world := by
  have flushes : s.flushes (.renderTexture key) =
    if key ∈ s.held then RenderTexture.flushes key s.world else [] := rfl
  rw [flushes]
  by_cases held : key ∈ s.held
  · have perform : s.perform (.renderTexture key) =
      { s with world := ((RenderTexture.render key).run s.world).2 } := if_pos held
    rw [if_pos held, perform]
    cases present : s.world.texture? key with
    | none =>
      rw [RenderTexture.run_render_missing present, RenderTexture.flushes, present]
      exact Sends.refl _
    | some t =>
      rw [RenderTexture.run_render present]
      exact RenderTexture.sends_renderInto key none t.width t.height s.world
  · have perform : s.perform (.renderTexture key) = s := if_neg held
    rw [if_neg held, perform]
    exact Sends.refl _

/-- A call that compiles nothing uploads what its flushes upload, and nothing else. -/
theorem sends_perform (step : SessionStep)
    (other : ∀ i vertex fragment config, step ≠ .compile i vertex fragment config) :
    Sends ((s.flushes step).flatMap Flush.uploads) s.world (s.perform step).world := by
  cases step with
  | compile i vertex fragment config => exact absurd rfl (other i vertex fragment config)
  | renderProgram j =>
    change Sends ((s.aside[j]?.map fun p => Flush.mk p s.world).toList.flatMap Flush.uploads) s.world
      (s.renderAside j).world
    unfold renderAside
    cases s.aside[j]? with
    | none => exact Sends.refl _
    | some p =>
      have flushes : (Option.some (Flush.mk p s.world)).toList.flatMap Flush.uploads =
        Flush.uploads ⟨p, s.world⟩ := List.append_nil _
      exact flushes ▸ Flush.sends_render ⟨p, s.world⟩
  | render i => exact sends_render i
  | read i c => exact sends_read i c
  | renderTexture key => exact sends_renderTexture key
  | clear => exact Sends.nothing (Emits.emit rfl)
  | resize i width height =>
    refine Sends.nothing ?_
    change Emits _ s.world (s.onStack i (Stack.resize width height)).world
    refine world_onStack (Emits _ s.world) (Emits.refl _) fun stack _ => ?_
    rw [Stack.run_resize]
    split
    · exact Emits.refl _
    · have sized : Emits (·.upload? = none) s.world (s.world.perform (.viewport 0 0 width height)) :=
        Emits.emit rfl
      exact sized.trans (Emits.foldl fun _ _ _ => Emits.emit rfl)
  | makeStack supported width height options =>
    refine Sends.nothing ?_
    have made : Emits (·.isSetup) s.world (s.perform (.makeStack supported width height options)).world :=
      attempt_of_ends (fun s' => Emits _ s.world s'.world) Stack.setup_make
    exact made.mono fun _ => Event.upload?_of_isSetup
  | makeTexture width height =>
    refine Sends.nothing ?_
    have made : Emits (·.isSetup) s.world (s.perform (.makeTexture width height)).world :=
      attempt_of_ends (fun s' => Emits _ s.world s'.world) RenderTexture.setup_make
    exact made.mono fun _ => Event.upload?_of_isSetup
  | _ => exact Sends.nothing ((erases_perform rfl).mono fun _ => Event.upload?_of_isErasure)

end Session
end ShaderStack

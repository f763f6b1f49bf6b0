import ShaderStack.Proofs.Histories

/-! Parts of a program that none of its updates writes to.

In a call only flushes write to buffers and vertex arrays that are there before and after it, and each
flush writes to the cells of its own program's updates. Programs own different objects, so that what is
left out by the updates of one program is what it was when the program was built. -/
namespace ShaderStack

open World (Emits Spares)

variable {δ : Type} [GraphicsDevice δ] {w w₁ w₂ : World δ} {c : Cell}

namespace Program

variable {p q : Program} {tokens : List Token}

/-- No update of the program writes to the cell. -/
def Avoids (p : Program) (c : Cell) : Prop :=
  ∀ e ∈ p.bindings.queue.entries, c ∉ e.2.cells p.handle p.bindings.vertexArray

/-- A part of the program's buffers or of its vertex array that no update writes to. -/
structure Rests (p : Program) (c : Cell) : Prop where
  owned : ∃ o ∈ p.owns, c.object? = some o
  indexed : (∃ vertexArray, c = .elementArray vertexArray) ∨ ∃ h, c = .buffer h
  avoided : p.Avoids c

omit [GraphicsDevice δ] in
theorem Avoids.of_frozen (avoids : p.Avoids c) (same : q.frozen = p.frozen) : q.Avoids c := by
  intro e member
  obtain ⟨e', there, _, update⟩ := UpdateQueue.exists_frozen (entries_of_frozen same) e member
  obtain ⟨handle, vertexArray⟩ := handles_of_frozen same
  rw [handle, vertexArray, Update.cells_of_frozen update]
  exact avoids e' there

omit [GraphicsDevice δ] in
theorem Rests.of_frozen (rests : p.Rests c) (same : q.frozen = p.frozen) : q.Rests c := by
  refine ⟨?_, rests.indexed, rests.avoided.of_frozen same⟩
  rw [owns_of_frozen same]
  exact rests.owned

/-- What the updates leave alone is as it was when the program draws. -/
theorem same_before (avoids : p.Avoids c) : c.Same w.graphics (p.before w).graphics := by
  obtain ⟨bound, used⟩ := inUse_readied (p := p) (w := w)
  rw [graphics_before_eq, Bindings.run_flush]
  exact same_readied.trans (UpdateQueue.same_ran bound used avoids)

/-- A draw writes to nothing but a texture. -/
theorem same_avoided (avoids : p.Avoids c) (untextured : ∀ h, c ≠ .texture h) :
    c.Same w.graphics (p.render.run w).2.graphics :=
  (same_before avoids).trans (same_draw fun h _ => untextured h)

omit [GraphicsDevice δ] in
/-- The updates of other programs write to parts of other objects. -/
theorem Wired.avoids (wired : p.Wired tokens)
    (indexed : (∃ vertexArray, c = .elementArray vertexArray) ∨ ∃ h, c = .buffer h)
    (other : ∀ o, c.object? = some o → o ∉ p.owns) : p.Avoids c := by
  intro e member written
  rcases List.mem_append.mp written with stored | pushed
  · obtain ⟨o, mine, part⟩ := wired.owned e member c stored
    exact other o part mine
  · obtain ⟨slot, u⟩ := e
    rcases indexed with ⟨vertexArray, rfl⟩ | ⟨h, rfl⟩ <;> cases u <;> simp [Update.pushes] at pushed

omit [GraphicsDevice δ] in
theorem Rests.untextured (rests : p.Rests c) (h : Handle) : c ≠ .texture h := by
  rcases rests.indexed with ⟨vertexArray, rfl⟩ | ⟨h', rfl⟩ <;> simp

end Program

/-- Programs that share an object are one. -/
theorem eq_of_owned {ps : List Program} (distinct : (ps.map Program.owns).sum.Nodup) {p q : Program}
    (there : p ∈ ps) (here : q ∈ ps) {o : Object} (theirs : o ∈ p.owns) (mine : o ∈ q.owns) : p = q := by
  induction ps with
  | nil => exact absurd there List.not_mem_nil
  | cons r ps ih =>
    rw [List.map_cons, List.sum_cons, Multiset.nodup_add] at distinct
    obtain ⟨_, rest, apart⟩ := distinct
    rcases List.mem_cons.mp there with rfl | later <;> rcases List.mem_cons.mp here with rfl | later'
    · rfl
    · exact absurd (mem_sum_owned later' mine) (Multiset.disjoint_left.mp apart theirs)
    · exact absurd (mem_sum_owned later theirs) (Multiset.disjoint_left.mp apart mine)
    · exact ih rest later later'

namespace Evolves

variable {ps qs : List Program} {fs : List (Flush δ)}

/-- Each flush is one of a program that was there, up to what its updates remember. -/
theorem exists_origin (run : Evolves ps fs qs) :
    ∀ f ∈ fs, ∃ p ∈ ps, f.program.frozen = p.frozen := by
  induction run with
  | still same => exact fun f none => absurd none List.not_mem_nil
  | @flush ps rest qs f fs taken later ih =>
    intro g member
    rcases List.mem_cons.mp member with rfl | later
    · exact ⟨g.program, taken.mem_iff.mpr List.mem_cons_self, rfl⟩
    · obtain ⟨p, there, same⟩ := ih g later
      rcases List.mem_cons.mp there with rfl | waits
      · exact ⟨f.program, taken.mem_iff.mpr List.mem_cons_self, same.trans Program.frozen_flushed⟩
      · exact ⟨p, taken.mem_iff.mpr (List.mem_cons_of_mem _ waits), same⟩

end Evolves

/-- The cell is the same at some flushes, and in the end. -/
def Cell.Lasts (c : Cell) (fs : List (Flush δ)) (w w' : World δ) : Prop :=
  (∀ f ∈ fs, c.Same w.graphics f.world.graphics) ∧ c.Same w.graphics w'.graphics

namespace Cell.Lasts

variable {fs gs : List (Flush δ)}

omit [GraphicsDevice δ] in
theorem nothing (same : c.Same w.graphics w₁.graphics) : c.Lasts [] w w₁ :=
  ⟨fun _ none => absurd none List.not_mem_nil, same⟩

omit [GraphicsDevice δ] in
theorem trans (first : c.Lasts fs w w₁) (second : c.Lasts gs w₁ w₂) : c.Lasts (fs ++ gs) w w₂ := by
  refine ⟨fun f member => ?_, first.2.trans second.2⟩
  rcases List.mem_append.mp member with early | late
  · exact first.1 f early
  · exact first.2.trans (second.1 f late)

omit [GraphicsDevice δ] in
theorem some_of (lasts : c.Lasts fs w w₁) (fewer : ∀ g ∈ gs, g ∈ fs) : c.Lasts gs w w₁ :=
  ⟨fun g member => lasts.1 g (fewer g member), lasts.2⟩

end Cell.Lasts

/-- From one world to another nothing but some flushes writes to the cell. -/
def Cell.OnlyIn (c : Cell) : List (Flush δ) → World δ → World δ → Prop
  | [], w, w₁ => c.Same w.graphics w₁.graphics
  | f :: fs, w, w₁ => c.Same w.graphics f.world.graphics ∧
      c.OnlyIn fs (f.program.render.run f.world).2 w₁

namespace Cell.OnlyIn

variable {fs gs : List (Flush δ)}

theorem behind (start : c.Same w.graphics w₁.graphics) (rest : c.OnlyIn fs w₁ w₂) : c.OnlyIn fs w w₂ := by
  cases fs with
  | nil => exact start.trans rest
  | cons f fs => exact ⟨start.trans rest.1, rest.2⟩

theorem trans (first : c.OnlyIn fs w w₁) (second : c.OnlyIn gs w₁ w₂) : c.OnlyIn (fs ++ gs) w w₂ := by
  induction fs generalizing w with
  | nil => exact second.behind first
  | cons f fs ih => exact ⟨first.1, ih first.2⟩

theorem ahead (first : c.OnlyIn fs w w₁) (last : c.Same w₁.graphics w₂.graphics) : c.OnlyIn fs w w₂ := by
  have whole : c.OnlyIn (fs ++ []) w w₂ := first.trans last
  rwa [List.append_nil] at whole

/-- If no flushed program writes to the cell, it stays as it is. -/
theorem lasts (run : c.OnlyIn fs w w₁) (untextured : ∀ h, c ≠ .texture h)
    (avoids : ∀ f ∈ fs, f.program.Avoids c) : c.Lasts fs w w₁ := by
  induction fs generalizing w with
  | nil => exact Lasts.nothing run
  | cons f fs ih =>
    obtain ⟨start, rest⟩ := run
    have flushed : c.Lasts [f] w (f.program.render.run f.world).2 := by
      refine ⟨fun g member => ?_, start.trans (Program.same_avoided (avoids f List.mem_cons_self) untextured)⟩
      obtain rfl : g = f := List.mem_singleton.mp member
      exact start
    exact flushed.trans (ih rest fun g member => avoids g (List.mem_cons_of_mem f member))

end Cell.OnlyIn

theorem Program.only_renderAll (ps : List Program) (w : World δ) :
    c.OnlyIn (flushes ps w) w ((renderAll ps).run w).2 := by
  induction ps generalizing w with
  | nil => exact Cell.Same.refl c _
  | cons p ps ih =>
    rw [renderAll_cons]
    exact ⟨Cell.Same.refl c _, ih _⟩

section Frames

variable (untextured : ∀ h, c ≠ .texture h)
include untextured

/-- Choosing where to draw, and clearing it, write to nothing but a texture. -/
theorem World.same_aimed {cs : List Command} (aims : ∀ d ∈ cs, (∃ f, d = .bindFramebuffer f) ∨
      (∃ x y width height, d = .viewport x y width height) ∨ ∃ color depth, d = .clear color depth) :
    c.Same w.graphics (w.performAll cs).graphics := by
  induction cs generalizing w with
  | nil => exact Cell.Same.refl c _
  | cons d cs ih =>
    have head : c.Same w.graphics (w.perform d).graphics := by
      rw [World.graphics_emit]
      refine GraphicsState.same_after ?_
      rcases aims d List.mem_cons_self with ⟨f, rfl⟩ | ⟨x, y, width, height, rfl⟩ | ⟨color, depth, rfl⟩
      · simp [GraphicsState.writes, Command.deletes?]
      · simp [GraphicsState.writes, Command.deletes?]
      · rintro ⟨h, _, rfl⟩
        exact untextured h rfl
    exact head.trans (ih fun d' member => aims d' (List.mem_cons_of_mem d member))

theorem RenderTexture.only_renderInto (key : Nat) (restore : Option Handle) (width height : UInt32)
    (w : World δ) : c.OnlyIn (flushes key w) w ((renderInto key restore width height).run w).2 := by
  unfold flushes
  cases present : w.texture? key with
  | none =>
    rw [run_renderInto_missing present]
    exact Cell.Same.refl c _
  | some t =>
    rw [run_renderInto present]
    have opened : c.Same w.graphics (t.opened w).graphics :=
      World.same_aimed untextured (by simp)
    have silent {w w' : World δ} (events : w'.events = w.events) : c.Same w.graphics w'.graphics := by
      rw [World.graphics_of_events events]
      exact Cell.Same.refl c _
    have restored : c.Same (drawnInto key t w).graphics ((drawnInto key t w).performAll
        [.bindFramebuffer restore, .viewport 0 0 width height]).graphics :=
      World.same_aimed untextured (by simp)
    refine ((Program.only_renderAll t.programs (t.opened w)).behind opened).ahead ?_
    refine ((silent World.events_altered).trans restored).trans ?_
    exact (silent World.events_altered).trans (silent World.events_notify)

theorem Stack.only_layered (framebuffer : Option Handle) (width height : UInt32) (layers : List Nat)
    (w : World δ) : c.OnlyIn (layerFlushes framebuffer width height layers w) w
      (layered framebuffer width height layers w) := by
  induction layers generalizing w with
  | nil => exact Cell.Same.refl c _
  | cons key rest ih =>
    exact (RenderTexture.only_renderInto untextured key framebuffer width height w).trans (ih _)

theorem FrameStart.only_renderTo (f : FrameStart δ) : c.OnlyIn f.flushes f.world
    ((f.stack.renderTo f.target f.width f.height).run f.world).2 := by
  have targeted : c.Same f.world.graphics
      (Stack.targeted f.target f.width f.height f.world).graphics := by
    unfold Stack.targeted
    split
    · exact World.same_aimed untextured (by simp)
    · exact Cell.Same.refl c _
  have layers := Stack.only_layered untextured f.target f.width f.height f.stack.layers
    (Stack.targeted f.target f.width f.height f.world)
  rw [Stack.run_renderTo]
  refine ((layers.behind targeted).trans
    (Program.only_renderAll f.stack.programs f.layered)).ahead ?_
  exact Cell.Same.refl c _

end Frames

namespace Session

variable {s : Session δ} {step : SessionStep} {tokens : List Token} {origin : Program → Prop}
  {p q : Program}

theorem only_renderProgram (j : Nat) : c.OnlyIn (s.flushes (.renderProgram j)) s.world
    (s.perform (.renderProgram j)).world := by
  have flushes : s.flushes (.renderProgram j) =
    (s.aside[j]?.map fun p => Flush.mk p s.world).toList := rfl
  change c.OnlyIn _ s.world (s.renderAside j).world
  unfold renderAside
  rw [flushes]
  cases s.aside[j]? with
  | none => exact Cell.Same.refl c _
  | some p => exact ⟨Cell.Same.refl c _, Cell.Same.refl c _⟩

section Calls

variable (untextured : ∀ h, c ≠ .texture h)
include untextured

theorem only_render (i : Nat) : c.OnlyIn (s.flushes (.render i)) s.world
    (s.perform (.render i)).world := by
  have flushes : s.flushes (.render i) = ((s.frame? (.render i)).map FrameStart.flushes).getD [] := rfl
  change c.OnlyIn _ s.world (s.onStack i Stack.render).world
  rw [flushes, frame?]
  cases found : s.liveStacks[i]? with
  | none =>
    rw [onStack_none found]
    exact Cell.Same.refl c _
  | some stack =>
    rw [onStack_some found]
    exact FrameStart.only_renderTo untextured ⟨stack, none, stack.width, stack.height, s.world⟩

theorem only_renderTexture (key : Nat) : c.OnlyIn (s.flushes (.renderTexture key)) s.world
    (s.perform (.renderTexture key)).world := by
  have flushes : s.flushes (.renderTexture key) =
    if key ∈ s.held then RenderTexture.flushes key s.world else [] := rfl
  rw [flushes]
  by_cases held : key ∈ s.held
  · have perform : s.perform (.renderTexture key) =
      { s with world := ((RenderTexture.render key).run s.world).2 } := if_pos held
    rw [if_pos held, perform]
    cases present : s.world.texture? key with
    | none =>
      rw [RenderTexture.run_render_missing present, RenderTexture.flushes, present]
      exact Cell.Same.refl c _
    | some t =>
      rw [RenderTexture.run_render present]
      exact RenderTexture.only_renderInto untextured key none t.width t.height s.world
  · have perform : s.perform (.renderTexture key) = s := if_neg held
    rw [if_neg held, perform]
    exact Cell.Same.refl c _

/-- A readback makes a target at most, and then draws a frame. -/
theorem Prepared.only_read {i : Nat} {config : ReadConfig} {o : Object}
    (prepared : s.Prepared tokens origin) (sound : s.Sound) (part : c.object? = some o)
    (owned : o ∈ s.world.owns + s.owns)
    (minting : Minting (s.perform (.read i config)).world.events) :
    c.OnlyIn (s.flushes (.read i config)) s.world (s.perform (.read i config)).world := by
  have flushes : s.flushes (.read i config) =
    ((s.frame? (.read i config)).map FrameStart.flushes).getD [] := rfl
  have perform : s.perform (.read i config) = s.onStack i (readStack config) := rfl
  rw [perform] at minting ⊢
  rw [flushes, frame?]
  cases found : s.liveStacks[i]? with
  | none =>
    rw [onStack_none found]
    exact Cell.Same.refl c _
  | some stack =>
    rw [onStack_some found] at minting ⊢
    rw [Option.bind_some]
    obtain ⟨others, more, owns, held, _⟩ := split_stack found
    have kept : World.Kept (stack.owns + others) (stack.layers + more) s.world := by
      rw [← owns, ← held]
      exact sound
    have spared {w : World δ} (spares : Spares (· ∈ s.world.owns + s.owns) s.world w) :
        c.Same s.world.graphics w.graphics := spares.same prepared.free c o part owned
    revert minting
    refine Stack.readStack_of_frame (fun frame _ w => Minting w.events →
      c.OnlyIn ((frame.map FrameStart.flushes).getD []) s.world w)
      (Stack.mounted_bindTarget sound fun f mine => prepared.mounted f
        (mem_mounts.mpr (.inl ⟨stack, List.mem_of_getElem? found, mine⟩)))
      (fun _ => Cell.Same.refl c _) (fun _ w refused minting => spared (refused.2 minting))
      fun framebuffer stack' w bound => ?_
    intro f after minting
    have drawing : World.Extends (·.isFrame) RenderTexture.shell f.world after.2 := Stack.extends_renderTo
    have early : Minting w.events := World.minting_of_emit
      (drawing.events.minting (World.minting_of_emit (World.minting_of_performAll minting)))
    have cleared : c.Same w.graphics (w.performAll [.clear .opaqueBlack .one]).graphics :=
      World.same_aimed untextured (by simp)
    have read : c.Same after.2.graphics (after.2.readBack (Stack.pixelRead config f.width f.height)).graphics := by
      rw [World.graphics_emit]
      exact Cell.Same.refl c _
    obtain ⟨_, _, _, _, spares, _⟩ := bound
    refine ((FrameStart.only_renderTo untextured f).behind ((spared (spares early)).trans cleared)).ahead ?_
    exact read.trans (World.same_aimed untextured (by simp))

end Calls

/-- What no update of a program writes to comes through a call that the program comes through. -/
theorem Prepared.keeps (prepared : s.Prepared tokens origin) (sound : s.Sound)
    (screen : s.world.graphics.framebuffer = none)
    (minting : Minting (s.perform step).world.events) (words : WordNames (s.perform step).world.events)
    (old : q ∈ s.programs) (rests : q.Rests c) (new : p ∈ (s.perform step).programs)
    (same : p.frozen = q.frozen) : c.Lasts (s.flushes step) s.world (s.perform step).world := by
  have early : Minting s.world.events := (grows_perform step).minting minting
  have distinct : (s.programs.map Program.owns).sum.Nodup := by
    have live := nodup_live early
    rw [sound.accounted.2, owns_eq, Multiset.nodup_add] at live
    exact live.1
  obtain ⟨o, mine, part⟩ := rests.owned
  have avoids : ∀ r ∈ s.programs, r.Avoids c := by
    intro r there
    by_cases equal : r = q
    · exact equal ▸ rests.avoided
    · refine (prepared.programs r there).wired.avoids rests.indexed fun o' part' theirs => ?_
      obtain rfl : o = o' := Option.some.inj (part.symm.trans part')
      exact equal (eq_of_owned distinct there old theirs mine)
  have drawn {qs : List Program} (evolves : Evolves s.programs (s.flushes step) qs)
      (only : c.OnlyIn (s.flushes step) s.world (s.perform step).world) :
      c.Lasts (s.flushes step) s.world (s.perform step).world := by
    refine only.lasts rests.untextured fun f member => ?_
    obtain ⟨r, there, origin⟩ := evolves.exists_origin f member
    exact (avoids r there).of_frozen origin
  have spared {kept : Object → Prop} (none : s.flushes step = [])
      (spares : Spares kept s.world (s.perform step).world) (keep : kept o) :
      c.Lasts (s.flushes step) s.world (s.perform step).world := by
    rw [none]
    exact .nothing (spares.same prepared.free c o part keep)
  have beside : o ∈ s.world.owns + s.owns := mem_owns_of_program old mine
  have upkeep (upkeep : step.isUpkeep) (none : s.flushes step = []) :
      c.Lasts (s.flushes step) s.world (s.perform step).world := by
    refine spared none (spares_perform upkeep sound screen early) (mem_owns_of_program new ?_)
    rwa [Program.owns_of_frozen same]
  cases step with
  | renderProgram j => exact drawn (evolves_renderProgram j) (only_renderProgram j)
  | render i => exact drawn (evolves_render i) (only_render rests.untextured i)
  | renderTexture key => exact drawn (evolves_renderTexture key) (only_renderTexture rests.untextured key)
  | read i config =>
    exact drawn (evolves_read i config sound)
      (prepared.only_read rests.untextured sound part beside minting)
  | compile i vertex fragment config =>
    cases found : s.liveStacks[i]? with
    | none =>
      refine spared rfl ?_ beside
      rw [perform_compile_missing found]
      exact Spares.refl s.world
    | some stack =>
      have equipped : Spares (· ∈ s.world.owns + s.owns) s.world
          (s.perform (.compile i vertex fragment config)).world ∧
          ∀ p : Program, _ → ∃ bound, _ ∧ p.Equipped (s.moment (tokens ++ _)) bound _ :=
        equipped_perform found sound prepared.free minting words
      exact spared rfl equipped.1 beside
  | makeTexture width height =>
    refine spared rfl ?_ beside
    have made : Minting (s.perform (.makeTexture width height)).world.events →
        Spares (· ∈ s.world.owns + s.owns) s.world (s.perform (.makeTexture width height)).world :=
      attempt_of_ends (fun s' => Minting s'.world.events → Spares _ s.world s'.world)
        ((RenderTexture.mounted_make sound).imp (fun _ _ made minting => (made minting).1)
          fun _ _ failed minting => failed.2 minting)
    exact made minting
  | _ => exact upkeep rfl rfl

variable {steps : List SessionStep}

/-- In each flush of a program, and still, what its updates leave alone is what it was when the program
was built. -/
def Past.Rests (past : Past steps s p) : Prop :=
  ∀ c, past.built.Rests c →
    c.Lasts past.flushes (past.start.perform past.step).world (run steps s).world

/-- Every program of a session has a past in which that is so. -/
theorem exists_rested_past {device : δ} {host : Host} (steps : List SessionStep)
    (minting : Minting (run steps (fresh device host)).world.events)
    (words : WordNames (run steps (fresh device host)).world.events) :
    ∀ p ∈ (run steps (fresh device host)).programs, ∃ past : Past steps (fresh device host) p,
      past.Rests := by
  induction steps using List.reverseRecOn with
  | nil => exact fun p member => absurd member (by simp [run, programs_fresh])
  | append_singleton steps step ih =>
    intro p member
    have next : run (steps ++ [step]) (fresh device host) = (run steps (fresh device host)).perform step :=
      run_append
    rw [next] at member minting words
    have grown := grows_perform (s := run steps (fresh device host)) step
    have early := grown.minting minting
    obtain ⟨prepared, sound, screen⟩ := prepared_run_fresh early (grown.words words)
    rcases runs_perform step sound early p member with built | ⟨q, there, last⟩
    · refine ⟨.ofBuilt built, fun c _ => .nothing ?_⟩
      rw [next]
      exact Cell.Same.refl c _
    · obtain ⟨past, rested⟩ := ih early (grown.words words) q there
      refine ⟨past.next last, fun c rests => ?_⟩
      have lasts := prepared.keeps sound screen minting words there (rests.of_frozen past.runs.frozen)
        member last.frozen
      have still : c.Lasts (q.own ((run steps (fresh device host)).flushes step)) _ _ :=
        lasts.some_of fun f own => (List.mem_filter.mp own).1
      rw [past.flushes_next, next]
      exact (rested c rests).trans still

end Session
end ShaderStack

import ShaderStack.Proofs.Preparation

/-! Calls that make no program and draw nothing.

They move programs about or let go of them, so that whatever is there in the end was there before and is
as it was. -/
namespace ShaderStack

open World (Extends Emits Spares)

/-- The calls that draw nothing and make neither programs nor framebuffers. -/
def SessionStep.isUpkeep : SessionStep → Bool
  | compile _ _ _ _ | renderProgram _ | render _ | read _ _ | makeTexture _ _
  | renderTexture _ => false
  | _ => true

section Clear

variable {δ : Type} [GraphicsDevice δ] {w : World δ}

/-- Clearing a framebuffer without a texture changes nothing that draws depend on. -/
theorem World.graphics_cleared (color : Color) (depth : Single)
    (blank : w.graphics.framebuffer.bind w.graphics.attachments = none) :
    (w.perform (.clear color depth)).graphics = w.graphics := by
  rw [World.graphics_emit]
  simp [GraphicsState.after, GraphicsState.afterCommand, GraphicsState.drawInto, GraphicsState.target?,
    blank]

theorem World.Spares.cleared {kept : Object → Prop} (color : Color) (depth : Single)
    (blank : w.graphics.framebuffer.bind w.graphics.attachments = none) :
    Spares kept w (w.perform (.clear color depth)) := by
  have same := graphics_cleared color depth blank
  refine ⟨fun free => same ▸ free, fun _ c _ _ _ => ?_⟩
  rw [same]
  exact Cell.Same.refl c _

end Clear

namespace Session

variable {δ : Type} {s s' : Session δ}

namespace Within

theorem refl (s : Session δ) : s.Within s := ⟨fun _ => id, fun _ => id⟩

theorem of_world (aside : s'.aside = s.aside) (live : s'.liveStacks = s.liveStacks)
    (within : s.world.Within s'.world) : s.Within s' where
  programs p member := by
    rw [mem_programs, aside, live] at member
    exact mem_programs.mpr (member.imp_right (Or.imp_right (within.programs p)))
  mounts f member := by
    rw [mem_mounts, live] at member
    exact mem_mounts.mpr (member.imp_right (within.mounts f))

theorem takeAside {j : Nat} {use : Program → Session δ → Session δ}
    (each : ∀ p s', (∀ q ∈ (use p s').programs, q = p ∨ q ∈ s'.programs) ∧
      ∀ f ∈ (use p s').mounts, f ∈ s'.mounts) : s.Within (s.takeAside j use) := by
  unfold Session.takeAside
  split
  · exact refl s
  · next p found =>
    obtain ⟨programs, mounts⟩ := each p { s with aside := s.aside.eraseIdx j }
    refine ⟨fun q member => ?_, mounts⟩
    rw [mem_programs]
    rcases programs q member with rfl | old
    · exact .inl (List.mem_of_getElem? found)
    · exact (mem_programs.mp old).imp_left List.mem_of_mem_eraseIdx

theorem addStack {stack : Stack} {w : World δ} (none : stack.programs = [])
    (bare : stack.targets = []) (within : s.world.Within w) :
    s.Within { s with world := w, liveStacks := s.liveStacks ++ [stack] } where
  programs p member := by
    rw [mem_programs] at member ⊢
    refine member.imp_right (Or.imp ?_ (within.programs p))
    simp [or_and_right, exists_or, none]
  mounts f member := by
    rw [mem_mounts] at member ⊢
    refine member.imp ?_ (within.mounts f)
    simp [or_and_right, exists_or, Stack.mounts, bare]

theorem onHeld {key : Nat} {call : Session δ → Session δ} (within : s.Within (call s)) :
    s.Within (s.onHeld key call) := by
  unfold Session.onHeld
  split
  · exact within
  · exact refl s

theorem of_set {i : Nat} {stack stack' : Stack} {w : World δ} (found : s.liveStacks[i]? = some stack)
    (programs : ∀ p ∈ stack'.programs, p ∈ stack.programs)
    (mounts : ∀ f ∈ stack'.mounts, f ∈ stack.mounts) (within : s.world.Within w) :
    s.Within { s with world := w, liveStacks := s.liveStacks.set i stack' } where
  programs p member := by
    rw [mem_programs] at member ⊢
    refine member.imp_right (Or.imp (fun own => ?_) (within.programs p))
    exact (exists_of_set own).elim (fun mine => ⟨stack, List.mem_of_getElem? found, programs p mine⟩) id
  mounts f member := by
    rw [mem_mounts] at member ⊢
    refine member.imp (fun own => ?_) (within.mounts f)
    exact (exists_of_set own).elim (fun mine => ⟨stack, List.mem_of_getElem? found, mounts f mine⟩) id

theorem onStack {i : Nat} {action : Stack → Engine δ Stack}
    (each : ∀ (stack : Stack) (w : World δ),
      (∀ p ∈ ((action stack).run w).1.programs, p ∈ stack.programs) ∧
      (∀ f ∈ ((action stack).run w).1.mounts, f ∈ stack.mounts) ∧
      w.Within ((action stack).run w).2) : s.Within (s.onStack i action) := by
  cases found : s.liveStacks[i]? with
  | none =>
    rw [onStack_none found]
    exact refl s
  | some stack =>
    rw [onStack_some found]
    obtain ⟨programs, mounts, within⟩ := each stack s.world
    exact of_set found programs mounts within

end Within

theorem within_addToStack (i : Nat) (p : Program) (s : Session δ) :
    (∀ q ∈ (addToStack i p s).programs, q = p ∨ q ∈ s.programs) ∧
      ∀ f ∈ (addToStack i p s).mounts, f ∈ s.mounts := by
  unfold addToStack
  split
  · refine ⟨fun q member => ?_, fun f => id⟩
    rw [mem_programs] at member ⊢
    rcases member with new | old
    · rcases List.mem_append.mp new with aside | new
      · exact .inr (.inl aside)
      · exact .inl (List.mem_singleton.mp new)
    · exact .inr (.inr old)
  · next stack found =>
    have there := List.mem_of_getElem? found
    refine ⟨fun q member => ?_, fun f member => ?_⟩
    · rw [mem_programs] at member ⊢
      rcases member with aside | own | texture
      · exact .inr (.inl aside)
      · rcases exists_of_set own with mine | old
        · rcases List.mem_append.mp mine with mine | new
          · exact .inr (.inr (.inl ⟨stack, there, mine⟩))
          · exact .inl (List.mem_singleton.mp new)
        · exact .inr (.inr (.inl old))
      · exact .inr (.inr (.inr texture))
    · rw [mem_mounts] at member ⊢
      refine member.imp_left fun own => ?_
      exact (exists_of_set own).elim (fun mine => ⟨stack, there, mine⟩) id

variable [GraphicsDevice δ] {step : SessionStep}

omit [GraphicsDevice δ] in
theorem within_addToTexture (key : Nat) (p : Program) (s : Session δ) :
    (∀ q ∈ programs { s with world := ((RenderTexture.add key p).run s.world).2 },
        q = p ∨ q ∈ s.programs) ∧
      ∀ f ∈ mounts { s with world := ((RenderTexture.add key p).run s.world).2 }, f ∈ s.mounts := by
  have added : ((RenderTexture.add key p).run s.world).2 =
    s.world.altered key fun t => { t with programs := t.programs ++ [p] } := rfl
  rw [added]
  cases present : s.world.texture? key with
  | none =>
    have same : (s.world.altered key fun t => { t with programs := t.programs ++ [p] }) = s.world := by
      simp [World.altered, present]
    rw [same]
    exact ⟨fun q => .inr, fun f => id⟩
  | some t =>
    have found := mem_of_lookup present
    rw [World.altered_of_present present]
    refine ⟨fun q member => ?_, fun f member => ?_⟩
    · rw [mem_programs] at member ⊢
      rcases member with aside | stack | texture
      · exact .inr (.inl aside)
      · exact .inr (.inr (.inl stack))
      · obtain ⟨e, there, mine⟩ := List.mem_flatMap.mp texture
        rcases eq_or_mem_of_mem_assign there with rfl | old
        · rcases List.mem_append.mp mine with mine | new
          · exact .inr (.inr (.inr (List.mem_flatMap.mpr ⟨_, found, mine⟩)))
          · exact .inl (List.mem_singleton.mp new)
        · exact .inr (.inr (.inr (List.mem_flatMap.mpr ⟨e, old, mine⟩)))
    · rw [mem_mounts] at member ⊢
      refine member.imp_right fun layer => ?_
      obtain ⟨e, there, rfl⟩ := List.mem_map.mp layer
      rcases eq_or_mem_of_mem_assign there with rfl | old
      · exact List.mem_map.mpr ⟨_, found, rfl⟩
      · exact List.mem_map.mpr ⟨e, old, rfl⟩

theorem within_dropStack (i : Nat) : s.Within (s.dropStack i) := by
  unfold dropStack
  cases found : s.liveStacks[i]? with
  | none => exact Within.refl s
  | some stack =>
    have within := stack.within_drop s.world
    refine ⟨fun p member => ?_, fun f member => ?_⟩
    · rw [mem_programs] at member ⊢
      refine member.imp_right (Or.imp ?_ (within.programs p))
      exact fun ⟨other, here, mine⟩ => ⟨other, List.mem_of_mem_eraseIdx here, mine⟩
    · rw [mem_mounts] at member ⊢
      refine member.imp ?_ (within.mounts f)
      exact fun ⟨other, here, mine⟩ => ⟨other, List.mem_of_mem_eraseIdx here, mine⟩

/-- Whatever is there after such a call was there before. -/
theorem within_perform (upkeep : step.isUpkeep) : s.Within (s.perform step) := by
  cases step with
  | compile _ _ _ _ | renderProgram _ | render _ | read _ _ | makeTexture _ _ | renderTexture _ =>
    simp [SessionStep.isUpkeep] at upkeep
  | changeHost _ | changeSurface _ _ | clear => exact .of_world rfl rfl (.of_textures rfl)
  | fireSurface name =>
    have told : Extends (fun _ => True) RenderTexture.bare s.world
        (s.world.notify (s.world.surface name).listeners) := Extends.notify
    exact .of_world rfl rfl (.of_extends told)
  | makeStack supported width height options =>
    change s.Within (s.attempt (Stack.make supported width height options) fun stack s =>
      { s with liveStacks := s.liveStacks ++ [stack] })
    refine attempt_of_ends (fun s' => s.Within s') ?_
    rw [Stack.ends_make]
    split
    · exact Within.refl s
    · have probed (names : List String) (w : World δ) :
          (names.foldl (fun w name => w.probed (.enableExtension name)) w).textures = w.textures := by
        induction names generalizing w with
        | nil => rfl
        | cons name names ih => exact ih _
      exact .addStack rfl rfl (.of_textures (probed _ _))
  | addToStack i j =>
    change s.Within (s.takeAside j (addToStack i))
    exact .takeAside (within_addToStack i)
  | addToTexture key j =>
    change s.Within (s.onHeld key fun s => s.takeAside j fun p s =>
      { s with world := ((RenderTexture.add key p).run s.world).2 })
    exact .onHeld (.takeAside (within_addToTexture key))
  | dropProgram j =>
    change s.Within (s.takeAside j fun p s => { s with world := (p.drop.run s.world).2 })
    refine .takeAside fun p s' => ?_
    have dropped : Extends (·.isErasure) RenderTexture.bare s'.world (p.drop.run s'.world).2 :=
      Program.extends_drop
    have within : s'.Within { s' with world := (p.drop.run s'.world).2 } :=
      .of_world rfl rfl (.of_extends dropped)
    exact ⟨fun q member => .inr (within.programs q member), within.mounts⟩
  | resize i width height =>
    change s.Within (s.onStack i (Stack.resize width height))
    refine .onStack fun stack w => ?_
    have sized : Extends (·.isFrame) RenderTexture.bare w ((stack.resize width height).run w).2 :=
      stack.extends_resize width height w
    refine ⟨?_, ?_, .of_extends sized⟩
    all_goals
      rw [Stack.run_resize]
      split <;> exact fun _ => id
  | onResize i listener =>
    change s.Within (s.onStack i fun stack => return stack.onResize listener)
    exact .onStack fun _ _ => ⟨fun _ => id, fun _ => id, .of_textures rfl⟩
  | takeRedraw i =>
    change s.Within (s.onStack i fun stack => do
      discard stack.takeRedrawRequest
      return stack)
    exact .onStack fun _ _ => ⟨fun _ => id, fun _ => id, .of_textures rfl⟩
  | dropStack i => exact within_dropStack i
  | retain key =>
    change s.Within (s.onHeld key fun s =>
      { s with world := ((RenderTexture.retain key).run s.world).2, held := key :: s.held })
    refine .onHeld (.of_world rfl rfl ?_)
    exact .altered fun _ => ⟨rfl, rfl⟩
  | release key =>
    change s.Within (s.onHeld key fun s =>
      { s with world := ((RenderTexture.release key).run s.world).2, held := s.held.erase key })
    exact .onHeld (.of_world rfl rfl (RenderTexture.within_release key))
  | addLayer i key =>
    change s.Within (s.onHeld key (onStack i (Stack.addLayer key)))
    refine .onHeld (.onStack fun stack w => ⟨fun _ => id, fun _ => id, ?_⟩)
    exact .altered fun _ => ⟨rfl, rfl⟩

/-- What such a call leaves there is as it was. -/
theorem spares_perform (upkeep : step.isUpkeep) (sound : s.Sound)
    (screen : s.world.graphics.framebuffer = none) (minting : Minting s.world.events) :
    Spares (· ∈ (s.perform step).world.owns + (s.perform step).owns) s.world (s.perform step).world := by
  have plain (run : Emits (·.isPlain) s.world (s.perform step).world) :
      Spares (· ∈ (s.perform step).world.owns + (s.perform step).owns) s.world
        (s.perform step).world := run.spares_of_isPlain
  cases step with
  | compile _ _ _ _ | renderProgram _ | render _ | read _ _ | makeTexture _ _ | renderTexture _ =>
    simp [SessionStep.isUpkeep] at upkeep
  | clear =>
    have blank : s.world.graphics.framebuffer.bind s.world.graphics.attachments = none := by
      rw [screen]
      rfl
    exact Spares.cleared .opaqueBlack .one blank
  | makeStack supported width height options =>
    refine plain (attempt_of_ends (fun s' => Emits (·.isPlain) s.world s'.world) ?_)
    rw [Stack.ends_make]
    split
    · exact Emits.refl _
    · have probed : Emits (·.isPlain) s.world ((Stack.extensions options).foldl
          (fun w name => w.probed (.enableExtension name)) s.world) :=
        Emits.foldl fun _ _ _ => Emits.emit (by rfl)
      exact (probed.trans (Emits.emit (by rfl))).trans (Emits.silent rfl)
  | resize i width height =>
    refine plain ?_
    change Emits _ s.world (s.onStack i (Stack.resize width height)).world
    refine world_onStack (Emits _ s.world) (Emits.refl _) fun stack _ => ?_
    rw [Stack.run_resize]
    split
    · exact Emits.refl _
    · have sized : Emits (·.isPlain) s.world (s.world.perform (.viewport 0 0 width height)) :=
        Emits.emit (by rfl)
      exact sized.trans (Emits.foldl fun _ _ _ => Emits.emit (by rfl))
  | _ =>
    -- what deletions leave is what is owned in the end
    rw [← (sound_perform _ sound).accounted.2]
    exact (erases_perform rfl).spares_of_isErasure minting

/-- Such a call leaves every program ready. -/
theorem Prepared.upkeep {tokens : List Token} {origin : Program → Prop}
    (prepared : s.Prepared tokens origin) (upkeep : step.isUpkeep) (sound : s.Sound)
    (screen : s.world.graphics.framebuffer = none) (minting : Minting s.world.events) :
    (s.perform step).Prepared tokens origin :=
  prepared.narrow (within_perform upkeep) (spares_perform upkeep sound screen minting)

end Session
end ShaderStack

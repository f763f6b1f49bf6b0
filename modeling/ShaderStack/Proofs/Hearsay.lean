import ShaderStack.Proofs.Heedlessness
import ShaderStack.Proofs.Lifetimes
import ShaderStack.Proofs.Redraws

/-! The requests of listeners that nobody knows of.

Two sessions that differ in who listens do the same. Their requests differ by those that the further
listeners raised and that were not settled since. -/
namespace ShaderStack

open World (Extends Attuned)

variable {δ : Type} {extra : SurfaceId → Subscription → Prop} {w w' : World δ} {k : RedrawKey} {x : Handle}

/-- A further listener hears of new content of a surface. -/
def World.Hidden (extra : SurfaceId → Subscription → Prop) (k : RedrawKey) (x : Handle) (id : SurfaceId) :
    Prop :=
  ∃ l, extra id l ∧ l.redraw = k ∧ l.source = x

open World (Hidden)

/-- A target is heard of by those who are known, or by a further listener. -/
theorem World.Overheard.hears_iff (alike : w.Overheard extra w') (attuned : w'.Attuned) {key : Nat}
    {t : RenderTexture} (present : w.texture? key = some t) :
    w'.Hears k key x ↔ w.Hears k key x ∨ Hidden extra k x (.renderTexture key) := by
  obtain ⟨t', there⟩ : ∃ t', w'.texture? key = some t' := by
    rcases alike.target_cases key with ⟨missing, _⟩ | ⟨_, listeners, _, there⟩
    · exact nomatch missing.symm.trans present
    · exact ⟨_, there⟩
  have texture : t'.texture = t.texture := by
    have same := alike.textureOf? (.renderTexture key)
    simpa [World.textureOf?, present, there] using same
  have known := alike.targets key t t' present there
  constructor
  · rintro ⟨_, found, rfl, l, member, mine⟩
    obtain rfl := Option.some.inj (there.symm.trans found)
    rcases (known l).mp member with here | further
    · exact .inl ⟨t, present, texture.symm, l, here, mine⟩
    · exact .inr ⟨l, further, mine, attuned _ (mem_of_lookup there) l member⟩
  · rintro (⟨_, found, rfl, l, member, mine⟩ | ⟨l, further, mine, rfl⟩)
    · obtain rfl := Option.some.inj (present.symm.trans found)
      exact ⟨t', there, texture, l, (known l).mpr (.inl member), mine⟩
    · have member : l ∈ t'.listeners := (known l).mpr (.inr further)
      exact ⟨t', there, (attuned _ (mem_of_lookup there) l member).symm, l, member, mine⟩

variable [GraphicsDevice δ]

theorem Stack.hearsLayer_iff {framebuffer : Option Handle} {width height : UInt32} {layers : List Nat}
    (alike : w.Overheard extra w') (attuned : w'.Attuned)
    (present : ∀ key ∈ layers, ∃ t, w.texture? key = some t) :
    HearsLayer k x framebuffer width height layers w' ↔
      HearsLayer k x framebuffer width height layers w ∨
        ∃ key ∈ layers, Hidden extra k x (.renderTexture key) := by
  induction layers generalizing w w' with
  | nil => simp [HearsLayer]
  | cons key rest ih =>
    have run : Extends (·.isFrame) RenderTexture.shell w
        ((RenderTexture.renderInto key framebuffer width height).run w).2 :=
      RenderTexture.extends_renderInto
    have after : World.Overheard extra ((RenderTexture.renderInto key framebuffer width height).run w).2
        ((RenderTexture.renderInto key framebuffer width height).run w').2 :=
      (RenderTexture.heedless_renderInto w w' alike).2
    have own : ((RenderTexture.renderInto key framebuffer width height).run w').2.Attuned :=
      (RenderTexture.pending_renderInto (k := k) (x := x) attuned).1
    have there := run.present present
    obtain ⟨t, here⟩ := there key List.mem_cons_self
    unfold HearsLayer
    dsimp only
    have later : ∀ other ∈ rest, _ := fun other member => there other (List.mem_cons_of_mem key member)
    rw [after.hears_iff own here, ih after own later]
    simp only [List.mem_cons, exists_eq_or_imp]
    exact or_or_or_comm

namespace FrameStart

/-- The frame in another world. -/
def into (f : FrameStart δ) (w : World δ) : FrameStart δ := { f with world := w }

theorem raises_iff {f : FrameStart δ} (alike : f.world.Overheard extra w') (attuned : w'.Attuned)
    (present : ∀ key ∈ f.stack.layers, ∃ t, f.world.texture? key = some t) :
    (f.into w').Raises k x ↔ f.Raises k x ∨
      f.stack.redraw ≠ k ∧ ∃ key ∈ f.stack.layers, Hidden extra k x (.renderTexture key) := by
  obtain ⟨stack, target, width, height, w⟩ := f
  have sized : (Stack.targeted target width height w).Overheard extra
      (Stack.targeted target width height w') := by
    unfold Stack.targeted
    split
    · exact alike.performAll _
    · exact alike
  have run : Extends (·.isFrame) RenderTexture.shell w (Stack.targeted target width height w) :=
    Stack.extends_targeted
  unfold Raises into
  dsimp only
  rw [Stack.hearsLayer_iff sized (Stack.hushed_targeted.attuned attuned) (run.present present), ← and_or_left]

omit [GraphicsDevice δ] in
theorem settles_iff {f : FrameStart δ} (alike : f.world.Overheard extra w') :
    (f.into w').Settles k x ↔ f.Settles k x := by
  have textures : f.stack.layerTextures w' = f.stack.layerTextures f.world := by
    unfold Stack.layerTextures
    rw [funext alike.textureOf?]
  unfold Settles into
  dsimp only
  rw [textures]

/-- The same frame where there are further listeners. -/
def Overheard (extra : SurfaceId → Subscription → Prop) (f f' : FrameStart δ) : Prop :=
  ∃ v, f' = f.into v ∧ f.world.Overheard extra v ∧ v.Attuned

end FrameStart

theorem Stack.overheard_readFrame (alike : w.Overheard extra w') (attuned : w'.Attuned) (s : Stack)
    (c : ReadConfig) :
    Option.Rel (FrameStart.Overheard extra) (s.readFrame? c w) (s.readFrame? c w') := by
  have hushed := hushed_bindTarget (w := w') s c (c.width.getD s.width) (c.height.getD s.height)
  have heedless : Attempt.Heedless extra (s.bindTarget c (c.width.getD s.width) (c.height.getD s.height) :
    Attempt δ (Handle × Stack)) := heedless_bindTarget
  obtain ⟨same, after⟩ := heedless w w' alike
  unfold readFrame?
  unfold Attempt.Ends at hushed
  dsimp only
  generalize (s.bindTarget c (c.width.getD s.width) (c.height.getD s.height)).run.run w' = answer'
    at hushed same after ⊢
  generalize (s.bindTarget c (c.width.getD s.width) (c.height.getD s.height)).run.run w = answer
    at same after ⊢
  cases c.validate (c.width.getD s.width) (c.height.getD s.height) with
  | error e => exact .none
  | ok fit =>
    obtain ⟨e | bound, v⟩ := answer <;> obtain ⟨_, v'⟩ := answer' <;> obtain rfl := same
    · exact .none
    · exact .some ⟨_, rfl, after.emit _ _, hushed.attuned attuned⟩

namespace Session

variable {s s' : Session δ}

/-- Both sessions draw the frame of a call, or neither does. -/
theorem overheard_frame (alike : s.Overheard extra s') (attuned : s'.world.Attuned) (step : SessionStep) :
    Option.Rel (FrameStart.Overheard extra) (s.frame? step) (s'.frame? step) := by
  obtain ⟨w', alike, rfl⟩ := alike
  cases step with
  | render i =>
    cases found : s.liveStacks[i]? with
    | none => simp [frame?, found]
    | some stack => simpa [frame?, found] using ⟨w', rfl, alike, attuned⟩
  | read i c =>
    cases found : s.liveStacks[i]? with
    | none => simp [frame?, found]
    | some stack => simpa [frame?, found] using stack.overheard_readFrame alike attuned c
  | _ => exact .none

/-- The layers of a frame are there. -/
theorem present_of_frame (sound : s.Sound) {step : SessionStep} {f : FrameStart δ}
    (drawn : f ∈ s.frame? step) : ∀ key ∈ f.stack.layers, ∃ t, f.world.texture? key = some t := by
  cases step with
  | render i =>
    obtain ⟨stack, found, rfl⟩ := Option.map_eq_some_iff.mp drawn
    exact present_of_stack sound found
  | read i c =>
    obtain ⟨stack, found, read⟩ := Option.bind_eq_some_iff.mp drawn
    obtain ⟨others, more, owned, held, _⟩ := split_stack found
    have kept : World.Kept (stack.owns + others) (stack.layers + more) s.world := by
      rw [← owned, ← held]
      exact sound
    have bound : (stack.bindTarget c (c.width.getD stack.width) (c.height.getD stack.height)).Ends s.world
        (fun answer w => World.Kept (answer.2.owns + others) (stack.layers + more) w ∧
          answer.2.layers = stack.layers)
        fun _ w => World.Kept (stack.owns + others) (stack.layers + more) w :=
      Stack.kept_bindTarget kept
    have whole : ∀ f ∈ stack.readFrame? c s.world, ∀ key ∈ f.stack.layers,
        ∃ t, f.world.texture? key = some t := by
      refine Stack.readStack_of_frame (fun frame _ _ => ∀ f ∈ frame, ∀ key ∈ f.stack.layers,
        ∃ t, f.world.texture? key = some t) bound (by simp) (by simp) fun framebuffer stack' v bound => ?_
      intro start after f here key member
      obtain rfl := Option.some.inj here
      refine bound.1.shared.present key (Multiset.mem_add.mpr (.inl ?_))
      rw [← bound.2]
      exact member
    exact whole f read
  | _ => exact nomatch drawn

/-- A call brings new content of a surface, and is no frame of the stack. -/
def Renews (k : RedrawKey) (id : SurfaceId) (s : Session δ) : SessionStep → Prop
  | .fireSurface name => id = .external name
  | .renderTexture key => key ∈ s.held ∧ id = .renderTexture key
  | step => ∃ f ∈ s.frame? step, f.stack.redraw ≠ k ∧ ∃ key ∈ f.stack.layers, id = .renderTexture key

theorem settles_iff (alike : s.Overheard extra s') (attuned : s'.world.Attuned) (step : SessionStep) :
    s'.Settles k x step ↔ s.Settles k x step := by
  have frames : (∃ f ∈ s'.frame? step, f.Settles k x) ↔ ∃ f ∈ s.frame? step, f.Settles k x := by
    rcases rel_cases (overheard_frame alike attuned step) with
      ⟨here, there⟩ | ⟨f, _, here, there, v, rfl, alike, _⟩
    · simp [here, there]
    · simp [here, there, FrameStart.settles_iff alike]
  obtain ⟨w', alike, rfl⟩ := alike
  cases step with
  | takeRedraw i => rfl
  | _ => exact frames

/-- What is heard of is heard of by those who are known, or by a further listener. -/
theorem raises_iff (alike : s.Overheard extra s') (sound : s.Sound) (attuned : s'.world.Attuned)
    (step : SessionStep) : s'.Raises k x step ↔
      s.Raises k x step ∨ ∃ id, Hidden extra k x id ∧ s.Renews k id step := by
  have frames : (∃ f ∈ s'.frame? step, f.Raises k x) ↔ (∃ f ∈ s.frame? step, f.Raises k x) ∨
      ∃ id, Hidden extra k x id ∧ ∃ f ∈ s.frame? step, f.stack.redraw ≠ k ∧
        ∃ key ∈ f.stack.layers, id = .renderTexture key := by
    rcases rel_cases (overheard_frame alike attuned step) with
      ⟨here, there⟩ | ⟨f, _, here, there, v, rfl, alike, attuned⟩
    · simp [here, there]
    · have present := present_of_frame sound here
      simp only [here, there, Option.mem_def, Option.some.injEq, exists_eq_left',
        FrameStart.raises_iff alike attuned present]
      refine or_congr Iff.rfl ⟨?_, ?_⟩
      · rintro ⟨other, key, member, hidden⟩
        exact ⟨_, hidden, other, key, member, rfl⟩
      · rintro ⟨_, hidden, other, key, member, rfl⟩
        exact ⟨other, key, member, hidden⟩
  cases step with
  | fireSurface name =>
    obtain ⟨w', alike, rfl⟩ := alike
    unfold Raises Renews
    simp only [alike.others, exists_eq_right]
    constructor
    · rintro ⟨l, known | further, mine, own⟩
      · exact .inl ⟨l, known, mine, own⟩
      · exact .inr ⟨l, further, mine, own⟩
    · rintro (⟨l, known, mine, own⟩ | ⟨l, further, mine, own⟩)
      · exact ⟨l, .inl known, mine, own⟩
      · exact ⟨l, .inr further, mine, own⟩
  | renderTexture key =>
    have after := alike.perform (.renderTexture key)
    have own : (s'.perform (.renderTexture key)).world.Attuned :=
      (pending_perform k x s' (.renderTexture key) attuned).1
    have present (held : key ∈ s.held) :
        ∃ t, (s.perform (.renderTexture key)).world.texture? key = some t := by
      have kept := sound_perform (.renderTexture key) sound
      refine kept.shared.present key (grips_of_held ?_)
      rw [perform, onHeld, if_pos held]
      exact held
    have holds : s'.held = s.held := by
      obtain ⟨w', _, rfl⟩ := alike
      rfl
    unfold Raises Renews
    rw [holds]
    by_cases held : key ∈ s.held
    · obtain ⟨t, there⟩ := present held
      have hears : (s'.perform (.renderTexture key)).world.Hears k key x ↔
          (s.perform (.renderTexture key)).world.Hears k key x ∨
            Hidden extra k x (.renderTexture key) := by
        obtain ⟨v, alike, same⟩ := after
        rw [same] at own ⊢
        exact alike.hears_iff own there
      simp [held, hears]
    · simp [held]
  | _ => exact frames

theorem attuned_run (attuned : s.world.Attuned) (steps : List SessionStep) :
    (run steps s).world.Attuned := by
  induction steps generalizing s with
  | nil => exact attuned
  | cons step rest ih => exact ih (pending_perform 0 0 s step attuned).1

theorem unsettled_iff (alike : s.Overheard extra s') (attuned : s'.world.Attuned)
    (steps : List SessionStep) : Unsettled k x s' steps ↔ Unsettled k x s steps := by
  induction steps generalizing s s' with
  | nil => exact Iff.rfl
  | cons step rest ih =>
    have own : (s'.perform step).world.Attuned := (pending_perform k x s' step attuned).1
    exact and_congr (not_congr (settles_iff alike attuned step)) (ih (alike.perform step) own)

/-- After any calls, the requests are those of the session without the further listeners, and those that
these raised and nobody settled since. -/
theorem pending_iff (alike : s.Overheard extra s') (sound : s.Sound) (own : s.world.Attuned)
    (attuned : s'.world.Attuned) (start : s'.world.Pending k x ↔ s.world.Pending k x)
    (steps : List SessionStep) :
    (run steps s').world.Pending k x ↔ (run steps s).world.Pending k x ∨
      ∃ id, Hidden extra k x id ∧ ∃ before step after, steps = before ++ step :: after ∧
        (run before s).Renews k id step ∧ Unsettled k x ((run before s).perform step) after := by
  rw [pending_run_iff k x steps s' attuned, pending_run_iff k x steps s own, start,
    unsettled_iff alike attuned steps]
  have moment (before : List SessionStep) (step : SessionStep) :
      (run before s').Raises k x step ↔
        (run before s).Raises k x step ∨ ∃ id, Hidden extra k x id ∧ (run before s).Renews k id step :=
    raises_iff (alike.run before) (sound_run before sound) (attuned_run attuned before) step
  have still (before : List SessionStep) (step : SessionStep) (after : List SessionStep) :
      Unsettled k x ((run before s').perform step) after ↔
        Unsettled k x ((run before s).perform step) after :=
    unsettled_iff ((alike.run before).perform step)
      (pending_perform k x _ step (attuned_run attuned before)).1 after
  simp only [moment, still]
  constructor
  · rintro (⟨before, step, after, split, raised | ⟨id, hidden, renews⟩, stands⟩ | old)
    · exact .inl (.inl ⟨before, step, after, split, raised, stands⟩)
    · exact .inr ⟨id, hidden, before, step, after, split, renews, stands⟩
    · exact .inl (.inr old)
  · rintro ((⟨before, step, after, split, raised, stands⟩ | old) |
      ⟨id, hidden, before, step, after, split, renews, stands⟩)
    · exact .inl ⟨before, step, after, split, .inl raised, stands⟩
    · exact .inr old
    · exact .inl ⟨before, step, after, split, .inr ⟨id, hidden, renews⟩, stands⟩

end Session
end ShaderStack

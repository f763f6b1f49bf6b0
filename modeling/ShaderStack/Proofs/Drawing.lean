import ShaderStack.Proofs.Growth

/-! Calls that draw.

Whatever is drawn, each draw shows what the accessors of its program give at the start of the call, and
all programs are ready for the next one. -/
namespace ShaderStack

open World (Extends Emits Kept Spares Draws)

namespace Session

variable {δ : Type} {s s' : Session δ} {tokens : List Token} {origin : Program → Prop}

section Places

/-- A program that stands aside, and the others. -/
theorem programs_of_aside {j : Nat} {p : Program} (found : s.aside[j]? = some p) :
    ∃ others : List Program, s.programs.Perm (p :: (others ++ s.world.programs)) ∧
      ∀ (p' : Program) (world : World δ),
        (programs { s with world := world, aside := s.aside.set j p' }).Perm
          (p' :: (others ++ world.programs)) := by
  obtain ⟨before, after, split, set, _⟩ := split_of_getElem? found
  refine ⟨before ++ after ++ s.liveStacks.flatMap Stack.programs, ?_, ?_⟩
  · simp [programs, split]
  · intro p' world
    simp [programs, set]

/-- The programs of one stack, and the others. -/
theorem programs_of_stack {i : Nat} {stack : Stack} (found : s.liveStacks[i]? = some stack) :
    ∃ others : List Program, s.programs.Perm (stack.programs ++ others ++ s.world.programs) ∧
      ∀ (stack' : Stack) (world : World δ),
        (programs { s with world := world, liveStacks := s.liveStacks.set i stack' }).Perm
          (stack'.programs ++ others ++ world.programs) := by
  obtain ⟨before, after, split, set, _⟩ := split_of_getElem? found
  have moved (ps : List Program) (world : World δ) : (s.aside ++ ((before.flatMap Stack.programs ++
      (ps ++ after.flatMap Stack.programs)) ++ world.programs)).Perm
        (ps ++ (s.aside ++ (before.flatMap Stack.programs ++ after.flatMap Stack.programs)) ++
          world.programs) := by
    rw [← List.append_assoc]
    refine List.Perm.append_right _ ?_
    refine (List.Perm.append_left _ (List.perm_append_comm_assoc _ _ _)).trans ?_
    exact List.perm_append_comm_assoc _ _ _
  refine ⟨s.aside ++ (before.flatMap Stack.programs ++ after.flatMap Stack.programs), ?_, ?_⟩
  · simpa [programs, split] using moved stack.programs s.world
  · intro stack' world
    simpa [programs, set] using moved stack'.programs world

/-- What all stacks have, where a stack takes the place of one that has the same. -/
theorem flatMap_set {i : Nat} {stack stack' : Stack} {parts : Stack → List α}
    (found : s.liveStacks[i]? = some stack) (same : parts stack' = parts stack) :
    (s.liveStacks.set i stack').flatMap parts = s.liveStacks.flatMap parts := by
  obtain ⟨before, after, split, set, _⟩ := split_of_getElem? found
  rw [set, split]
  simp [same]

end Places

variable [GraphicsDevice δ]

/-- A draw of one of the session's programs that shows what its accessors give at the start. -/
def Agrees (tokens : List Token) (s : Session δ) (d : GraphicsState × Command) : Prop :=
  (s.moment tokens).Shows (fun f => ∃ q ∈ s.programs, q.frozen = f) d

theorem Prepared.renderProgram {j : Nat} (prepared : s.Prepared tokens origin) (sound : s.Sound)
    (screen : s.world.graphics.framebuffer = none) (minting : Minting s.world.events) :
    (s.perform (.renderProgram j)).Prepared tokens origin ∧
      ((s.moment tokens).Calm → Draws (s.Agrees tokens) s.world (s.perform (.renderProgram j)).world) := by
  change (s.renderAside j).Prepared tokens origin ∧
    ((s.moment tokens).Calm → Draws (s.Agrees tokens) s.world (s.renderAside j).world)
  unfold renderAside
  cases found : s.aside[j]? with
  | none => exact ⟨prepared, fun _ => Draws.refl _⟩
  | some p =>
    obtain ⟨others, before, after⟩ := programs_of_aside found
    have run : Extends (·.isFrame) RenderTexture.bare s.world (p.render.run s.world).2 :=
      Program.extends_render
    obtain ⟨⟨seen, ready⟩, draws⟩ := ((prepared.ready sound minting).perm before).render (by
      rw [screen]
      exact fun h attached => absurd attached nofun)
    refine ⟨?_, draws⟩
    have back := after (p.render.run s.world).1 (p.render.run s.world).2
    rw [run.programs] at back
    exact prepared.framed run.coarsen (fun f => id) (ready.perm back.symm)

/-- A stack draws into what is bound or into a framebuffer, neither of which is a texture's. -/
theorem Prepared.renderTo {i : Nat} {stack : Stack} (framebuffer : Option Handle)
    (width height : UInt32) (prepared : s.Prepared tokens origin) (sound : s.Sound)
    (minting : Minting s.world.events) (found : s.liveStacks[i]? = some stack)
    (blank : framebuffer.bind s.world.graphics.attachments = none)
    (before : s.world.graphics.framebuffer.bind s.world.graphics.attachments = none) :
    let drawn := (stack.renderTo framebuffer width height).run s.world
    Session.Prepared tokens origin
        { s with world := drawn.2, liveStacks := s.liveStacks.set i drawn.1 } ∧
      ((s.moment tokens).Calm → Draws (s.Agrees tokens) s.world drawn.2) := by
  obtain ⟨others, here, after⟩ := programs_of_stack found
  obtain ⟨⟨seen, ready⟩, draws⟩ := stack.ready_renderTo framebuffer width height blank before
    ((prepared.ready sound minting).perm here)
  obtain ⟨programs, same, _⟩ := stack.renderTo_eq framebuffer width height s.world
  have mounts : ((stack.renderTo framebuffer width height).run s.world).1.mounts = stack.mounts := by
    rw [same]
    rfl
  refine ⟨prepared.framed Stack.extends_renderTo (fun f => ?_) (ready.perm (after _ _).symm), draws⟩
  dsimp only
  rw [flatMap_set found mounts]
  exact id

theorem Prepared.render {i : Nat} (prepared : s.Prepared tokens origin) (sound : s.Sound)
    (screen : s.world.graphics.framebuffer = none) (minting : Minting s.world.events) :
    (s.perform (.render i)).Prepared tokens origin ∧
      ((s.moment tokens).Calm → Draws (s.Agrees tokens) s.world (s.perform (.render i)).world) := by
  have perform : s.perform (.render i) = s.onStack i Stack.render := rfl
  rw [perform]
  cases found : s.liveStacks[i]? with
  | none =>
    rw [onStack_none found]
    exact ⟨prepared, fun _ => Draws.refl _⟩
  | some stack =>
    rw [onStack_some found]
    have before : s.world.graphics.framebuffer.bind s.world.graphics.attachments = none := by
      rw [screen]
      rfl
    exact prepared.renderTo none stack.width stack.height sound minting found rfl before

theorem Prepared.renderTexture {key : Nat} (prepared : s.Prepared tokens origin) (sound : s.Sound)
    (minting : Minting s.world.events) :
    (s.perform (.renderTexture key)).Prepared tokens origin ∧
      ((s.moment tokens).Calm → Draws (s.Agrees tokens) s.world (s.perform (.renderTexture key)).world) := by
  by_cases held : key ∈ s.held
  · have perform : s.perform (.renderTexture key) =
      { s with world := ((RenderTexture.render key).run s.world).2 } := if_pos held
    rw [perform]
    obtain ⟨t, present⟩ := sound.shared.present key (grips_of_held held)
    rw [RenderTexture.run_render present]
    have others (world : World δ) : (Session.programs { s with world := world }).Perm
        ((s.aside ++ s.liveStacks.flatMap Stack.programs) ++ world.programs) :=
      List.Perm.of_eq (List.append_assoc _ _ _).symm
    obtain ⟨⟨seen, drawn⟩, draws, _⟩ := RenderTexture.ready_renderInto key none t.width t.height
      ((prepared.ready sound minting).perm (others s.world))
    refine ⟨?_, draws⟩
    exact prepared.framed RenderTexture.extends_renderInto (fun f => id) (drawn.perm (others _).symm)
  · have perform : s.perform (.renderTexture key) = s := if_neg held
    rw [perform]
    exact ⟨prepared, fun _ => Draws.refl _⟩

/-- A readback target is bound, and the programs are as they were. -/
theorem Prepared.bindTarget {i : Nat} {stack : Stack} {c : ReadConfig} {width height : UInt32}
    (prepared : s.Prepared tokens origin) (sound : s.Sound)
    (found : s.liveStacks[i]? = some stack) :
    (stack.bindTarget c width height).Ends s.world
      (fun answer w => Minting w.events →
        let bound : Session δ := { s with world := w, liveStacks := s.liveStacks.set i answer.2 }
        bound.Prepared tokens origin ∧ bound.Sound ∧ bound.programs = s.programs ∧
          bound.moment tokens = s.moment tokens ∧ w.graphics.attachments answer.1 = none ∧
          w.graphics.framebuffer = some answer.1 ∧ Spares (· ∈ s.world.owns + s.owns) s.world w)
      (fun _ w => Minting w.events →
        Session.Prepared tokens origin { s with world := w, liveStacks := s.liveStacks.set i stack }) := by
  obtain ⟨others, more, owned, held, changed, _⟩ := split_stack found
  have kept : Kept (stack.owns + others) (stack.layers + more) s.world := by
    rw [← owned, ← held]
    exact sound
  have there := List.mem_of_getElem? found
  have mounted : s.world.graphics.Mounted stack.mounts :=
    fun f mine => prepared.mounted f (mem_mounts.mpr (.inl ⟨stack, there, mine⟩))
  refine ((Stack.mounted_bindTarget sound mounted).and (Stack.kept_bindTarget kept)).imp ?_ ?_
  · rintro ⟨framebuffer, stack'⟩ w ⟨⟨⟨host, textures, surfaces⟩, same, blank, target, spares, mounts⟩,
      kept', layers⟩ minting
    dsimp only at *
    obtain ⟨owned', held'⟩ := changed stack' w
    have programs : Session.programs { s with world := w, liveStacks := s.liveStacks.set i stack' } =
        s.programs := by
      have own : stack'.programs = stack.programs := by rw [same]
      unfold Session.programs World.programs
      rw [flatMap_set found own, textures]
    have textureOf : w.textureOf? = s.world.textureOf? := by
      funext id
      cases id <;> simp [World.textureOf?, World.texture?, World.surface, textures, surfaces]
    refine ⟨?_, ?_, programs, ?_, blank, target, spares minting⟩
    · refine prepared.grow (spares minting) (fun p member => .inl (programs ▸ member)) ?_
      intro f member
      rw [mem_mounts] at member
      have layers : w.mounts = s.world.mounts := by rw [World.mounts, textures, World.mounts]
      rcases member with own | layer
      · rcases exists_of_set own with mine | old
        · exact (mounts f mine).imp_left fun mine => mem_mounts.mpr (.inl ⟨stack, there, mine⟩)
        · exact .inl (mem_mounts.mpr (.inl old))
      · exact .inl (mem_mounts.mpr (.inr (layers ▸ layer)))
    · unfold Sound
      rw [owned', held', layers]
      exact kept'
    · unfold moment
      rw [programs, host, textureOf]
  · rintro e w ⟨⟨⟨_, textures, _⟩, spares⟩, _⟩ minting
    have within : s.Within { s with world := w, liveStacks := s.liveStacks.set i stack } :=
      .of_set found (fun _ => id) (fun _ => id) (.of_textures textures)
    exact prepared.grow (spares minting) (fun p member => .inl (within.programs p member))
      fun f member => .inl (within.mounts f member)

/-- A stack is drawn into a cleared target and read, and the default framebuffer is bound again. -/
theorem Prepared.readFrom {i : Nat} {stack : Stack} (framebuffer : Handle) (width height : UInt32)
    (r : PixelRead) (prepared : s.Prepared tokens origin) (sound : s.Sound)
    (found : s.liveStacks[i]? = some stack)
    (target : s.world.graphics.framebuffer = some framebuffer)
    (blank : s.world.graphics.attachments framebuffer = none) :
    let drawn := (stack.renderTo (some framebuffer) width height).run
      (s.world.perform (.clear .opaqueBlack .one))
    let world := (drawn.2.readBack r).performAll
      [.bindFramebuffer none, .viewport 0 0 drawn.1.width drawn.1.height]
    Minting world.events →
      Session.Prepared tokens origin
          { s with world := world, liveStacks := s.liveStacks.set i drawn.1 } ∧
        ((s.moment tokens).Calm → Draws (s.Agrees tokens) s.world world) := by
  have empty : s.world.graphics.framebuffer.bind s.world.graphics.attachments = none := by
    rw [target]
    exact blank
  have same := World.graphics_cleared .opaqueBlack .one empty
  have cleared : Session.Prepared tokens origin
      { s with world := s.world.perform (.clear .opaqueBlack .one) } :=
    prepared.narrow (.of_world rfl rfl (.of_textures rfl)) (Spares.cleared _ _ empty)
  have kept : Sound { s with world := s.world.perform (.clear .opaqueBlack .one) } :=
    Kept.performed sound rfl
  have drawing : Extends (·.isFrame) RenderTexture.shell (s.world.perform (.clear .opaqueBlack .one))
      ((stack.renderTo (some framebuffer) width height).run
        (s.world.perform (.clear .opaqueBlack .one))).2 := Stack.extends_renderTo
  intro drawn world minting
  have early : Minting (s.world.perform (.clear .opaqueBlack .one)).events :=
    drawing.events.minting (World.minting_of_emit (World.minting_of_performAll minting))
  obtain ⟨ready, draws⟩ := cleared.renderTo (some framebuffer) width height kept early found
    (by rw [same]; exact blank) (by rw [same]; exact empty)
  refine ⟨ready.narrow (.of_world rfl rfl (.of_textures rfl)) ?_, fun calm => ?_⟩
  · have restored : Emits (·.isPlain) drawn.2 world :=
      (Emits.emit (by rfl)).trans (Emits.performAll (by simp [Event.isPlain, Command.isPlain]))
    exact restored.spares_of_isPlain
  · have clearing : Draws (s.Agrees tokens) s.world (s.world.perform (.clear .opaqueBlack .one)) :=
      Draws.emit (by simp [Event.draw?])
    exact ((clearing.trans (draws calm)).trans (Draws.emit (by simp [Event.draw?]))).trans
      (Draws.performAll (by simp [Event.draw?]))

theorem Prepared.read {i : Nat} {c : ReadConfig} (prepared : s.Prepared tokens origin) (sound : s.Sound)
    (minting : Minting (s.perform (.read i c)).world.events) :
    (s.perform (.read i c)).Prepared tokens origin ∧
      ((s.moment tokens).Calm → Draws (s.Agrees tokens) s.world (s.perform (.read i c)).world) := by
  have perform : s.perform (.read i c) = s.onStack i (readStack c) := rfl
  rw [perform] at minting ⊢
  cases found : s.liveStacks[i]? with
  | none =>
    rw [onStack_none found]
    exact ⟨prepared, fun _ => Draws.refl _⟩
  | some stack =>
    rw [onStack_some found] at minting ⊢
    have read : (stack.read c).Ends s.world
        (fun answer w => Minting w.events →
          Session.Prepared tokens origin { s with world := w, liveStacks := s.liveStacks.set i answer.2 } ∧
            ((s.moment tokens).Calm → Draws (s.Agrees tokens) s.world w))
        (fun _ w => Minting w.events →
          Session.Prepared tokens origin { s with world := w, liveStacks := s.liveStacks.set i stack } ∧
            ((s.moment tokens).Calm → Draws (s.Agrees tokens) s.world w)) := by
      rw [Stack.ends_read]
      dsimp only
      split
      · intro _
        have same : s.Within { s with liveStacks := s.liveStacks.set i stack } :=
          .of_set found (fun _ => id) (fun _ => id) (.of_textures rfl)
        exact ⟨prepared.narrow same (Spares.refl _), fun _ => Draws.refl _⟩
      · refine ((prepared.bindTarget sound found).and Stack.steady_bindTarget).imp ?_ ?_
        · rintro ⟨framebuffer, stack'⟩ w ⟨bound, _, _, steady, _⟩ minting
          have drawing : Extends (·.isFrame) RenderTexture.shell (w.perform (.clear .opaqueBlack .one))
              ((stack'.renderTo (some framebuffer) (c.width.getD stack.width)
                (c.height.getD stack.height)).run (w.perform (.clear .opaqueBlack .one))).2 :=
            Stack.extends_renderTo
          have early := drawing.events.minting
            (World.minting_of_emit (World.minting_of_performAll minting))
          obtain ⟨ready, kept, programs, moment, blank, target, _⟩ := bound (World.minting_of_emit early)
          have there : (s.liveStacks.set i stack')[i]? = some stack' :=
            List.getElem?_set_self (List.getElem?_eq_some_iff.mp found).1
          obtain ⟨drawn, draws⟩ := ready.readFrom framebuffer (c.width.getD stack.width)
            (c.height.getD stack.height) _ kept there target blank minting
          dsimp only at drawn
          rw [List.set_set] at drawn
          refine ⟨drawn, fun calm => ?_⟩
          have agrees : Agrees tokens { s with world := w, liveStacks := s.liveStacks.set i stack' } =
              s.Agrees tokens := by
            unfold Agrees
            rw [moment, programs]
          rw [moment, agrees] at draws
          exact (Draws.ofEmits steady fun _ => Event.draw?_isSteady).trans (draws calm)
        · rintro e w ⟨failed, restores⟩ minting
          exact ⟨failed minting, fun _ => restores.draws⟩
    exact readStack_of_ends (fun stack' w => Minting w.events →
      Session.Prepared tokens origin { s with world := w, liveStacks := s.liveStacks.set i stack' } ∧
        ((s.moment tokens).Calm → Draws (s.Agrees tokens) s.world w)) read minting

end Session
end ShaderStack

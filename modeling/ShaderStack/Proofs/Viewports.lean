import ShaderStack.Proofs.Targets
import ShaderStack.Proofs.Lifetimes

/-! Every draw of a session lands on its target; on the screen the size is the one that was left.

A frame without layers does not set the viewport. It draws at the size of its stack only if the last
operation that left a size has left that one, which a render texture drawn on its own does not. -/
namespace ShaderStack

open World (Extends Emits Draws Restores)

/-- The calls that neither draw nor set a size. -/
def SessionStep.isLazy : SessionStep → Bool
  | makeStack _ _ _ _ | renderProgram _ | render _ | resize _ _ _ | read _ _ | renderTexture _ =>
    false
  | _ => true

namespace Session

variable {δ : Type} [GraphicsDevice δ] {s : Session δ}

/-- The draw calls of one step, each with the state in which it is made. -/
def draws (s : Session δ) (step : SessionStep) : List (GraphicsState × Command) :=
  s.world.graphics.draws ((s.perform step).world.events.drop s.world.events.length)

/-- The size that a step leaves the context at, if it sets one. -/
def leaves (s : Session δ) : SessionStep → Option (UInt32 × UInt32)
  | .makeStack supported width height _ => if supported then some (width, height) else none
  | .resize i width height =>
    (s.liveStacks[i]?).bind fun stack =>
      if stack.width = width ∧ stack.height = height then none else some (width, height)
  | .render i =>
    (s.liveStacks[i]?).bind fun stack =>
      if stack.layers = [] then none else some (stack.width, stack.height)
  | .read i config =>
    (s.liveStacks[i]?).bind fun stack =>
      if ((stack.read config).run.run s.world).1.isOk then some (stack.width, stack.height) else none
  | .renderTexture key =>
    if key ∈ s.held then (s.world.texture? key).map fun t => (t.width, t.height) else none
  | _ => none

/-- The size that was left last. -/
def sizeLeft (size : Option (UInt32 × UInt32)) :
    List SessionStep → Session δ → Option (UInt32 × UInt32)
  | [], _ => size
  | step :: rest, s => sizeLeft (s.leaves step <|> size) rest (s.perform step)

/-- Between calls the default framebuffer is bound and the viewport is the size left last. -/
def Idle (size : Option (UInt32 × UInt32)) (s : Session δ) : Prop :=
  s.world.graphics.aim = (none, size.bind fun (width, height) => wholeOf width height)

/-- Draws on a context that was idle. -/
theorem mem_draws {allowed : GraphicsState × Command → Prop} (step : SessionStep)
    (run : Draws allowed s.world (s.perform step).world) :
    ∀ d ∈ s.draws step, allowed d := by
  obtain ⟨es, split, all⟩ := run
  unfold draws
  rw [split, List.drop_left]
  exact all

theorem idle_of_restores {size : Option (UInt32 × UInt32)} {step : SessionStep}
    (idle : s.Idle size) (none : s.leaves step = .none)
    (run : Restores s.world (s.perform step).world) :
    (s.perform step).Idle (s.leaves step <|> size) := by
  have screen : s.world.graphics.framebuffer = .none := congrArg Prod.fst idle
  rw [none]
  exact (run.aim screen).trans idle

theorem idle_makeStack {size : Option (UInt32 × UInt32)} {supported : Bool} {width height : UInt32}
    {options : StackOptions} (idle : s.Idle size) :
    (s.perform (.makeStack supported width height options)).Idle
      (s.leaves (.makeStack supported width height options) <|> size) := by
  have screen : s.world.graphics.framebuffer = .none := congrArg Prod.fst idle
  refine attempt_of_ends (Idle (s.leaves (.makeStack supported width height options) <|> size)) ?_
  rw [Stack.ends_make]
  cases supported with
  | false => exact idle
  | true =>
    have probed : Emits (·.isQuiet) s.world ((Stack.extensions options).foldl
        (fun w name => w.probed (.enableExtension name)) s.world) :=
      Emits.foldl fun _ _ _ => Emits.emit (by rfl)
    have sized : (World.perform (.viewport 0 0 width height)
        ((Stack.extensions options).foldl (fun w name => w.probed (.enableExtension name))
          s.world)).graphics.aim = (none, wholeOf width height) := by
      rw [World.graphics_emit]
      exact Prod.ext (probed.screen_of_quiet screen) rfl
    exact sized

/-- A new stack draws nothing. -/
theorem draws_makeStack (supported : Bool) (width height : UInt32) (options : StackOptions) :
    Draws (fun _ => False) s.world
      (s.perform (.makeStack supported width height options)).world := by
  refine attempt_of_ends (fun s' => Draws (fun _ => False) s.world s'.world) ?_
  rw [Stack.ends_make]
  split
  · exact Draws.refl _
  · have probed : Emits (·.isQuiet) s.world ((Stack.extensions options).foldl
        (fun w name => w.probed (.enableExtension name)) s.world) :=
      Emits.foldl fun _ _ _ => Emits.emit (by rfl)
    exact ((Draws.ofEmits probed fun _ => Event.draw?_isQuiet).trans
      (Draws.emit (by simp [Event.draw?]))).trans (Draws.silent rfl)

theorem draws_resize (i : Nat) (width height : UInt32) :
    Draws (fun _ => False) s.world (s.perform (.resize i width height)).world := by
  change Draws _ s.world (s.onStack i (Stack.resize width height)).world
  refine world_onStack (Draws _ s.world) (Draws.refl _) fun stack _ => ?_
  rw [Stack.run_resize]
  split
  · exact Draws.refl _
  · have sized : Draws (fun _ => False) s.world (s.world.perform (.viewport 0 0 width height)) :=
      Draws.emit (by simp [Event.draw?])
    refine sized.trans ?_
    exact Draws.ofEmits (Emits.foldl fun _ _ _ => Emits.emit (by rfl)) fun _ => Event.draw?_isQuiet

theorem idle_resize {size : Option (UInt32 × UInt32)} {i : Nat} {width height : UInt32}
    (idle : s.Idle size) : (s.perform (.resize i width height)).Idle
      (s.leaves (.resize i width height) <|> size) := by
  have screen : s.world.graphics.framebuffer = .none := congrArg Prod.fst idle
  change (s.onStack i (Stack.resize width height)).Idle _
  cases found : s.liveStacks[i]? with
  | none =>
    rw [onStack_none found]
    simpa [leaves, found] using idle
  | some stack =>
    rw [onStack_some found, Stack.run_resize]
    by_cases same : stack.width = width ∧ stack.height = height
    · simpa [leaves, found, same, Idle] using idle
    · have called : Emits (·.isQuiet) (s.world.perform (.viewport 0 0 width height))
          (stack.resizeListeners.foldl (fun w listener => w.called (.resized listener width height))
            (s.world.perform (.viewport 0 0 width height))) :=
        Emits.foldl fun _ _ _ => Emits.emit (by rfl)
      have sized : (s.world.perform (.viewport 0 0 width height)).graphics.aim =
          (none, wholeOf width height) := by
        rw [World.graphics_emit]
        exact Prod.ext screen rfl
      have aim := ((Restores.ofQuiet called).aim (congrArg Prod.fst sized)).trans sized
      simpa [leaves, found, same, Idle] using aim

/-- A frame draws its layers into their targets and its programs wherever the screen's size was
left, unless a layer has set it. -/
theorem draws_render {i : Nat} {stack : Stack} (sound : s.Sound)
    (found : s.liveStacks[i]? = some stack) :
    Draws (fun d => s.world.drawsLayer d ∨ Program.drawsAny stack.programs
        (Stack.frameAim none stack.width stack.height stack.layers s.world.graphics.aim) d)
        s.world (s.perform (.render i)).world ∧
      (s.perform (.render i)).world.graphics.aim =
        Stack.frameAim none stack.width stack.height stack.layers s.world.graphics.aim := by
  have perform : s.perform (.render i) = s.onStack i Stack.render := rfl
  rw [perform, onStack_some found]
  exact Stack.draws_renderTo none stack.width stack.height (present_of_stack sound found)

theorem draws_read {i : Nat} {stack : Stack} {c : ReadConfig} (sound : s.Sound)
    (found : s.liveStacks[i]? = some stack) :
    if ((stack.read c).run.run s.world).1.isOk then
      (∃ stack' target, (s.perform (.read i c)).liveStacks[i]? = some stack' ∧
        stack'.targets.lookup (c.resolve (c.width.getD stack.width) (c.height.getD stack.height)) =
          some target ∧
        Draws (fun d => s.world.drawsLayer d ∨ Program.drawsAny stack.programs
          (some target.framebuffer,
            wholeOf (c.width.getD stack.width) (c.height.getD stack.height)) d)
          s.world (s.perform (.read i c)).world) ∧
        (s.perform (.read i c)).world.graphics.aim = (none, wholeOf stack.width stack.height)
    else Restores s.world (s.perform (.read i c)).world := by
  have perform : s.perform (.read i c) = s.onStack i (readStack c) := rfl
  have read := Stack.draws_read (s := stack) (c := c) (present_of_stack sound found)
  have length : i < s.liveStacks.length := (List.getElem?_eq_some_iff.mp found).1
  rw [perform, onStack_some found]
  unfold readStack
  simp only [Engine.run_bind]
  unfold Attempt.Ends at read
  generalize (stack.read c).run.run s.world = answer at read
  obtain ⟨e | ⟨pixels, stack'⟩, world⟩ := answer
  · exact read
  · obtain ⟨target, kept, drawn, aim⟩ := read
    refine ⟨⟨stack', target, ?_, kept, drawn⟩, aim⟩
    exact List.getElem?_set_self length

theorem draws_renderTexture {key : Nat} {t : RenderTexture} (held : key ∈ s.held)
    (found : s.world.texture? key = some t) :
    Draws (Program.drawsAny t.programs t.aim) s.world (s.perform (.renderTexture key)).world ∧
      (s.perform (.renderTexture key)).world.graphics.aim = (none, wholeOf t.width t.height) := by
  have perform : (s.perform (.renderTexture key)).world =
      ((RenderTexture.renderInto key none t.width t.height).run s.world).2 := by
    have run : s.perform (.renderTexture key) =
        { s with world := ((RenderTexture.render key).run s.world).2 } := if_pos held
    rw [run, RenderTexture.run_render found]
  rw [perform]
  exact RenderTexture.draws_renderInto none t.width t.height found

/-- The calls that neither draw nor set a size restore what they find. -/
theorem restores_perform {step : SessionStep} (lazy : step.isLazy) :
    Restores s.world (s.perform step).world := by
  have quiet {s' : Session δ} (run : Emits (·.isQuiet) s.world s'.world) :
      Restores s.world s'.world := Restores.ofQuiet run
  cases step with
  | makeStack _ _ _ _ | renderProgram _ | render _ | resize _ _ _ | read _ _ | renderTexture _ =>
    simp [SessionStep.isLazy] at lazy
  | compile i vertex fragment config =>
    exact quiet (world_compile (Emits _ s.world) (Emits.refl _) fun _ _ =>
      ProgramCache.extends_compile.events)
  | clear => exact quiet (Emits.emit (by rfl))
  | makeTexture width height =>
    exact attempt_of_ends (fun s' => Restores s.world s'.world) RenderTexture.restores_make
  | _ => exact quiet ((erases_perform rfl).mono fun _ => Event.isQuiet_of_isErasure)

theorem leaves_of_isLazy {step : SessionStep} (lazy : step.isLazy) : s.leaves step = none := by
  cases step <;> first | rfl | simp [SessionStep.isLazy] at lazy

/-- What one call does to an idle context. -/
theorem idle_perform {size : Option (UInt32 × UInt32)} (step : SessionStep) (sound : s.Sound)
    (idle : s.Idle size) : (s.perform step).Idle (s.leaves step <|> size) := by
  cases step with
  | makeStack supported width height options => exact idle_makeStack idle
  | renderProgram j =>
    change (s.renderAside j).Idle size
    unfold renderAside
    split
    · exact idle
    · exact Program.aim_render.trans idle
  | render i =>
    cases found : s.liveStacks[i]? with
    | none =>
      have same : s.perform (.render i) = s := by
        change s.onStack i Stack.render = s
        exact onStack_none found
      rw [same]
      simpa [leaves, found] using idle
    | some stack =>
      have aim := (draws_render sound found).2
      rw [idle] at aim
      by_cases bare : stack.layers = []
      · simpa [leaves, found, bare, Stack.frameAim, Idle] using aim
      · simpa [leaves, found, bare, Stack.frameAim, Idle] using aim
  | resize i width height => exact idle_resize idle
  | read i config =>
    cases found : s.liveStacks[i]? with
    | none =>
      have same : s.perform (.read i config) = s := by
        change s.onStack i (readStack config) = s
        exact onStack_none found
      rw [same]
      simpa [leaves, found] using idle
    | some stack =>
      have read := draws_read (c := config) sound found
      by_cases done : ((stack.read config).run.run s.world).1.isOk
      · rw [if_pos done] at read
        simpa [leaves, found, done, Idle] using read.2
      · rw [if_neg done] at read
        exact idle_of_restores idle (by simp [leaves, found, done]) read
  | renderTexture key =>
    by_cases held : key ∈ s.held
    · obtain ⟨t, found⟩ := sound.shared.present key (grips_of_held held)
      simpa [leaves, held, found, Idle] using (draws_renderTexture held found).2
    · have same : s.perform (.renderTexture key) = s := if_neg held
      rw [same]
      simpa [leaves, held] using idle
  | _ => exact idle_of_restores idle (leaves_of_isLazy rfl) (restores_perform rfl)

theorem idle_run {size : Option (UInt32 × UInt32)} (steps : List SessionStep) (sound : s.Sound)
    (idle : s.Idle size) : (run steps s).Idle (sizeLeft size steps s) := by
  induction steps generalizing s size with
  | nil => exact idle
  | cons step rest ih => exact ih (sound_perform step sound) (idle_perform step sound idle)

/-- The draws of one step, by the programs that make them. -/
theorem draws_cases {step : SessionStep} (sound : s.Sound) {d : GraphicsState × Command}
    (member : d ∈ s.draws step) :
    s.world.drawsLayer d ∨
      (∃ i stack, step = .render i ∧ s.liveStacks[i]? = some stack ∧ Program.drawsAny stack.programs
        (Stack.frameAim none stack.width stack.height stack.layers s.world.graphics.aim) d) ∨
      (∃ i c stack stack' target, step = .read i c ∧ s.liveStacks[i]? = some stack ∧
        (s.perform step).liveStacks[i]? = some stack' ∧
        stack'.targets.lookup (c.resolve (c.width.getD stack.width) (c.height.getD stack.height)) =
          some target ∧
        Program.drawsAny stack.programs (some target.framebuffer,
          wholeOf (c.width.getD stack.width) (c.height.getD stack.height)) d) ∨
      ∃ j p, step = .renderProgram j ∧ s.aside[j]? = some p ∧
        Program.drawsAny [p] s.world.graphics.aim d := by
  have silent (run : Draws (fun _ => False) s.world (s.perform step).world) : False :=
    mem_draws _ run d member
  cases step with
  | makeStack supported width height options =>
    exact (silent (draws_makeStack supported width height options)).elim
  | resize i width height => exact (silent (draws_resize i width height)).elim
  | renderProgram j =>
    have run : Draws (fun d => ∃ p, s.aside[j]? = some p ∧
        Program.drawsAny [p] s.world.graphics.aim d) s.world (s.renderAside j).world := by
      unfold renderAside
      split
      · exact Draws.refl _
      · next p found => exact Program.drawsAny_render.mono fun d drawn => ⟨p, found, drawn⟩
    obtain ⟨p, found, drawn⟩ := mem_draws (.renderProgram j) run d member
    exact .inr (.inr (.inr ⟨j, p, rfl, found, drawn⟩))
  | render i =>
    cases found : s.liveStacks[i]? with
    | none => exact (silent (world_onStack (Draws _ s.world) (Draws.refl _) (by simp [found]))).elim
    | some stack =>
      rcases mem_draws _ (draws_render sound found).1 d member with layer | own
      · exact .inl layer
      · exact .inr (.inl ⟨i, stack, rfl, found, own⟩)
  | read i config =>
    cases found : s.liveStacks[i]? with
    | none => exact (silent (world_onStack (Draws _ s.world) (Draws.refl _) (by simp [found]))).elim
    | some stack =>
      have read := draws_read (c := config) sound found
      split at read
      · obtain ⟨⟨stack', target, found', kept, run⟩, _⟩ := read
        rcases mem_draws _ run d member with layer | own
        · exact .inl layer
        · exact .inr (.inr (.inl ⟨i, config, stack, stack', target, rfl, found, found', kept, own⟩))
      · exact (silent read.draws).elim
  | renderTexture key =>
    by_cases held : key ∈ s.held
    · obtain ⟨t, found⟩ := sound.shared.present key (grips_of_held held)
      exact .inl ⟨key, t, found, mem_draws _ (draws_renderTexture held found).1 d member⟩
    · have same : s.perform (.renderTexture key) = s := if_neg held
      exact (silent (by rw [same]; exact Draws.refl _)).elim
  | _ => exact (silent (restores_perform rfl).draws).elim

omit [GraphicsDevice δ] in
/-- A draw of one of the host's own programs is none of a render texture's. -/
theorem not_drawsLayer (sound : s.Sound) (minting : Minting s.world.events) {p : Program}
    (mine : (⟨.vertexArray, p.bindings.vertexArray⟩ : Object) ∈ s.owns)
    {d : GraphicsState × Command} (bound : d.1.vertexArray = some p.bindings.vertexArray) :
    ¬ s.world.drawsLayer d := by
  rintro ⟨key, t, found, q, member, bound', _⟩
  have same : q.bindings.vertexArray = p.bindings.vertexArray :=
    Option.some.inj (bound'.symm.trans bound)
  have theirs := mem_owns_of_texture found member
  rw [same] at theirs
  exact owns_apart sound minting mine theirs

omit [GraphicsDevice δ] in
/-- A draw of a render texture's program goes into that texture. -/
theorem aim_of_drawsLayer (sound : s.Sound) (minting : Minting s.world.events) {key : Nat}
    {t : RenderTexture} {p : Program} (found : s.world.texture? key = some t)
    (member : p ∈ t.programs) {d : GraphicsState × Command}
    (bound : d.1.vertexArray = some p.bindings.vertexArray) (layer : s.world.drawsLayer d) :
    d.1.aim = t.aim := by
  obtain ⟨key', t', found', q, member', bound', aim⟩ := layer
  have same : q.bindings.vertexArray = p.bindings.vertexArray :=
    Option.some.inj (bound'.symm.trans bound)
  have distinct := nodup_live minting
  rw [sound.accounted.2, Multiset.nodup_add] at distinct
  have owner : (key', t') = (key, t) := by
    refine eq_of_mem_owned distinct.1 (mem_of_lookup found') (mem_of_lookup found)
      (array_mem_owns_texture member') ?_
    rw [same]
    exact array_mem_owns_texture member
  obtain ⟨_, rfl⟩ := Prod.mk.inj owner
  exact aim

/-- A frame on the screen is as large as its stack exactly if a layer or whoever came last left that
size. -/
theorem frameAim_iff {size : Option (UInt32 × UInt32)} {width height : UInt32} {layers : List Nat}
    {g : GraphicsState} (aim : g.aim = Stack.frameAim none width height layers
      (none, size.bind fun (width, height) => wholeOf width height)) :
    g.framebuffer = none ∧
      (g.viewport = wholeOf width height ↔ layers ≠ [] ∨ size = some (width, height)) := by
  by_cases bare : layers = []
  · obtain ⟨framebuffer, viewport⟩ := Prod.mk.inj (aim.trans (if_pos ⟨rfl, bare⟩))
    refine ⟨framebuffer, ?_⟩
    rw [viewport]
    rcases size with _ | ⟨width', height'⟩ <;> simp [bare]
  · obtain ⟨framebuffer, viewport⟩ := Prod.mk.inj (aim.trans (if_neg fun both => bare both.2))
    exact ⟨framebuffer, by simp [viewport, bare]⟩

/-- Every draw lands on its target. Readbacks and render textures choose their size themselves; a
frame on the screen without layers has its stack's size exactly if that was the size left last. -/
theorem draws_land_on_targets {device : δ} {host : Host} {steps : List SessionStep} {s : Session δ}
    (reached : s = run steps (fresh device host)) (minting : Minting s.world.events)
    (step : SessionStep) :
    ∀ d ∈ s.draws step,
      (∀ i stack p, step = .render i → s.liveStacks[i]? = some stack → p ∈ stack.programs →
        d.1.vertexArray = some p.bindings.vertexArray →
          d.1.framebuffer = none ∧
            (d.1.viewport = wholeOf stack.width stack.height ↔
              stack.layers ≠ [] ∨
                sizeLeft none steps (fresh device host) = some (stack.width, stack.height))) ∧
      (∀ i c stack p, step = .read i c → s.liveStacks[i]? = some stack → p ∈ stack.programs →
        d.1.vertexArray = some p.bindings.vertexArray →
          ∃ stack' target, (s.perform step).liveStacks[i]? = some stack' ∧
            stack'.targets.lookup
              (c.resolve (c.width.getD stack.width) (c.height.getD stack.height)) = some target ∧
            d.1.framebuffer = some target.framebuffer ∧
            d.1.viewport = wholeOf (c.width.getD stack.width) (c.height.getD stack.height)) ∧
      ∀ key t p, s.world.texture? key = some t → p ∈ t.programs →
        d.1.vertexArray = some p.bindings.vertexArray →
          d.1.framebuffer = some t.framebuffer ∧ d.1.viewport = wholeOf t.width t.height := by
  have sound : s.Sound := by
    rw [reached]
    exact sound_run steps sound_fresh
  have idle : s.Idle (sizeLeft none steps (fresh device host)) := by
    rw [reached]
    exact idle_run steps sound_fresh rfl
  intro d member
  refine ⟨?_, ?_, ?_⟩
  · rintro i stack p rfl found mine bound
    rcases draws_cases sound member with layer | ⟨i', stack', same, found', own⟩ |
      ⟨_, _, _, _, _, other, _⟩ | ⟨_, _, other, _⟩
    · exact absurd layer (not_drawsLayer sound minting (mem_owns_of_stack found mine) bound)
    · obtain rfl : i = i' := SessionStep.render.inj same
      obtain rfl : stack = stack' := Option.some.inj (found.symm.trans found')
      obtain ⟨_, _, _, aim⟩ := own
      rw [idle] at aim
      exact frameAim_iff aim
    · exact absurd other nofun
    · exact absurd other nofun
  · rintro i c stack p rfl found mine bound
    rcases draws_cases sound member with layer | ⟨_, _, other, _⟩ |
      ⟨i', c', stack', after, target, same, found', found'', kept, own⟩ | ⟨_, _, other, _⟩
    · exact absurd layer (not_drawsLayer sound minting (mem_owns_of_stack found mine) bound)
    · exact absurd other nofun
    · obtain ⟨rfl, rfl⟩ := SessionStep.read.inj same
      obtain rfl : stack = stack' := Option.some.inj (found.symm.trans found')
      obtain ⟨_, _, _, aim⟩ := own
      obtain ⟨framebuffer, viewport⟩ := Prod.mk.inj aim
      exact ⟨after, target, found'', kept, framebuffer, viewport⟩
    · exact absurd other nofun
  · intro key t p found mine bound
    have theirs := mem_owns_of_texture found mine
    have stranger (ps : List Program) (aim : Option Handle × Option (Int32 × Int32 × UInt32 × UInt32))
        (own : Program.drawsAny ps aim d)
        (owned : ∀ q ∈ ps, (⟨.vertexArray, q.bindings.vertexArray⟩ : Object) ∈ s.owns) : False := by
      obtain ⟨q, member', bound', _⟩ := own
      have same : q.bindings.vertexArray = p.bindings.vertexArray :=
        Option.some.inj (bound'.symm.trans bound)
      have mine := owned q member'
      rw [same] at mine
      exact owns_apart sound minting mine theirs
    rcases draws_cases sound member with layer | ⟨_, _, _, found', own⟩ |
      ⟨_, _, _, _, _, _, found', _, _, own⟩ | ⟨_, q, _, found', own⟩
    · exact Prod.mk.inj (aim_of_drawsLayer sound minting found mine bound layer)
    · exact (stranger _ _ own fun q member' => mem_owns_of_stack found' member').elim
    · exact (stranger _ _ own fun q member' => mem_owns_of_stack found' member').elim
    · refine (stranger _ _ own fun q' member' => ?_).elim
      rw [List.mem_singleton.mp member']
      exact mem_owns_of_aside found'

/-- A small texture is drawn on its own before a frame of a larger stack. -/
def detour : List SessionStep :=
  let shader (template : Identity) : CompiledShader := ⟨template, "void main", []⟩
  [.makeStack true 10 10 {}, .makeTexture 4 4,
    .compile 0 (shader 0) (shader 1) { draw := .arrays 0 3 }, .addToStack 0 0, .renderTexture 1]

/-- The frame after the detour is drawn at the size of the texture. -/
theorem detour_draws_off_size :
    Minting (run detour (fresh ({} : RecordingDevice) {})).world.events ∧
      ∃ d ∈ draws (run detour (fresh ({} : RecordingDevice) {})) (.render 0),
        d.1.framebuffer = none ∧ d.1.viewport ≠ wholeOf 10 10 := by
  have minting : Minting (run detour (fresh ({} : RecordingDevice) {})).world.events := by
    decide +kernel
  have shape : (run detour (fresh ({} : RecordingDevice) {})).liveStacks[0]?.map (fun stack =>
      (stack.layers, stack.width, stack.height,
        stack.programs.map fun p => p.bindings.vertexArray)) = some ([], 10, 10, [4]) := by
    decide +kernel
  have drawn : (draws (run detour (fresh ({} : RecordingDevice) {})) (.render 0)).map
      (fun d => d.1.vertexArray) = [some 4] := by
    decide +kernel
  have left : sizeLeft none detour (fresh ({} : RecordingDevice) {}) = some (4, 4) := by
    decide +kernel
  refine ⟨minting, ?_⟩
  obtain ⟨stack, found, shown⟩ := Option.map_eq_some_iff.mp shape
  obtain ⟨layers, width, height, arrays⟩ : stack.layers = [] ∧ stack.width = 10 ∧
      stack.height = 10 ∧ stack.programs.map (fun p => p.bindings.vertexArray) = [4] := by
    simpa using shown
  obtain ⟨p, mine, array⟩ : ∃ p ∈ stack.programs, p.bindings.vertexArray = 4 :=
    List.mem_map.mp (by rw [arrays]; exact List.mem_singleton_self 4)
  obtain ⟨d, member, bound⟩ : ∃ d ∈ draws (run detour (fresh ({} : RecordingDevice) {})) (.render 0),
      d.1.vertexArray = some 4 :=
    List.mem_map.mp (by rw [drawn]; exact List.mem_singleton_self _)
  obtain ⟨screen, size⟩ := (draws_land_on_targets rfl minting (.render 0) d member).1 0 stack p rfl
    found mine (bound.trans (congrArg some array.symm))
  rw [layers, width, height, left] at size
  exact ⟨d, member, screen, fun off => absurd (size.mp off) (by decide)⟩

end Session
end ShaderStack

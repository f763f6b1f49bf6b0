import ShaderStack.Proofs.Computing
import ShaderStack.Proofs.Readbacks

/-! The readback targets of a session.

Whatever a host does, every target of its stacks keeps the storage that its configuration asks for. So
readbacks of one stack share a framebuffer exactly if their configurations agree once their sizes are
explicit, and a readback that fails leaves no trace. -/
namespace ShaderStack

open World (Emits Extends Upholds Draws)

namespace Session

variable {δ : Type} {s : Session δ} {i : Nat} {c : ReadConfig} {stack : Stack} {step : SessionStep}

/-- Every readback target has the storage that its configuration asks for. -/
def Fitted (s : Session δ) : Prop :=
  ∀ stack ∈ s.liveStacks, ∀ entry ∈ stack.targets, entry.2.Fits entry.1 s.world.offscreen

/-- A stack owns what its targets consist of. -/
theorem mem_owns_of_target {entry : ReadConfig × ReadTarget} {o : Object} (there : stack ∈ s.liveStacks)
    (member : entry ∈ stack.targets) (mine : o ∈ entry.2.owns) : o ∈ s.owns := by
  have own : o ∈ (stack.targets.map fun t => t.2.owns).sum := mem_sum_owned member mine
  refine Multiset.mem_add.mpr (.inr (mem_sum_owned there ?_))
  exact Multiset.mem_add.mpr (.inl (Multiset.mem_add.mpr (.inr own)))

/-- Targets of one stack that have a framebuffer in common are the same. -/
theorem eq_of_framebuffer (sound : s.Sound) (minting : Minting s.world.events)
    (there : stack ∈ s.liveStacks) {entry entry' : ReadConfig × ReadTarget} (mine : entry ∈ stack.targets)
    (mine' : entry' ∈ stack.targets) (same : entry.2.framebuffer = entry'.2.framebuffer) :
    entry = entry' := by
  obtain ⟨i, found⟩ := List.mem_iff_getElem?.mp there
  obtain ⟨others, _, owned, _⟩ := split_stack found
  have distinct := nodup_live minting
  rw [sound.accounted.2, owned, Multiset.nodup_add, Multiset.nodup_add] at distinct
  have targets : Multiset.Nodup (stack.targets.map fun t => t.2.owns).sum := by
    have own := distinct.2.1.1
    unfold Stack.owns at own
    exact (Multiset.nodup_add.mp (Multiset.nodup_add.mp own).1).2.1
  refine eq_of_mem_owned targets mine mine' (ReadTarget.mem_owns.mpr (.inl rfl)) ?_
  rw [same]
  exact ReadTarget.mem_owns.mpr (.inl rfl)

/-- Calls other than readbacks bring no targets. -/
theorem targets_of_leads {live live' : List Stack} {entry : ReadConfig × ReadTarget}
    (leads : step.Leads live live') (still : ∀ j config, step ≠ .read j config)
    (there : ∃ stack ∈ live', entry ∈ stack.targets) : ∃ stack ∈ live, entry ∈ stack.targets := by
  cases leads with
  | same _ => exact there
  | added _ _ none =>
    obtain ⟨stack, there, member⟩ := there
    rcases List.mem_append.mp there with old | new
    · exact ⟨stack, old, member⟩
    · rw [List.mem_singleton.mp new, none] at member
      exact absurd member List.not_mem_nil
  | altered _ found alters =>
    rcases exists_of_set there with new | old
    · rw [alters.targets (still _)] at new
      exact ⟨_, List.mem_of_getElem? found, new⟩
    · exact old
  | dropped _ =>
    obtain ⟨stack, there, member⟩ := there
    exact ⟨stack, List.mem_of_mem_eraseIdx there, member⟩

variable [GraphicsDevice δ]

/-- The events of a call, each with the state in which it happens. -/
def course (s : Session δ) (step : SessionStep) : List (OffscreenState × Event) :=
  s.world.course (s.perform step).world

/-- A readback has its pixels, or the stacks are as before. -/
theorem read_cases {done : PixelBuffer × Stack → World δ → Prop} {failed : RenderError → World δ → Prop}
    (found : s.liveStacks[i]? = some stack) (ends : (stack.read c).Ends s.world done failed) :
    if ((stack.read c).run.run s.world).1.isOk then
      ∃ pixels stack', done (pixels, stack') (s.perform (.read i c)).world ∧
        (s.perform (.read i c)).liveStacks = s.liveStacks.set i stack'
    else
      ∃ e, failed e (s.perform (.read i c)).world ∧
        (s.perform (.read i c)).liveStacks = s.liveStacks := by
  have perform : s.perform (.read i c) = s.onStack i (readStack c) := rfl
  obtain ⟨inside, rfl⟩ := List.getElem?_eq_some_iff.mp found
  rw [perform, onStack_some found]
  unfold readStack
  simp only [Engine.run_bind]
  unfold Attempt.Ends at ends
  generalize (s.liveStacks[i].read c).run.run s.world = answer at ends
  obtain ⟨e | ⟨pixels, stack'⟩, world⟩ := answer
  · exact ⟨e, ends, List.set_getElem_self inside⟩
  · exact ⟨pixels, stack', ends, rfl⟩

/-- A readback in a session whose targets fit. -/
theorem reads_read (sound : s.Sound) (fitted : s.Fitted) (found : s.liveStacks[i]? = some stack) :
    (stack.read c).Ends s.world
      (fun answer w' => (∃ target, stack.ReadsInto c target answer.2 s.world w') ∧
        (Minting w'.events → Upholds (· ∈ s.world.owns + s.owns) s.world w'))
      fun _ w' => w'.textures = s.world.textures ∧
        (Minting w'.events → Upholds (· ∈ s.world.owns + s.owns) s.world w') :=
  Stack.reads_read sound (fitted stack (List.mem_of_getElem? found)) (present_of_stack sound found)

/-- A call leaves the targets alone that are there before and after it. -/
theorem upholds_perform (step : SessionStep) (sound : s.Sound) (fitted : s.Fitted)
    (minting : Minting (s.perform step).world.events) :
    Upholds (fun o => o ∈ s.owns ∧ o ∈ (s.perform step).owns) s.world (s.perform step).world := by
  have framed {w : World δ} (run : Extends (·.isFrame) RenderTexture.shell s.world w) :
      Emits (fun e => e.isMounting = false) s.world w :=
    run.events.mono fun _ => Event.isMounting_of_isFrame
  have owned (o : Object) (both : o ∈ s.owns ∧ o ∈ (s.perform step).owns) : o ∈ s.world.owns + s.owns :=
    Multiset.mem_add.mpr (.inr both.1)
  cases step with
  | makeStack supported width height options =>
    refine .unmounting (attempt_of_ends (fun s' => Emits _ s.world s'.world) ?_)
    rw [Stack.ends_make]
    split
    · exact Emits.refl _
    · have probed : Emits (fun e => e.isMounting = false) s.world ((Stack.extensions options).foldl
          (fun w name => w.probed (.enableExtension name)) s.world) :=
        Emits.foldl fun _ _ _ => Emits.emit rfl
      exact (probed.push rfl).trans (Emits.silent rfl)
  | compile j vertex fragment config =>
    refine .unmounting (world_compile (Emits _ s.world) (Emits.refl _) fun _ _ => ?_)
    exact ProgramCache.builds_compile.events.mono fun _ => Event.isMounting_of_isBuilding
  | renderProgram j =>
    refine .unmounting ?_
    change Emits _ s.world (s.renderAside j).world
    unfold renderAside
    split
    · exact Emits.refl _
    · exact framed Program.extends_render.coarsen
  | render j =>
    exact .unmounting (world_onStack (Emits _ s.world) (Emits.refl _) fun stack _ =>
      framed Stack.extends_renderTo)
  | clear => exact .unmounting (Emits.emit rfl)
  | resize j width height =>
    exact .unmounting (world_onStack (Emits _ s.world) (Emits.refl _) fun stack _ =>
      framed (stack.extends_resize width height s.world))
  | read j config =>
    refine World.Upholds.mono ?_ owned
    revert minting
    change Minting (s.onStack j (readStack config)).world.events → Upholds _ s.world
      (s.onStack j (readStack config)).world
    refine world_onStack (fun w => Minting w.events → Upholds _ s.world w) (fun _ => .refl _)
      fun stack found => ?_
    refine readStack_of_ends (fun _ w => Minting w.events → Upholds _ s.world w) ?_
    exact (reads_read sound fitted found).imp (fun _ _ read => read.2) fun _ _ failed => failed.2
  | makeTexture width height =>
    refine World.Upholds.mono ?_ owned
    refine attempt_of_ends (fun s' => Minting s'.world.events → Upholds _ s.world s'.world) ?_ minting
    exact (RenderTexture.makes_make sound).imp (fun _ _ makes minting => (makes minting).upholds)
      fun _ _ makes minting => (makes minting).upholds
  | renderTexture key =>
    exact .unmounting (world_onHeld (Emits _ s.world) (Emits.refl _) fun _ =>
      framed RenderTexture.extends_render)
  | _ =>
    refine World.Upholds.mono ((erases_perform rfl).upholds_of_isErasure ?_) fun o both => ?_
    · exact (grows_perform _).minting minting
    · rw [(sound_perform _ sound).accounted.2]
      exact Multiset.mem_add.mpr (.inr both.2)

/-- The targets after a call were there before it, or they are new and fit. -/
theorem targets_perform (step : SessionStep) (sound : s.Sound) (fitted : s.Fitted)
    {entry : ReadConfig × ReadTarget}
    (there : ∃ stack ∈ (s.perform step).liveStacks, entry ∈ stack.targets) :
    (∃ stack ∈ s.liveStacks, entry ∈ stack.targets) ∨
      entry.2.Fits entry.1 (s.perform step).world.offscreen := by
  by_cases reading : ∃ j config, step = .read j config
  · obtain ⟨j, config, rfl⟩ := reading
    cases found : s.liveStacks[j]? with
    | none =>
      have same : s.perform (.read j config) = s := by
        change s.onStack j (readStack config) = s
        exact onStack_none found
      rw [same] at there
      exact .inl there
    | some stack =>
      have cases := read_cases found (reads_read (c := config) sound fitted found)
      split at cases
      · obtain ⟨_, stack', ⟨⟨target, reads⟩, _⟩, after⟩ := cases
        rw [after] at there
        rcases exists_of_set there with new | old
        · rcases reads.grows.mem_cases new with old | rfl
          · exact .inl ⟨stack, List.mem_of_getElem? found, old⟩
          · exact .inr reads.fits
        · exact .inl old
      · obtain ⟨_, _, after⟩ := cases
        rw [after] at there
        exact .inl there
  · have still (j : Nat) (config : ReadConfig) : step ≠ .read j config := fun same =>
      reading ⟨j, config, same⟩
    exact .inl (targets_of_leads (leads_perform step) still there)

/-- Every call leaves every target with the storage that it needs. -/
theorem fitted_perform (step : SessionStep) (sound : s.Sound) (fitted : s.Fitted)
    (minting : Minting (s.perform step).world.events) : (s.perform step).Fitted := by
  intro stack' there entry member
  rcases targets_perform step sound fitted ⟨stack', there, member⟩ with ⟨stack, before, old⟩ | new
  · refine upholds_perform step sound fitted minting entry.2 entry.1 (fun o mine => ?_)
      (fitted stack before entry old)
    exact ⟨mem_owns_of_target before old mine, mem_owns_of_target there member mine⟩
  · exact new

theorem fitted_run (steps : List SessionStep) (sound : s.Sound) (fitted : s.Fitted)
    (minting : Minting (run steps s).world.events) : (run steps s).Fitted := by
  induction steps generalizing s with
  | nil => exact fitted
  | cons step rest ih =>
    exact ih (sound_perform step sound) (fitted_perform step sound fitted (minting_before minting)) minting

theorem Reached.fitted (reached : s.Reached) (minting : Minting s.world.events) : s.Fitted := by
  obtain ⟨device, host, steps, rfl⟩ := reached
  refine fitted_run steps sound_fresh ?_ minting
  intro stack there
  exact absurd there List.not_mem_nil

/-- A target stays with its stack, under the same configuration. -/
theorem lookup_perform {key : ReadConfig} {target : ReadTarget} (sound : s.Sound) (fitted : s.Fitted)
    (found : s.liveStacks[i]? = some stack) (spares : step.Spares i)
    (known : stack.targets.lookup key = some target) :
    ∃ stack', (s.perform step).liveStacks[step.follow i]? = some stack' ∧
      stack'.targets.lookup key = some target := by
  by_cases reading : ∃ config, step = .read i config
  · obtain ⟨config, rfl⟩ := reading
    have cases := read_cases found (reads_read (c := config) sound fitted found)
    split at cases
    · obtain ⟨_, stack', ⟨⟨_, reads⟩, _⟩, after⟩ := cases
      refine ⟨stack', ?_, reads.grows.lookup_old known⟩
      rw [after]
      exact List.getElem?_set_self (List.getElem?_eq_some_iff.mp found).1
    · obtain ⟨_, _, after⟩ := cases
      exact ⟨stack, by rw [after]; exact found, known⟩
  · obtain ⟨stack', found', alters⟩ := exists_of_leads (leads_perform step) found spares
    refine ⟨stack', found', ?_⟩
    rw [alters.targets fun config same => reading ⟨config, same⟩, known]

theorem lookup_run {key : ReadConfig} {target : ReadTarget} {steps : List SessionStep} (sound : s.Sound)
    (fitted : s.Fitted) (found : s.liveStacks[i]? = some stack) (spared : Spared i steps)
    (minting : Minting (run steps s).world.events) (known : stack.targets.lookup key = some target) :
    ∃ stack', (run steps s).liveStacks[follow i steps]? = some stack' ∧
      stack'.targets.lookup key = some target := by
  induction steps generalizing s i stack with
  | nil => exact ⟨stack, found, known⟩
  | cons step rest ih =>
    obtain ⟨stack', found', known'⟩ := lookup_perform sound fitted found spared.1 known
    exact ih (sound_perform step sound) (fitted_perform step sound fitted (minting_before minting)) found'
      spared.2 minting known'

/-- What a readback that succeeds does, told by the framebuffer that it uses. -/
structure ReadsBack (s : Session δ) (i : Nat) (c : ReadConfig) (stack : Stack) (framebuffer : Handle) :
    Prop where
  /-- The stack's own programs draw into an image of the format and the size that is read. -/
  drawn : ∀ m ∈ s.course (.read i c), m.2.draw?.isSome → ∀ p ∈ stack.programs,
    m.1.graphics.vertexArray = some p.bindings.vertexArray →
      m.1.graphics.framebuffer = some framebuffer ∧ m.1.image = some (stack.pictured c)
  /-- Pixels are taken once, from the same image. -/
  taken : s.world.sources (s.perform (.read i c)).world = [(some framebuffer, some (stack.pictured c))]
  left : (s.perform (.read i c)).world.graphics.aim = (none, wholeOf stack.width stack.height)

/-- What a readback that fails leaves behind. -/
structure LeavesNoTrace (s : Session δ) (i : Nat) (c : ReadConfig) : Prop where
  /-- Its targets are part of a stack. -/
  unchanged : (s.perform (.read i c)).liveStacks = s.liveStacks
  objects : live (s.perform (.read i c)).world.events = live s.world.events
  screen : (s.perform (.read i c)).world.graphics.framebuffer = none
  viewport : (s.perform (.read i c)).world.graphics.viewport = s.world.graphics.viewport

/-- The context is on the default framebuffer between calls. -/
theorem Reached.screen (reached : s.Reached) : s.world.graphics.framebuffer = none := by
  obtain ⟨device, host, steps, rfl⟩ := reached
  have idle : (Session.run steps (fresh device host)).Idle (sizeLeft none steps (fresh device host)) :=
    idle_run steps sound_fresh rfl
  exact congrArg Prod.fst idle

theorem leavesNoTrace_of_failed (reached : s.Reached) (found : s.liveStacks[i]? = some stack)
    (failed : ((stack.read c).run.run s.world).1.isOk = false) (fitted : s.Fitted) :
    s.LeavesNoTrace i c := by
  have cases := read_cases found (reads_read (c := c) reached.sound fitted found)
  have restores := draws_read (c := c) reached.sound found
  rw [if_neg (by simp [failed])] at cases restores
  obtain ⟨_, ⟨textures, _⟩, unchanged⟩ := cases
  have aim := restores.aim reached.screen
  refine ⟨unchanged, ?_, (congrArg Prod.fst aim).trans reached.screen, congrArg Prod.snd aim⟩
  have aside : (s.perform (.read i c)).aside = s.aside := by
    have perform : s.perform (.read i c) = s.onStack i (readStack c) := rfl
    rw [perform, onStack_some found]
  rw [(sound_perform (.read i c) reached.sound).accounted.2, reached.sound.accounted.2]
  unfold World.owns owns
  rw [textures, unchanged, aside]

/-- A readback that succeeds uses the target that its stack keeps for the configuration. -/
theorem exists_readsBack (reached : s.Reached) (found : s.liveStacks[i]? = some stack)
    (minting : Minting (s.perform (.read i c)).world.events)
    (done : ((stack.read c).run.run s.world).1.isOk) :
    ∃ stack' target, (s.perform (.read i c)).liveStacks[i]? = some stack' ∧
      stack.ReadsInto c target stack' s.world (s.perform (.read i c)).world ∧
      s.ReadsBack i c stack target.framebuffer := by
  have early := (grows_perform _).minting minting
  have cases := read_cases found (reads_read (c := c) reached.sound (reached.fitted early) found)
  have drawing := draws_read (c := c) reached.sound found
  rw [if_pos done] at cases drawing
  obtain ⟨_, stack', ⟨⟨target, reads⟩, _⟩, after⟩ := cases
  have found' : (s.perform (.read i c)).liveStacks[i]? = some stack' := by
    rw [after]
    exact List.getElem?_set_self (List.getElem?_eq_some_iff.mp found).1
  obtain ⟨⟨stack₁, target₁, found₁, kept, drawing⟩, left⟩ := drawing
  obtain rfl : stack' = stack₁ := Option.some.inj (found'.symm.trans found₁)
  obtain rfl : target = target₁ := Option.some.inj (reads.grows.lookup.symm.trans kept)
  refine ⟨stack', target, found', reads, ?_, reads.taken, left⟩
  intro m member draw p mine bound
  obtain ⟨d, drawn⟩ := Option.isSome_iff_exists.mp draw
  have made : (m.1.graphics, d) ∈ s.draws (.read i c) := by
    unfold draws
    rw [← World.graphics_offscreen]
    exact OffscreenState.mem_draws member drawn
  rcases mem_draws _ drawing _ made with layer | ⟨_, _, _, aim⟩
  · exact absurd layer (not_drawsLayer reached.sound early (mem_owns_of_stack found mine) bound)
  · have screen : m.1.graphics.framebuffer = some target.framebuffer := congrArg Prod.fst aim
    exact ⟨screen, (reads.drawn m member draw).image screen⟩

/-- A stack reads from one framebuffer for each configuration, with its size made explicit. The
framebuffer is made by the first readback that succeeds and used by all later ones. A readback that
fails leaves no trace. -/
theorem readback_targets_made_once (reached : s.Reached) (found : s.liveStacks[i]? = some stack)
    (minting : Minting (s.perform (.read i c)).world.events) :
    if ((stack.read c).run.run s.world).1.isOk then
      ∃ framebuffer, s.ReadsBack i c stack framebuffer ∧
        ∀ (between : List SessionStep) (d : ReadConfig) (stack' : Stack), Spared i between →
          let s' := run between (s.perform (.read i c))
          let j := follow i between
          s'.liveStacks[j]? = some stack' → Minting (s'.perform (.read j d)).world.events →
          ((stack'.read d).run.run s'.world).1.isOk →
            ∃ framebuffer', s'.ReadsBack j d stack' framebuffer' ∧
              (framebuffer' = framebuffer ↔ stack'.resolved d = stack.resolved c) ∧
              (stack'.resolved d = stack.resolved c →
                ∀ m ∈ s'.course (.read j d), m.2.creates? = none)
    else s.LeavesNoTrace i c := by
  have early := (grows_perform _).minting minting
  split
  · next done =>
    obtain ⟨stack₁, target, found₁, reads, readsBack⟩ := exists_readsBack reached found minting done
    refine ⟨target.framebuffer, readsBack, ?_⟩
    intro between d stack' spared s' j found' minting' done'
    have reached₁ : (s.perform (.read i c)).Reached := reached.run [.read i c]
    have reached' : s'.Reached := reached₁.run between
    have minted : Minting s'.world.events := (grows_perform _).minting minting'
    obtain ⟨stack₂, target', found₂, reads', readsBack'⟩ := exists_readsBack reached' found' minting' done'
    obtain ⟨stack₃, found₃, known⟩ := lookup_run reached₁.sound (reached₁.fitted minting) found₁ spared
      minted reads.grows.lookup
    obtain rfl : stack' = stack₃ := Option.some.inj (found'.symm.trans found₃)
    refine ⟨target'.framebuffer, readsBack', ⟨fun shared => ?_, fun same => ?_⟩, fun same => ?_⟩
    · -- both targets are there after the second readback, and one framebuffer belongs to one target
      have mine := mem_of_lookup reads'.grows.lookup
      have mine' := mem_of_lookup (reads'.grows.lookup_old known)
      exact congrArg Prod.fst (eq_of_framebuffer (sound_perform _ reached'.sound) minting'
        (List.mem_of_getElem? found₂) mine mine' shared)
    · have kept := reads'.grows.lookup_old known
      rw [← same, reads'.grows.lookup] at kept
      rw [Option.some.inj kept]
    · have kept := reads'.grows.lookup_old known
      rw [← same, reads'.grows.lookup] at kept
      refine reads'.frugal ?_
      rw [same, known, Option.some.inj kept]
  · next failed =>
    exact leavesNoTrace_of_failed reached found (by simpa using failed) (reached.fitted early)

/-- A stack with one program. -/
def surveyed : Session RecordingDevice :=
  let shader (template : Identity) : CompiledShader := ⟨template, "void main", []⟩
  run [.makeStack true 8 8 {}, .compile 0 (shader 0) (shader 1) { draw := .arrays 0 3 }, .addToStack 0 0]
    (fresh {} {})

/-- The stack is read, and after it got smaller it is read twice, in the end at its old size. Only the
readback in between has a framebuffer of its own. -/
theorem surveyed_targets_made_once :
    let first := surveyed.perform (.read 0 {})
    let second := run [.resize 0 4 4] first
    let third := run [.resize 0 4 4, .read 0 {}] first
    ∃ framebuffer framebuffer', framebuffer' ≠ framebuffer ∧
      surveyed.world.sources first.world = [(some framebuffer, some ⟨.rgba8, 8, 8⟩)] ∧
      second.world.sources (second.perform (.read 0 {})).world =
        [(some framebuffer', some ⟨.rgba8, 4, 4⟩)] ∧
      third.world.sources (third.perform (.read 0 { width := some 8, height := some 8 })).world =
        [(some framebuffer, some ⟨.rgba8, 8, 8⟩)] := by
  intro first second third
  have reached : surveyed.Reached := ⟨_, _, _, rfl⟩
  have minting : Minting first.world.events := by decide +kernel
  have shown : (surveyed.liveStacks[0]?.map fun stack =>
      (stack.width, stack.height, ((stack.read {}).run.run surveyed.world).1.isOk)) =
        some (8, 8, true) := by decide +kernel
  have shown₂ : (second.liveStacks[0]?.map fun stack =>
      (stack.width, stack.height, ((stack.read {}).run.run second.world).1.isOk)) =
        some (4, 4, true) := by decide +kernel
  have shown₃ : (third.liveStacks[0]?.map fun stack =>
      ((stack.read { width := some 8, height := some 8 }).run.run third.world).1.isOk) =
        some true := by decide +kernel
  obtain ⟨stack, found, size⟩ := Option.map_eq_some_iff.mp shown
  obtain ⟨stack₂, found₂, size₂⟩ := Option.map_eq_some_iff.mp shown₂
  obtain ⟨stack₃, found₃, done₃⟩ := Option.map_eq_some_iff.mp shown₃
  obtain ⟨width, height, done⟩ : stack.width = 8 ∧ stack.height = 8 ∧ _ = true := by simpa using size
  obtain ⟨width₂, height₂, done₂⟩ : stack₂.width = 4 ∧ stack₂.height = 4 ∧ _ = true := by
    simpa using size₂
  have once := readback_targets_made_once reached found minting
  rw [if_pos done] at once
  obtain ⟨framebuffer, reads, later⟩ := once
  obtain ⟨framebuffer₂, reads₂, shared₂, _⟩ := later [.resize 0 4 4] {} stack₂
    (by simp [Spared, SessionStep.Spares]) found₂ (by decide +kernel) done₂
  obtain ⟨framebuffer₃, reads₃, shared₃, _⟩ := later [.resize 0 4 4, .read 0 {}]
    { width := some 8, height := some 8 } stack₃ (by simp [Spared, SessionStep.Spares]) found₃
    (by decide +kernel) done₃
  refine ⟨framebuffer, framebuffer₂, fun same => ?_, ?_, ?_, ?_⟩
  · have sizes := congrArg ReadConfig.width (shared₂.mp same)
    simp [Stack.resolved, ReadConfig.resolve, width, width₂] at sizes
  · rw [reads.taken, Stack.pictured]
    simp [width, height]
  · have taken := reads₂.taken
    simp only [Stack.pictured, Option.getD_none, width₂, height₂] at taken
    exact taken
  · have taken := reads₃.taken
    rw [shared₃.mpr (by simp [Stack.resolved, ReadConfig.resolve, width, height])] at taken
    exact taken

end Session
end ShaderStack

import ShaderStack.Proofs.Ownership
import ShaderStack.Proofs.Session
import ShaderStack.Device.Recording

/-! No object leaks and none is deleted twice, whatever fails.

At each moment of a session the live objects are those that its stacks, its programs and its
render textures own, each counted once. -/
namespace ShaderStack

open World (Kept Extends Emits)

variable {δ : Type} {w : World δ} {rest : Multiset Object} {holds : Multiset Nat}

/-- A change of the tables that moves no render texture. -/
theorem World.Kept.tables {w' : World δ} (kept : Kept rest holds w) (trace : w'.trace = w.trace)
    (textures : w'.textures = w.textures) (nextKey : w.nextKey ≤ w'.nextKey) :
    Kept rest holds w' where
  accounted := by
    unfold World.Accounted World.events World.owns
    rw [trace, textures]
    exact kept.accounted
  shared :=
    { distinct := textures ▸ kept.shared.distinct
      old := by
        rw [textures]
        exact fun key member => Nat.lt_of_lt_of_le (kept.shared.old key member) nextKey
      counted := by
        unfold World.texture?
        rw [textures]
        exact kept.shared.counted
      present := by
        unfold World.texture?
        rw [textures]
        exact kept.shared.present }

/-- The calls that only move values about or let go of them. -/
def SessionStep.isBookkeeping : SessionStep → Bool
  | makeStack _ _ _ _ | compile _ _ _ _ | renderProgram _ | render _ | clear | resize _ _ _
  | read _ _ | makeTexture _ _ | renderTexture _ => false
  | _ => true

namespace Session

variable {s : Session δ}

/-- What the host's stacks and programs own. The render textures' objects come on top. -/
def owns (s : Session δ) : Multiset Object :=
  (s.aside.map Program.owns).sum + (s.liveStacks.map Stack.owns).sum

/-- The holds on render textures: those of the host and those of its stacks. -/
def grips (s : Session δ) : Multiset Nat :=
  (s.held : Multiset Nat) + (s.liveStacks.map fun stack => (stack.layers : Multiset Nat)).sum

/-- All live objects have one owner, and each render texture knows how often it is held. -/
def Sound (s : Session δ) : Prop := Kept s.owns s.grips s.world

/-- A stack in its session, and what changes with it. -/
theorem split_stack {i : Nat} {stack : Stack} (found : s.liveStacks[i]? = some stack) :
    ∃ (others : Multiset Object) (more : Multiset Nat),
      s.owns = stack.owns + others ∧ s.grips = stack.layers + more ∧
      (∀ (stack' : Stack) (world : World δ),
        owns { s with world := world, liveStacks := s.liveStacks.set i stack' } = stack'.owns + others ∧
        grips { s with world := world, liveStacks := s.liveStacks.set i stack' } = stack'.layers + more) ∧
      ∀ world : World δ, owns { s with world := world, liveStacks := s.liveStacks.eraseIdx i } = others ∧
        grips { s with world := world, liveStacks := s.liveStacks.eraseIdx i } = more := by
  obtain ⟨before, after, split, set, erased⟩ := split_of_getElem? found
  refine ⟨(s.aside.map Program.owns).sum + ((before ++ after).map Stack.owns).sum,
    s.held + ((before ++ after).map fun stack => (stack.layers : Multiset Nat)).sum, ?_⟩
  simp only [owns, grips, set, erased]
  rw [split]
  simp only [List.map_append, List.map_cons, List.sum_append, List.sum_cons]
  refine ⟨by abel, by abel, fun _ _ => ⟨by abel, by abel⟩, fun _ => ⟨trivial, trivial⟩⟩

/-- The cache of a stack, and what changes with it. -/
theorem split_cache {i : Nat} {stack : Stack} (found : s.liveStacks[i]? = some stack) :
    ∃ others : Multiset Object, s.owns = stack.cache.owns + others ∧
      ∀ (cache : ProgramCache) (world : World δ),
        owns { s with world := world, liveStacks := s.liveStacks.set i { stack with cache } } =
            cache.owns + others ∧
          grips { s with world := world, liveStacks := s.liveStacks.set i { stack with cache } } =
            s.grips := by
  obtain ⟨others, more, owned, held, changed, _⟩ := split_stack found
  refine ⟨(stack.programs.map Program.owns).sum + (stack.targets.map fun t => t.2.owns).sum + others,
    ?_, fun cache world => ⟨?_, ?_⟩⟩
  · rw [owned, Stack.owns]
    abel
  · rw [(changed { stack with cache } world).1, Stack.owns]
    abel
  · rw [(changed { stack with cache } world).2, held]

/-- A program that stands aside, and what changes with it. -/
theorem split_aside {j : Nat} {p : Program} (found : s.aside[j]? = some p) :
    ∃ others : Multiset Object, s.owns = p.owns + others ∧
      (∀ (p' : Program) (world : World δ),
        owns { s with world := world, aside := s.aside.set j p' } = p'.owns + others) ∧
      ∀ world : World δ, owns { s with world := world, aside := s.aside.eraseIdx j } = others := by
  obtain ⟨before, after, split, set, erased⟩ := split_of_getElem? found
  refine ⟨((before ++ after).map Program.owns).sum + (s.liveStacks.map Stack.owns).sum, ?_⟩
  simp only [owns, set, erased]
  rw [split]
  simp only [List.map_append, List.map_cons, List.sum_append, List.sum_cons]
  exact ⟨by abel, fun _ _ => by abel, fun _ => trivial⟩

/-- A program that is taken from aside is the caller's. -/
theorem sound_takeAside {j : Nat} {use : Program → Session δ → Session δ} (sound : s.Sound)
    (kept : ∀ p s', Kept (p.owns + s'.owns) s'.grips s'.world → s'.held = s.held → (use p s').Sound) :
    (s.takeAside j use).Sound := by
  unfold takeAside
  cases found : s.aside[j]? with
  | none => exact sound
  | some p =>
    obtain ⟨others, owned, _, erased⟩ := split_aside found
    refine kept p _ ?_ rfl
    rw [erased s.world, ← owned]
    exact sound

theorem sound_onHeld {key : Nat} {call : Session δ → Session δ} (sound : s.Sound)
    (kept : key ∈ s.held → (call s).Sound) : (s.onHeld key call).Sound := by
  unfold onHeld
  by_cases held : key ∈ s.held
  · rw [if_pos held]
    exact kept held
  · rw [if_neg held]
    exact sound

theorem grips_of_held {key : Nat} (held : key ∈ s.held) : key ∈ s.grips :=
  Multiset.mem_add.mpr (.inl held)

theorem sound_onStack {i : Nat} {action : Stack → Engine δ Stack} (sound : s.Sound)
    (kept : ∀ stack rest holds, s.grips = stack.layers + holds →
      Kept (stack.owns + rest) (stack.layers + holds) s.world →
      Kept (((action stack).run s.world).1.owns + rest)
        (((action stack).run s.world).1.layers + holds) ((action stack).run s.world).2) :
    (s.onStack i action).Sound := by
  cases found : s.liveStacks[i]? with
  | none =>
    rw [onStack_none found]
    exact sound
  | some stack =>
    obtain ⟨others, more, owned, held, changed, _⟩ := split_stack found
    have before : Kept (stack.owns + others) (stack.layers + more) s.world := by
      rw [← owned, ← held]
      exact sound
    obtain ⟨owned', held'⟩ := changed ((action stack).run s.world).1 ((action stack).run s.world).2
    rw [onStack_some found]
    unfold Sound
    rw [owned', held']
    exact kept stack others more held before

theorem owns_addStack {stack : Stack} {world : World δ} :
    owns { s with world, liveStacks := s.liveStacks ++ [stack] } = stack.owns + s.owns := by
  simp only [owns, List.map_append, List.map_cons, List.map_nil, List.sum_append, List.sum_cons,
    List.sum_nil]
  abel

theorem grips_addStack {stack : Stack} {world : World δ} :
    grips { s with world, liveStacks := s.liveStacks ++ [stack] } = stack.layers + s.grips := by
  simp only [grips, List.map_append, List.map_cons, List.map_nil, List.sum_append, List.sum_cons,
    List.sum_nil]
  abel

theorem owns_addAside (s : Session δ) (programs : List Program) :
    owns { s with aside := s.aside ++ programs } = (programs.map Program.owns).sum + s.owns := by
  simp only [owns, List.map_append, List.sum_append]
  abel

theorem grips_addAside {programs : List Program} :
    grips { s with aside := s.aside ++ programs } = s.grips := rfl

theorem grips_addHeld {key : Nat} {world : World δ} :
    grips { s with world, held := key :: s.held } = {key} + s.grips := by
  simp only [grips, ← Multiset.cons_coe, ← Multiset.singleton_add, add_assoc]

theorem grips_erase {key : Nat} (held : key ∈ s.held) :
    {key} + grips { s with held := s.held.erase key } = s.grips := by
  have moved : {key} + ((s.held.erase key : List Nat) : Multiset Nat) = s.held := by
    rw [Multiset.singleton_add, ← Multiset.coe_erase]
    exact Multiset.cons_erase held
  simp only [grips]
  rw [← add_assoc, moved]

theorem sound_addToStack {i : Nat} {p : Program} (kept : Kept (p.owns + s.owns) s.grips s.world) :
    (s.addToStack i p).Sound := by
  unfold addToStack Sound
  cases found : s.liveStacks[i]? with
  | none =>
    rw [owns_addAside, grips_addAside]
    simpa using kept
  | some stack =>
    obtain ⟨others, more, owned, held, changed, _⟩ := split_stack found
    obtain ⟨owned', held'⟩ := changed (stack.add p) s.world
    have same : (stack.add p).owns + others = p.owns + s.owns := by
      rw [owned]
      simp only [Stack.owns, Stack.add, List.map_append, List.map_cons, List.map_nil,
        List.sum_append, List.sum_cons, List.sum_nil]
      abel
    rw [owned', held', same]
    rw [held] at kept
    exact kept

/-- What the host's stacks and programs own, no render texture owns. -/
theorem owns_apart (sound : s.Sound) (minting : Minting s.world.events) {o : Object}
    (mine : o ∈ s.owns) : o ∉ s.world.owns := by
  have distinct := nodup_live minting
  rw [sound.accounted.2, Multiset.nodup_add] at distinct
  exact fun theirs => Multiset.disjoint_left.mp distinct.2.2 theirs mine

theorem mem_owns_of_stack {i : Nat} {stack : Stack} {p : Program}
    (found : s.liveStacks[i]? = some stack) (member : p ∈ stack.programs) :
    (⟨.vertexArray, p.bindings.vertexArray⟩ : Object) ∈ s.owns := by
  refine Multiset.mem_add.mpr (.inr (mem_sum_owned (List.mem_of_getElem? found) ?_))
  exact Multiset.mem_add.mpr (.inl (Multiset.mem_add.mpr (.inl (mem_sum_owned member p.array_mem_owns))))

theorem mem_owns_of_aside {j : Nat} {p : Program} (found : s.aside[j]? = some p) :
    (⟨.vertexArray, p.bindings.vertexArray⟩ : Object) ∈ s.owns :=
  Multiset.mem_add.mpr (.inl (mem_sum_owned (List.mem_of_getElem? found) p.array_mem_owns))

theorem array_mem_owns_texture {t : RenderTexture} {p : Program} (member : p ∈ t.programs) :
    (⟨.vertexArray, p.bindings.vertexArray⟩ : Object) ∈ t.owns :=
  Multiset.mem_add.mpr (.inl (Multiset.mem_add.mpr (.inl (mem_sum_owned member p.array_mem_owns))))

theorem mem_owns_of_texture {w : World δ} {key : Nat} {t : RenderTexture} {p : Program}
    (found : w.texture? key = some t) (member : p ∈ t.programs) :
    (⟨.vertexArray, p.bindings.vertexArray⟩ : Object) ∈ w.owns :=
  mem_sum_owned (mem_of_lookup found) (array_mem_owns_texture member)

theorem present_of_stack {i : Nat} {stack : Stack} (sound : s.Sound)
    (found : s.liveStacks[i]? = some stack) :
    ∀ key ∈ stack.layers, ∃ t, s.world.texture? key = some t := by
  intro key member
  obtain ⟨others, more, _, held, _, _⟩ := split_stack found
  refine sound.shared.present key ?_
  rw [held]
  exact Multiset.mem_add.mpr (.inl member)

variable [GraphicsDevice δ]

theorem sound_makeStack {supported : Bool} {width height : UInt32} {options : StackOptions}
    (sound : s.Sound) : (s.perform (.makeStack supported width height options)).Sound := by
  have probes (names : List String) (w : World δ) (kept : Kept s.owns s.grips w) :
      Kept s.owns s.grips (names.foldl (fun w name => w.probed (.enableExtension name)) w) := by
    induction names generalizing w with
    | nil => exact kept
    | cons name names ih => exact ih _ kept.probed
  refine attempt_of_ends Sound ?_
  rw [Stack.ends_make]
  split
  · exact sound
  · have sized := (probes (Stack.extensions options) s.world sound).performed
      (c := .viewport 0 0 width height) rfl
    unfold Sound
    dsimp only
    rw [owns_addStack, grips_addStack]
    simp only [Stack.owns, ProgramCache.owns, List.map_nil, List.sum_nil, Multiset.coe_nil, zero_add]
    exact sized.tables rfl rfl (Nat.le_succ _)

/-- A program that was built stands aside, beside what its stack's cache now owns. -/
theorem sound_compile {i : Nat} {vertex fragment : CompiledShader} {config : ProgramConfig}
    (sound : s.Sound) : (s.perform (.compile i vertex fragment config)).Sound := by
  cases found : s.liveStacks[i]? with
  | none =>
    rw [perform_compile_missing found]
    exact sound
  | some stack =>
    obtain ⟨others, owned, changed⟩ := split_cache found
    have before : Kept (stack.cache.owns + others) s.grips s.world := owned ▸ sound
    have built := ProgramCache.kept_compile stack.redraw vertex fragment config before
    rw [(perform_compile vertex fragment config found).1]
    generalize (stack.cache.compile stack.redraw vertex fragment config).run s.world = answer at built
    obtain ⟨⟨result, cache⟩, world⟩ := answer
    dsimp only at built ⊢
    obtain ⟨owned', held'⟩ := changed cache world
    have yielded : (result.toOption.toList.map Program.owns).sum = ProgramCache.yield result := by
      cases result <;> simp [ProgramCache.yield, Except.toOption]
    have aside := owns_addAside { s with world, liveStacks := s.liveStacks.set i { stack with cache } }
      result.toOption.toList
    rw [owned', yielded] at aside
    rw [← aside, ← held'] at built
    exact built

theorem sound_readStack {i : Nat} {config : ReadConfig} (sound : s.Sound) :
    (s.onStack i (readStack config)).Sound := by
  refine sound_onStack sound fun stack rest holds _ kept => ?_
  refine readStack_of_ends (fun stack' w => Kept (stack'.owns + rest) (stack'.layers + holds) w) ?_
  refine (Stack.kept_read kept).imp ?_ fun _ _ => id
  rintro ⟨pixels, stack'⟩ w ⟨kept', layers⟩
  rw [← layers] at kept'
  exact kept'

theorem sound_dropStack {i : Nat} (sound : s.Sound) : (s.dropStack i).Sound := by
  unfold dropStack
  cases found : s.liveStacks[i]? with
  | none => exact sound
  | some stack =>
    obtain ⟨others, more, owned, held, _, erased⟩ := split_stack found
    have before : Kept (stack.owns + others) (stack.layers + more) s.world := by
      rw [← owned, ← held]
      exact sound
    obtain ⟨owned', held'⟩ := erased (stack.drop.run s.world).2
    unfold Sound
    rw [owned', held']
    exact Stack.kept_drop before

theorem sound_renderAside {j : Nat} (sound : s.Sound) : (s.renderAside j).Sound := by
  unfold renderAside
  cases found : s.aside[j]? with
  | none => exact sound
  | some p =>
    obtain ⟨others, owned, set, _⟩ := split_aside found
    have drawn : Extends (·.isFrame) RenderTexture.shell s.world (p.render.run s.world).2 :=
      (Program.extends_render).coarsen
    have same : (p.render.run s.world).1.owns = p.owns := by
      rw [← Program.owns_shell, Program.run_render, Program.shell_flushed, Program.owns_shell]
    obtain owned' := set (p.render.run s.world).1 (p.render.run s.world).2
    rw [same, ← owned] at owned'
    have kept : Kept s.owns s.grips (p.render.run s.world).2 := sound.frame drawn
    rw [← owned'] at kept
    exact kept

/-- Bookkeeping asks nothing of the context but to delete. -/
theorem erases_perform {step : SessionStep} (keeps : step.isBookkeeping) :
    Emits (·.isErasure) s.world (s.perform step).world := by
  cases step with
  | makeStack _ _ _ _ | compile _ _ _ _ | renderProgram _ | render _ | clear | resize _ _ _
  | read _ _ | makeTexture _ _ | renderTexture _ => simp [SessionStep.isBookkeeping] at keeps
  | changeHost _ | changeSurface _ _ => exact Emits.silent rfl
  | fireSurface name => exact Emits.silent World.events_notify
  | addToStack i j =>
    refine world_takeAside (Emits _ s.world) (Emits.refl _) fun p s' same => ?_
    unfold addToStack
    split <;> exact Emits.silent (by rw [same])
  | addToTexture key j =>
    refine world_onHeld (Emits _ s.world) (Emits.refl _) fun _ => ?_
    refine world_takeAside (Emits _ s.world) (Emits.refl _) fun p s' same => ?_
    exact Emits.silent (World.events_altered.trans (by rw [same]))
  | dropProgram j =>
    refine world_takeAside (Emits _ s.world) (Emits.refl _) fun p s' same => ?_
    rw [← same]
    exact Program.erases_drop
  | onResize i listener =>
    exact world_onStack (Emits _ s.world) (Emits.refl _) fun _ _ => Emits.refl _
  | takeRedraw i =>
    exact world_onStack (Emits _ s.world) (Emits.refl _) fun _ _ => Emits.silent rfl
  | dropStack i =>
    change Emits _ s.world (s.dropStack i).world
    unfold dropStack
    split
    · exact Emits.refl _
    · exact Stack.erases_drop
  | retain key =>
    refine world_onHeld (Emits _ s.world) (Emits.refl _) fun _ => ?_
    exact Emits.silent World.events_altered
  | release key =>
    exact world_onHeld (Emits _ s.world) (Emits.refl _) fun _ => RenderTexture.erases_release
  | addLayer i key =>
    refine world_onHeld (Emits _ s.world) (Emits.refl _) fun _ => ?_
    refine world_onStack (Emits _ s.world) (Emits.refl _) fun _ _ => ?_
    exact Emits.silent World.events_altered

theorem sound_perform (step : SessionStep) (sound : s.Sound) : (s.perform step).Sound := by
  cases step with
  | changeHost change => exact Kept.tables sound rfl rfl (Nat.le_refl _)
  | changeSurface name texture => exact Kept.tables sound rfl rfl (Nat.le_refl _)
  | fireSurface name => exact sound.frame Extends.notify
  | makeStack supported width height options => exact sound_makeStack sound
  | compile i vertex fragment config => exact sound_compile sound
  | addToStack i j => exact sound_takeAside sound fun p s' kept _ => sound_addToStack kept
  | addToTexture key j =>
    refine sound_onHeld sound fun held => sound_takeAside sound fun p s' kept same => ?_
    exact RenderTexture.kept_add kept (grips_of_held (same ▸ held))
  | renderProgram j => exact sound_renderAside sound
  | dropProgram j =>
    refine sound_takeAside sound fun p s' kept _ => ?_
    have dropped : Kept s'.owns s'.grips (p.drop.run s'.world).2 := kept.drop
    exact dropped
  | render i =>
    change (s.onStack i Stack.render).Sound
    refine sound_onStack sound fun stack rest holds _ kept => ?_
    obtain ⟨owned, layers⟩ := stack.owns_renderTo none stack.width stack.height s.world
    unfold Stack.render
    rw [owned, layers]
    exact kept.frame Stack.extends_renderTo
  | clear => exact Kept.performed sound rfl
  | resize i width height =>
    change (s.onStack i (Stack.resize width height)).Sound
    refine sound_onStack sound fun stack rest holds _ kept => ?_
    obtain ⟨owned, layers⟩ := stack.owns_resize width height s.world
    rw [owned, layers]
    exact kept.frame (stack.extends_resize width height s.world)
  | onResize i listener => exact sound_onStack sound fun _ _ _ _ kept => kept
  | takeRedraw i =>
    exact sound_onStack sound fun _ _ _ _ kept => kept.frame Extends.setRequests
  | read i config => exact sound_readStack sound
  | dropStack i => exact sound_dropStack sound
  | makeTexture width height =>
    refine attempt_of_ends Sound ((RenderTexture.kept_make sound).imp ?_ fun _ _ kept => kept)
    intro key w kept
    unfold Sound
    rwa [grips_addHeld]
  | retain key =>
    refine sound_onHeld sound fun held => ?_
    unfold Sound
    rw [grips_addHeld]
    exact RenderTexture.kept_retain sound (grips_of_held held)
  | release key =>
    refine sound_onHeld sound fun held => ?_
    have kept : Kept s.owns ({key} + grips { s with held := s.held.erase key }) s.world := by
      rw [grips_erase held]
      exact sound
    have released := RenderTexture.kept_release kept
    exact released
  | addLayer i key =>
    refine sound_onHeld sound fun held => ?_
    refine sound_onStack sound fun stack rest holds grips kept => ?_
    have layers : ((stack.layers ++ [key] : List Nat) : Multiset Nat) + holds =
        {key} + (stack.layers + holds) := by
      rw [← Multiset.coe_add, Multiset.coe_singleton]
      abel
    have added : Kept (stack.owns + rest) ((stack.layers ++ [key] : List Nat) + holds)
        ((RenderTexture.retain key).run s.world).2 := by
      rw [layers]
      exact RenderTexture.kept_retain kept (grips ▸ grips_of_held held)
    exact added
  | renderTexture key =>
    refine sound_onHeld sound fun held => ?_
    have drawn : Kept s.owns s.grips ((RenderTexture.render key).run s.world).2 :=
      sound.frame RenderTexture.extends_render
    exact drawn

omit [GraphicsDevice δ] in
theorem sound_fresh {device : δ} {host : Host} : (fresh device host).Sound where
  accounted := ⟨trivial, rfl⟩
  shared :=
    { distinct := List.nodup_nil
      old := by simp [fresh]
      counted := by simp [fresh, World.texture?]
      present := by simp [fresh, grips] }

theorem sound_run (steps : List SessionStep) (sound : s.Sound) : (run steps s).Sound := by
  induction steps generalizing s with
  | nil => exact sound
  | cons step rest ih => exact ih (sound_perform step sound)

omit [GraphicsDevice δ] in
/-- Without stacks, programs and holds nothing is left. -/
theorem Sound.live_eq_zero (sound : s.Sound) (noStacks : s.liveStacks = []) (noPrograms : s.aside = [])
    (noHolds : s.held = []) : live s.world.events = 0 := by
  have free : s.grips = 0 := by simp [grips, noStacks, noHolds]
  have textures : s.world.textures = [] := by
    cases tables : s.world.textures with
    | nil => rfl
    | cons entry rest =>
      obtain ⟨key, t⟩ := entry
      have present : s.world.texture? key = some t := by
        simp [World.texture?, tables]
      obtain ⟨counted, positive⟩ := sound.shared.counted key t present
      rw [free, Multiset.count_zero] at counted
      omega
  rw [sound.accounted.2]
  simp [World.owns, owns, textures, noStacks, noPrograms]

theorem Reached.sound (reached : s.Reached) : s.Sound := by
  obtain ⟨device, host, steps, rfl⟩ := reached
  exact sound_run steps sound_fresh

/-- Whatever a host did and whatever failed, only live objects were deleted and none was deleted
twice. Once the host has let go of everything, each object has been deleted. -/
theorem deletes_each_object_once (reached : s.Reached) (minting : Minting s.world.events) :
    Orderly s.world.events ∧
      ∀ before e after o, s.world.events = before ++ e :: after → e.creates? = some o →
        deletions o (lifetime o after) ≤ 1 ∧
          (s.liveStacks = [] → s.aside = [] → s.held = [] →
            deletions o (lifetime o after) = 1) := by
  have orderly : Orderly s.world.events := reached.sound.accounted.1
  refine ⟨orderly, ?_⟩
  intro before e after o split creates
  have live := reached.sound.live_eq_zero
  rw [split] at orderly minting live
  obtain ⟨most, once⟩ := deletions_lifetime orderly minting creates
  refine ⟨most, ?_⟩
  intro noStacks noPrograms noHolds
  apply once
  rw [live noStacks noPrograms noHolds]
  exact Multiset.notMem_zero o

/-- A stack with a layer and a program is drawn, read and let go of. -/
def errand : Session RecordingDevice :=
  let shader (template : Identity) : CompiledShader := ⟨template, "void main", []⟩
  run
    [.makeStack true 8 8 {}, .makeTexture 4 4, .addLayer 0 1,
      .compile 0 (shader 0) (shader 1) { draw := .arrays 0 3 }, .addToStack 0 0, .render 0,
      .read 0 {}, .renderTexture 1, .release 1, .dropStack 0]
    (fresh {} {})

theorem minting_errand : Minting errand.world.events := by decide +kernel

theorem errand_deletes_each_object_once :
    errand.Reached ∧ Minting errand.world.events ∧
      ∀ before e after o, errand.world.events = before ++ e :: after → e.creates? = some o →
        deletions o (lifetime o after) = 1 := by
  have reached : errand.Reached := ⟨_, _, _, rfl⟩
  refine ⟨reached, minting_errand, ?_⟩
  intro before e after o split creates
  have once := (deletes_each_object_once reached minting_errand).2 before e after o split creates
  exact once.2 (by decide +kernel) (by decide +kernel) (by decide +kernel)

end Session
end ShaderStack

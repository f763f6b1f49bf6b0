import ShaderStack.Proofs.Upkeep

/-! Calls that make something.

What was there is spared. A new render texture is mounted on its framebuffer, and a program that is
built in a calm moment brings the tokens that were bound last. -/
namespace ShaderStack

open World (Extends Emits Kept Spares)

namespace Session

variable {δ : Type} [GraphicsDevice δ] {s s' : Session δ} {tokens more : List Token}
  {origin : Program → Prop}

/-- What the linked program answers during a call. -/
def answers (s : Session δ) (step : SessionStep) : List (Lookup × Option Location) :=
  lookups ((s.perform step).world.events.drop s.world.events.length)

/-- A call builds a program from tokens at their slots. -/
def Builds (s : Session δ) (step : SessionStep) (p : Program) (bound : List (BindingSlot × Token)) :
    Prop :=
  ∃ i vertex fragment config, step = .compile i vertex fragment config ∧
    s.outcome i vertex fragment config = some (.ok p) ∧
    bound = allSlots p.handle vertex fragment config (s.answers step)

/-- What is left of a program that a call builds, when its slots bring the tokens bound last. -/
def Yields (s : Session δ) (step : SessionStep) (f : Program) : Prop :=
  ∃ p bound, s.Builds step p bound ∧ p.frozen = f ∧ Serves p.bindings.queue.entries bound

/-- A new render texture has no programs. -/
theorem mem_programs_makeTexture {width height : UInt32} :
    ∀ p ∈ (s.perform (.makeTexture width height)).programs, p ∈ s.programs := by
  have old {w : World δ} (same : w.textures = s.world.textures) :
      ∀ p ∈ programs { s with world := w }, p ∈ s.programs := by
    intro p member
    unfold programs World.programs at member ⊢
    rwa [same] at member
  refine attempt_of_ends (fun s' => ∀ p ∈ s'.programs, p ∈ s.programs) ?_
  rw [RenderTexture.ends_make]
  split
  · exact old rfl
  · refine ⟨fun texture _ => ⟨fun framebuffer _ => ?_, fun _ _ => old rfl⟩, fun _ _ => old rfl⟩
    dsimp only
    split
    · exact old rfl
    · intro p member
      refine mem_programs.mpr ((mem_programs.mp member).imp_right (Or.imp_right fun texture => ?_))
      obtain ⟨t, here, mine⟩ := List.mem_flatMap.mp texture
      rcases eq_or_mem_of_mem_assign here with rfl | there
      · exact absurd mine List.not_mem_nil
      · exact List.mem_flatMap.mpr ⟨t, there, mine⟩

theorem Prepared.makeTexture {width height : UInt32} (prepared : s.Prepared tokens origin)
    (sound : s.Sound) (minting : Minting (s.perform (.makeTexture width height)).world.events) :
    (s.perform (.makeTexture width height)).Prepared tokens origin := by
  revert minting
  refine attempt_of_ends (fun s' => Minting s'.world.events → s'.Prepared tokens origin) ?_
  refine (RenderTexture.mounted_make sound).imp ?_ ?_
  · intro key w made minting
    obtain ⟨spares, entries⟩ := made minting
    refine prepared.grow spares ?_ ?_
    · intro p member
      rw [mem_programs] at member ⊢
      refine .inl (member.imp_right (Or.imp_right fun texture => ?_))
      obtain ⟨e, there, mine⟩ := List.mem_flatMap.mp texture
      rcases entries e there with old | ⟨none, _⟩
      · exact List.mem_flatMap.mpr ⟨e, old, mine⟩
      · simp [none] at mine
    · intro f member
      rw [mem_mounts] at member ⊢
      rcases member with own | layer
      · exact .inl (.inl own)
      · obtain ⟨e, there, rfl⟩ := List.mem_map.mp layer
        rcases entries e there with old | ⟨_, attached⟩
        · exact .inl (.inr (List.mem_map_of_mem old))
        · exact .inr attached
  · rintro e w ⟨same, spares⟩ minting
    have within : s.Within { s with world := w } := .of_world rfl rfl (.of_textures same)
    exact prepared.grow (spares minting) (fun p member => .inl (within.programs p member))
      fun f member => .inl (within.mounts f member)

/-- Every answer that a call gets is to a token that it binds. -/
theorem builds_of_lookups {i : Nat} {vertex fragment : CompiledShader} {config : ProgramConfig}
    {p : Program} {answered : List (Lookup × Option Location)}
    (yielded : s.outcome i vertex fragment config = some (.ok p))
    (asked : lookups (s.perform (.compile i vertex fragment config)).world.events =
      lookups s.world.events ++ answered) :
    s.Builds (.compile i vertex fragment config) p
      (allSlots p.handle vertex fragment config answered) := by
  refine ⟨i, vertex, fragment, config, rfl, yielded, ?_⟩
  obtain ⟨es, split, _⟩ := grows_perform (s := s) (.compile i vertex fragment config)
  rw [split, lookups_append] at asked
  unfold answers
  rw [split, List.drop_left, List.append_cancel_left asked]

/-- A compilation keeps the programs that were there, and builds one more if it succeeds. -/
theorem mem_programs_compile {i : Nat} {vertex fragment : CompiledShader} {config : ProgramConfig}
    {p : Program} (member : p ∈ (s.perform (.compile i vertex fragment config)).programs) :
    p ∈ programs { s with world := (s.perform (.compile i vertex fragment config)).world } ∨
      s.outcome i vertex fragment config = some (.ok p) := by
  cases found : s.liveStacks[i]? with
  | none =>
    rw [perform_compile_missing found] at member ⊢
    exact .inl member
  | some stack =>
    obtain ⟨run, yielded⟩ := perform_compile vertex fragment config found
    rw [run] at member ⊢
    rw [yielded]
    rcases mem_programs.mp member with aside | own | texture
    · rcases List.mem_append.mp aside with before | new
      · exact .inl (mem_programs.mpr (.inl before))
      · right
        generalize ((stack.cache.compile stack.redraw vertex fragment config).run s.world).1.1 = result
          at new ⊢
        cases result with
        | ok q => rw [List.mem_singleton.mp new]
        | error e => exact absurd new List.not_mem_nil
    · refine .inl (mem_programs.mpr (.inr (.inl ?_)))
      exact (exists_of_set own).elim (fun mine => ⟨stack, List.mem_of_getElem? found, mine⟩) id
    · exact .inl (mem_programs.mpr (.inr (.inr texture)))

theorem extends_compile (s : Session δ) (i : Nat) (vertex fragment : CompiledShader)
    (config : ProgramConfig) :
    Extends (·.isQuiet) RenderTexture.bare s.world
      (s.perform (.compile i vertex fragment config)).world :=
  world_compile (Extends _ _ s.world) (Extends.refl _) fun _ _ => ProgramCache.extends_compile

/-- A compilation on a stack spares what was there and equips the program that it builds. -/
theorem equipped_perform {i : Nat} {vertex fragment : CompiledShader} {config : ProgramConfig}
    {stack : Stack} (found : s.liveStacks[i]? = some stack) (sound : s.Sound)
    (free : s.world.graphics.vertexArray = none)
    (minting : Minting (s.perform (.compile i vertex fragment config)).world.events)
    (words : WordNames (s.perform (.compile i vertex fragment config)).world.events) :
    Spares (· ∈ s.world.owns + s.owns) s.world (s.perform (.compile i vertex fragment config)).world ∧
      ∀ p, s.outcome i vertex fragment config = some (.ok p) →
        ∃ bound, s.Builds (.compile i vertex fragment config) p bound ∧
          p.Equipped (s.moment (tokens ++ SessionStep.tokens (.compile i vertex fragment config))) bound
            (s.perform (.compile i vertex fragment config)).world.graphics := by
  generalize known : tokens ++ SessionStep.tokens (.compile i vertex fragment config) = all
  obtain ⟨others, owned, _⟩ := split_cache found
  have kept : Kept (stack.cache.owns + others) s.grips s.world := owned ▸ sound
  have brought (n : NamedToken) (member : n ∈ vertex.tokens ++ fragment.tokens) : n.token ∈ all :=
    known ▸ List.mem_append_right _ (SessionStep.mem_tokens_of_named i n member)
  have indexed (t : Token) (member : t ∈ config.indices) : t ∈ all :=
    known ▸ List.mem_append_right _ (SessionStep.mem_tokens_of_indices i t member)
  have built := ProgramCache.equipped_compile (m := s.moment all) stack.redraw kept free ⟨_, .start⟩
    brought indexed
  rw [← owned] at built
  obtain ⟨run, yielded⟩ := perform_compile vertex fragment config found
  have same := congrArg Session.world run
  dsimp only at built same
  rw [← same] at built
  obtain ⟨spares, equipped⟩ := built minting words
  refine ⟨spares, fun p outcome => ?_⟩
  rw [yielded] at outcome
  obtain ⟨answered, asked, equipped⟩ := equipped p (Option.some.inj outcome)
  exact ⟨_, builds_of_lookups (yielded.trans outcome) asked, equipped⟩

/-- A program that is built is ready for its first frame. -/
theorem Prepared.compile {i : Nat} {vertex fragment : CompiledShader} {config : ProgramConfig}
    (prepared : s.Prepared tokens origin) (sound : s.Sound)
    (minting : Minting (s.perform (.compile i vertex fragment config)).world.events)
    (words : WordNames (s.perform (.compile i vertex fragment config)).world.events) :
    (s.perform (.compile i vertex fragment config)).Prepared
      (tokens ++ SessionStep.tokens (.compile i vertex fragment config))
      fun f => origin f ∨
        ((s.moment (tokens ++ SessionStep.tokens (.compile i vertex fragment config))).Calm →
          s.Yields (.compile i vertex fragment config) f) := by
  have old : s.Prepared (tokens ++ SessionStep.tokens (.compile i vertex fragment config))
      fun f => origin f ∨
        ((s.moment (tokens ++ SessionStep.tokens (.compile i vertex fragment config))).Calm →
          s.Yields (.compile i vertex fragment config) f) :=
    prepared.mono (fun t => List.mem_append_left _) fun _ => .inl
  cases found : s.liveStacks[i]? with
  | none =>
    rw [perform_compile_missing found]
    exact old
  | some stack =>
    obtain ⟨spares, equipped⟩ := equipped_perform found sound prepared.free minting words
    have within := World.Within.of_extends (s.extends_compile i vertex fragment config)
    refine old.grow spares (fun p member => ?_) fun f member => ?_
    · rcases mem_programs_compile member with kept | result
      · refine .inl (mem_programs.mpr ((mem_programs.mp kept).imp_right (Or.imp_right ?_)))
        exact within.programs p
      · obtain ⟨bound, builds, wired, settled, serves⟩ := equipped p result
        exact .inr ⟨wired, settled, .inr fun calm => ⟨p, bound, builds, rfl, serves calm⟩⟩
    · have target := mem_mounts.mp member
      refine .inl (mem_mounts.mpr (target.imp (fun own => ?_) (within.mounts f)))
      rw [(perform_compile vertex fragment config found).1] at own
      exact (exists_of_set own).elim (fun mine => ⟨stack, List.mem_of_getElem? found, mine⟩) id

end Session
end ShaderStack

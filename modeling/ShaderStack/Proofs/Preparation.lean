import ShaderStack.Proofs.Compiling
import ShaderStack.Proofs.Managers
import ShaderStack.Proofs.Mounts
import ShaderStack.Proofs.Viewports

/-! What holds of the programs of a session between its calls.

Each of them is wired up, what its updates uploaded last is there, and no framebuffer draws into its
textures. Calls that draw nothing keep it so. -/
namespace ShaderStack

open World (Extends Emits Kept Spares Within)

/-- The tokens that a call binds. -/
def SessionStep.tokens : SessionStep → List Token
  | compile _ vertex fragment config =>
    (vertex.tokens ++ fragment.tokens).map NamedToken.token ++ config.indices.toList
  | _ => []

namespace SessionStep

variable {vertex fragment : CompiledShader} {config : ProgramConfig}

theorem mem_tokens_of_named (i : Nat) (n : NamedToken) (known : n ∈ vertex.tokens ++ fragment.tokens) :
    n.token ∈ tokens (.compile i vertex fragment config) :=
  List.mem_append_left _ (List.mem_map_of_mem known)

theorem mem_tokens_of_indices (i : Nat) (t : Token) (known : t ∈ config.indices) :
    t ∈ tokens (.compile i vertex fragment config) :=
  List.mem_append_right _ (Option.mem_toList.mpr known)

end SessionStep

theorem Program.Wired.mono {p : Program} {tokens more : List Token} (wired : p.Wired tokens)
    (grow : ∀ t ∈ tokens, t ∈ more) : p.Wired more := by
  refine { wired with carries := fun e member => ?_ }
  obtain ⟨t, known, carried⟩ := wired.carries e member
  exact ⟨t, grow t known, carried⟩

/-- A program that is wired up and finds there what it uploaded last. -/
structure Program.Prepared (tokens : List Token) (origin : Program → Prop) (g : GraphicsState)
    (p : Program) : Prop where
  wired : p.Wired tokens
  settled : p.Settled g
  origin : origin p.frozen

namespace Session

variable {δ : Type} {s s' : Session δ}

/-- All programs, wherever they are kept. -/
def programs (s : Session δ) : List Program :=
  s.aside ++ (s.liveStacks.flatMap Stack.programs ++ s.world.programs)

def mounts (s : Session δ) : List (Handle × Option Handle) :=
  s.liveStacks.flatMap Stack.mounts ++ s.world.mounts

/-- What is owned beside the programs. -/
def fixtures (s : Session δ) : Multiset Object :=
  (s.liveStacks.map fun stack => (stack.targets.map fun t => t.2.owns).sum + stack.cache.owns).sum +
    (s.world.textures.map fun t =>
      ({⟨.framebuffer, t.2.framebuffer⟩} + {⟨.texture, t.2.texture⟩} : Multiset Object)).sum

theorem mem_programs {p : Program} : p ∈ s.programs ↔
    p ∈ s.aside ∨ (∃ stack ∈ s.liveStacks, p ∈ stack.programs) ∨ p ∈ s.world.programs := by
  simp [programs]

theorem programs_fresh {device : δ} {host : Host} : (fresh device host).programs = [] := rfl

/-- A stack that takes the place of another one, or one of the old ones. -/
theorem exists_of_set {i : Nat} {live : List Stack} {new : Stack} {fits : Stack → Prop}
    (here : ∃ stack ∈ live.set i new, fits stack) : fits new ∨ ∃ stack ∈ live, fits stack := by
  obtain ⟨stack, member, fit⟩ := here
  rcases List.mem_or_eq_of_mem_set member with old | rfl
  · exact .inr ⟨stack, old, fit⟩
  · exact .inl fit

theorem mem_mounts {f : Handle × Option Handle} : f ∈ s.mounts ↔
    (∃ stack ∈ s.liveStacks, f ∈ stack.mounts) ∨ f ∈ s.world.mounts := by
  simp [mounts]

theorem sum_owned_flatMap {xs : List α} {programs : α → List Program} {others : α → Multiset Object} :
    (xs.map fun x => ((programs x).map Program.owns).sum + others x).sum =
      ((xs.flatMap programs).map Program.owns).sum + (xs.map others).sum := by
  induction xs with
  | nil => rfl
  | cons x xs ih =>
    simp only [List.map_cons, List.sum_cons, List.flatMap_cons, List.map_append, List.sum_append, ih]
    abel

/-- Everything that is owned belongs to the programs or beside them. -/
theorem owns_eq (s : Session δ) :
    s.world.owns + s.owns = (s.programs.map Program.owns).sum + s.fixtures := by
  have textures : s.world.owns = (s.world.programs.map Program.owns).sum +
      (s.world.textures.map fun t =>
        ({⟨.framebuffer, t.2.framebuffer⟩} + {⟨.texture, t.2.texture⟩} : Multiset Object)).sum := by
    unfold World.programs
    rw [← sum_owned_flatMap]
    simp only [World.owns, RenderTexture.owns, add_assoc]
  have kept : (s.liveStacks.map Stack.owns).sum =
      ((s.liveStacks.flatMap Stack.programs).map Program.owns).sum + (s.liveStacks.map fun stack =>
        (stack.targets.map fun t => t.2.owns).sum + stack.cache.owns).sum := by
    rw [← sum_owned_flatMap]
    exact congrArg List.sum (List.map_congr_left fun stack _ => add_assoc _ _ _)
  rw [textures, owns, kept]
  simp only [programs, fixtures, List.map_append, List.sum_append]
  abel

theorem mem_owns_of_program {p : Program} (member : p ∈ s.programs) {o : Object} (mine : o ∈ p.owns) :
    o ∈ s.world.owns + s.owns := by
  rw [owns_eq]
  exact Multiset.mem_add.mpr (.inl (mem_sum_owned member mine))

theorem mem_fixtures_of_mount {f : Handle × Option Handle} (member : f ∈ s.mounts) :
    (⟨.framebuffer, f.1⟩ : Object) ∈ s.fixtures := by
  rcases List.mem_append.mp member with own | layer
  · obtain ⟨stack, there, mine⟩ := List.mem_flatMap.mp own
    obtain ⟨t, here, rfl⟩ := List.mem_map.mp mine
    refine Multiset.mem_add.mpr (.inl (mem_sum_owned there (Multiset.mem_add.mpr (.inl ?_))))
    exact mem_sum_owned here (Multiset.mem_add.mpr (.inl (Multiset.mem_singleton_self _)))
  · obtain ⟨t, here, rfl⟩ := List.mem_map.mp layer
    refine Multiset.mem_add.mpr (.inr (mem_sum_owned here ?_))
    exact Multiset.mem_add.mpr (.inl (Multiset.mem_singleton_self _))

theorem mem_owns_of_mount {f : Handle × Option Handle} (member : f ∈ s.mounts) :
    (⟨.framebuffer, f.1⟩ : Object) ∈ s.world.owns + s.owns := by
  rw [owns_eq]
  exact Multiset.mem_add.mpr (.inr (mem_fixtures_of_mount member))

theorem mem_fixtures_of_texture {key : Nat} {t : RenderTexture}
    (present : s.world.texture? key = some t) : (⟨.texture, t.texture⟩ : Object) ∈ s.fixtures := by
  refine Multiset.mem_add.mpr (.inr (mem_sum_owned (mem_of_lookup present) ?_))
  exact Multiset.mem_add.mpr (.inr (Multiset.mem_singleton_self _))

/-- Between two calls every program is ready to draw. -/
structure Prepared (tokens : List Token) (origin : Program → Prop) (s : Session δ) : Prop where
  programs : ∀ p ∈ s.programs, p.Prepared tokens origin s.world.graphics
  mounted : s.world.graphics.Mounted s.mounts
  free : s.world.graphics.vertexArray = none

/-- No program is new, and no framebuffer. -/
structure Within (s s' : Session δ) : Prop where
  programs : ∀ p ∈ s'.programs, p ∈ s.programs
  mounts : ∀ f ∈ s'.mounts, f ∈ s.mounts

/-- The start of a call. -/
def moment (tokens : List Token) (s : Session δ) : Moment :=
  ⟨tokens, s.programs.flatMap Program.uploads, s.world.host, s.world.textureOf?⟩

section Prepared

variable {tokens more : List Token} {origin wider : Program → Prop}

theorem Prepared.mono (prepared : s.Prepared tokens origin) (grow : ∀ t ∈ tokens, t ∈ more)
    (widen : ∀ p, origin p → wider p) : s.Prepared more wider where
  programs p member :=
    { wired := (prepared.programs p member).wired.mono grow
      settled := (prepared.programs p member).settled
      origin := widen _ (prepared.programs p member).origin }
  mounted := prepared.mounted
  free := prepared.free

/-- The programs of a session that is prepared can draw. -/
theorem Prepared.ready (prepared : s.Prepared tokens origin) (sound : s.Sound)
    (minting : Minting s.world.events) :
    Ready (s.moment tokens) (fun f => ∃ q ∈ s.programs, q.frozen = f) (s.moment tokens).arrays
      s.programs s.world := by
  have distinct := nodup_live minting
  rw [sound.accounted.2, owns_eq, Multiset.nodup_add] at distinct
  obtain ⟨own, _, apart⟩ := distinct
  constructor
  · exact fun p member => (prepared.programs p member).wired
  · exact fun p member => (prepared.programs p member).settled
  · exact fun p member a upload => List.mem_flatMap.mpr ⟨p, member, upload⟩
  · exact fun p member => ⟨p, member, rfl⟩
  · exact own
  · intro key t present h attached mine
    have mount : t.mount ∈ s.mounts :=
      List.mem_append_right _ (List.mem_map_of_mem (mem_of_lookup present))
    obtain rfl : t.texture = h := Option.some.inj ((prepared.mounted _ mount).symm.trans attached)
    exact Multiset.disjoint_left.mp apart mine (mem_fixtures_of_texture present)
  · exact .start
  · rfl
  · exact prepared.free

/-- What is spared stays prepared, beside what is new. -/
theorem Prepared.carry {kept : Object → Prop} (prepared : s.Prepared tokens origin)
    (spares : Spares kept s.world s'.world)
    (programs : ∀ p ∈ s'.programs, (p ∈ s.programs ∧ ∀ o ∈ p.owns, kept o) ∨
      p.Prepared tokens origin s'.world.graphics)
    (mounts : ∀ f ∈ s'.mounts, (f ∈ s.mounts ∧ kept ⟨.framebuffer, f.1⟩) ∨
      s'.world.graphics.attachments f.1 = f.2) : s'.Prepared tokens origin := by
  constructor
  · intro p member
    rcases programs p member with ⟨old, keep⟩ | new
    · obtain ⟨wired, settled, known⟩ := prepared.programs p old
      refine ⟨wired, settled.keep wired ?_, known⟩
      exact fun _ c _ o mine part => spares.same prepared.free c o part (keep o mine)
    · exact new
  · intro f member
    rcases mounts f member with ⟨old, keep⟩ | new
    · have same := spares.same prepared.free (.attachment f.1) _ rfl keep
      simp only [Cell.Same] at same
      rw [same]
      exact prepared.mounted f old
    · exact new
  · exact spares.free prepared.free

/-- A call that adds something beside what was there. -/
theorem Prepared.grow (prepared : s.Prepared tokens origin)
    (spares : Spares (· ∈ s.world.owns + s.owns) s.world s'.world)
    (programs : ∀ p ∈ s'.programs, p ∈ s.programs ∨ p.Prepared tokens origin s'.world.graphics)
    (mounts : ∀ f ∈ s'.mounts, f ∈ s.mounts ∨ s'.world.graphics.attachments f.1 = f.2) :
    s'.Prepared tokens origin := by
  refine prepared.carry spares ?_ ?_
  · intro p member
    exact (programs p member).imp_left fun old => ⟨old, fun _ => mem_owns_of_program old⟩
  · intro f member
    exact (mounts f member).imp_left fun old => ⟨old, mem_owns_of_mount old⟩

/-- A call that adds nothing and leaves what is there in the end as it was. -/
theorem Prepared.narrow (prepared : s.Prepared tokens origin) (within : s.Within s')
    (spares : Spares (· ∈ s'.world.owns + s'.owns) s.world s'.world) : s'.Prepared tokens origin := by
  refine prepared.carry spares ?_ ?_
  · exact fun p member => .inl ⟨within.programs p member, fun _ => mem_owns_of_program member⟩
  · exact fun f member => .inl ⟨within.mounts f member, mem_owns_of_mount member⟩

/-- A frame that leaves every program ready for more. -/
theorem Prepared.framed {seen : List HostArray} (prepared : s.Prepared tokens origin)
    (run : Extends (·.isFrame) RenderTexture.shell s.world s'.world)
    (targets : ∀ f ∈ s'.liveStacks.flatMap Stack.mounts, f ∈ s.liveStacks.flatMap Stack.mounts)
    (ready : Ready (s.moment tokens) (fun f => ∃ q ∈ s.programs, q.frozen = f) seen s'.programs
      s'.world) : s'.Prepared tokens origin := by
  constructor
  · intro p member
    obtain ⟨q, old, same⟩ := ready.origin p member
    exact ⟨ready.wired p member, ready.settled p member, same ▸ (prepared.programs q old).origin⟩
  · intro f member
    rw [run.events.attachments_of_isFrame]
    refine prepared.mounted f ?_
    unfold mounts at member ⊢
    rw [run.mounts] at member
    exact List.mem_append.mpr ((List.mem_append.mp member).imp_left (targets f))
  · exact ready.free

end Prepared

end Session
end ShaderStack

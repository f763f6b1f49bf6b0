import ShaderStack.Proofs.Wiring

/-! What a compilation brings.

Whatever others own stays as it was. A program that is built has one update for each slot, and what the
update uploaded first is there. In a calm moment it brings the token that was bound last. -/
namespace ShaderStack

open World (Extends Emits Kept Spares)

variable {δ : Type} {w : World δ} {m : Moment} {rest : Multiset Object} {holds : Multiset Nat}

/-- A program that is wired up. Built in a calm moment, its slots bring the tokens that were bound
last. -/
structure Program.Equipped (m : Moment) (bound : List (BindingSlot × Token)) (g : GraphicsState)
    (p : Program) : Prop where
  wired : p.Wired m.tokens
  settled : p.Settled g
  serves : m.Calm → Serves p.bindings.queue.entries bound

theorem Wires.equipped {bound : List (BindingSlot × Token)} {b : Bindings} (wires : Wires m bound b w)
    (owned : Bool) (config : ProgramConfig) :
    (ProgramCache.bound owned config b).Equipped m bound w.graphics := by
  have mine (o : Object) (member : o ∈ b.owns) : o ∈ (ProgramCache.bound owned config b).owns :=
    Multiset.mem_add.mpr (.inl member)
  refine ⟨⟨wires.carries, wires.apart, ?_⟩, wires.settled, wires.serves⟩
  intro e member c stored
  rcases Update.object_of_stores stored with part | ⟨o, theirs, part⟩
  · exact ⟨_, mine _ (by simp [ProgramCache.bound, Bindings.owns]), part⟩
  · exact ⟨o, mine o (wires.owned e member o theirs), part⟩

/-- Nothing is bound to a new vertex array. -/
theorem given_start {handle vertexArray : Handle} (free : w.graphics.vertexArray = none)
    (reaches : ∃ seen, m.Reaches seen w.host) :
    Given m [] { program := handle, vertexArray } w := fun _ _ =>
  { free, reaches
    serves := fun _ _ => .none
    distinct := List.nodup_nil
    placed := by simp
    carries := by simp
    owned := by simp
    counted := by simp [Bindings.textures]
    seated := by simp
    apart := .nil
    settled := by simp }

namespace ProgramCache

variable [GraphicsDevice δ] {cache : ProgramCache} {vertex fragment : CompiledShader}

/-- Linking asks for nothing but a program. -/
theorem link_cases (cache : ProgramCache) (vertex fragment : CompiledShader) (cached : Bool)
    (w : World δ) :
    ((cache.link vertex fragment cached).run w).2 = w ∨
      ((cache.link vertex fragment cached).run w).2 =
        w.allocated (.program vertex.source fragment.source) := by
  rw [run_link]
  split
  · exact .inl rfl
  · dsimp only
    split <;> exact .inr rfl

/-- A compilation that yields a program yields what its binding does. -/
theorem exists_bind_of_compile {cache' : ProgramCache} {redraw : RedrawKey} {config : ProgramConfig}
    {w' : World δ} {p : Program}
    (compiled : (cache.compile redraw vertex fragment config).run w = ((.ok p, cache'), w')) :
    ∃ handle owned start, (start = w ∨ start = w.allocated (.program vertex.source fragment.source)) ∧
      (bind handle owned redraw vertex fragment config).run.run start = (.ok p, w') := by
  rw [run_compile] at compiled
  cases fit : checkSharedNames vertex fragment with
  | error e =>
    rw [fit] at compiled
    cases compiled
  | ok _ =>
    rw [fit] at compiled
    have linked := link_cases (δ := δ) cache vertex fragment config.cached w
    dsimp only at compiled
    generalize (cache.link vertex fragment config.cached).run w = link at compiled linked
    obtain ⟨⟨e | ⟨handle, owned⟩, cache₁⟩, start⟩ := link
    · cases compiled
    · dsimp only at compiled linked
      generalize built : (bind handle owned redraw vertex fragment config).run.run start = answer
        at compiled
      obtain ⟨result, w₂⟩ := answer
      cases compiled
      exact ⟨handle, owned, start, linked, built⟩

/-- Nothing is evicted from a cache. -/
theorem owns_link {cached : Bool} {o : Object} (member : o ∈ cache.owns) :
    o ∈ ((cache.link vertex fragment cached).run w).1.2.owns := by
  rw [run_link]
  split
  · exact member
  · dsimp only
    split
    · exact member
    · dsimp only
      split
      · unfold owns at member ⊢
        rw [List.map_cons]
        exact List.mem_cons_of_mem _ member
      · exact member

/-- Linking leaves everything that was there as it was. -/
theorem spares_link (cache : ProgramCache) (vertex fragment : CompiledShader) (cached : Bool)
    (kept : Kept rest holds w) :
    let linked := (cache.link vertex fragment cached).run w
    (Minting linked.2.events → Spares (· ∈ w.owns + rest) w linked.2) ∧
      (w.graphics.vertexArray = none → linked.2.graphics.vertexArray = none) ∧
      lookups linked.2.events = lookups w.events ∧ linked.2.host = w.host ∧ linked.2.owns = w.owns := by
  dsimp only
  rcases link_cases cache vertex fragment cached w with same | linked
  · rw [same]
    exact ⟨fun _ => Spares.refl w, id, rfl, rfl, rfl⟩
  · rw [linked]
    exact ⟨kept.spares_allocated, World.vertexArray_allocated, lookups_allocated, rfl, rfl⟩

/-- Binding equips the program, or gives back what it took. -/
theorem equipped_bind {handle : Handle} {owned : Bool} (redraw : RedrawKey) (config : ProgramConfig)
    (kept : Kept ((if owned then {⟨.program, handle⟩} else 0) + rest) holds w)
    (free : w.graphics.vertexArray = none) (reaches : ∃ seen, m.Reaches seen w.host)
    (known : ∀ n ∈ vertex.tokens ++ fragment.tokens, n.token ∈ m.tokens)
    (indexed : ∀ t ∈ config.indices, t ∈ m.tokens) :
    (bind handle owned redraw vertex fragment config).Ends w
      (fun p w' => Minting w'.events → WordNames w'.events → Spares (· ∈ w.owns + rest) w w' ∧
        ∃ answers, lookups w'.events = lookups w.events ++ answers ∧
          p.Equipped m (allSlots p.handle vertex fragment config answers) w'.graphics)
      fun _ w' => Minting w'.events → Spares (· ∈ w.owns + rest) w w' := by
  rw [ends_bind]
  refine ⟨?_, ?_⟩
  · intro vertexArray granted
    have start := kept.started handle granted
    have given : Given m [] { program := handle, vertexArray } (w.allocated .vertexArray) :=
      given_start (World.vertexArray_allocated free) reaches
    have same : (w.allocated .vertexArray).owns = w.owns := rfl
    -- up to the last call, whatever becomes of the program
    have spares {b : Bindings} {w' : World δ}
        (path : Binder.Path ({ program := handle, vertexArray }, w.allocated .vertexArray) (b, w'))
        (minting : Minting w'.events) : Spares (· ∈ w.owns + rest) w w' := by
      have bound := start.spares_path path minting
      have granted := kept.spares_granted ((Binder.extends_path path).events.minting minting)
      rw [same] at bound
      exact granted.trans (bound.mono fun _ => World.mem_beside)
    refine ((Binder.follows_bindAll _ _ _ .refl).and
      (given_bindAll given start known indexed)).imp ?_ ?_
    · rintro _ b w' ⟨path, answers, events, given'⟩ minting words
      have program : b.program = handle := (start.path path).2
      refine ⟨spares path minting, answers, ?_, ?_⟩
      · rw [events, lookups_allocated]
      · have equipped := (given' minting words).equipped owned config
        rw [← program] at equipped
        exact equipped
    · rintro e b w' ⟨path, _⟩ minting
      have whole : Kept ((bound owned config b).owns + rest) holds w' := by
        obtain ⟨bound, program⟩ := start.path path
        unfold Program.owns Program.handle ProgramCache.bound
        rw [program, add_assoc]
        exact bound
      have erased : Emits (·.isErasure) w' ((bound owned config b).drop.run w').2 :=
        Program.erases_drop
      have dropped := erased.spares_of_isErasure (erased.minting minting)
      have kept' := whole.drop
      have owns : ((bound owned config b).drop.run w').2.owns = w.owns := by
        have dropping : Extends (·.isErasure) RenderTexture.shell w'
            ((bound owned config b).drop.run w').2 := Program.extends_drop
        rw [dropping.owns, (Binder.extends_path path).coarsen.owns]
        exact same
      rw [kept'.accounted.2, owns] at dropped
      exact (spares path (erased.minting minting)).trans dropped
  · intro e granted minting
    cases owned with
    | true =>
      have deleting : Emits (fun _ => True) (w.allocated .vertexArray)
          ((w.allocated .vertexArray).perform (.deleteProgram handle)) := Emits.emit trivial
      have gone : ⟨.program, handle⟩ ∉ w.owns + rest := by
        refine kept.not_mem_of_hand ?_ (by simp)
        have granting : Emits (fun _ => True) w (w.allocated .vertexArray) := Emits.emit trivial
        exact (granting.trans deleting).minting minting
      have deleted : Spares (· ∈ w.owns + rest) (w.allocated .vertexArray)
          ((w.allocated .vertexArray).performAll [.deleteProgram handle]) :=
        Spares.deleteAll (by simpa [Command.deletes?] using gone)
      exact (kept.spares_granted (deleting.minting minting)).trans deleted
    | false => exact kept.spares_granted minting

/-- A compilation spares whatever others own and what is cached. -/
theorem equipped_compile (redraw : RedrawKey) {config : ProgramConfig}
    (kept : Kept (cache.owns + rest) holds w) (free : w.graphics.vertexArray = none)
    (reaches : ∃ seen, m.Reaches seen w.host)
    (known : ∀ n ∈ vertex.tokens ++ fragment.tokens, n.token ∈ m.tokens)
    (indexed : ∀ t ∈ config.indices, t ∈ m.tokens) :
    let built := (cache.compile redraw vertex fragment config).run w
    Minting built.2.events → WordNames built.2.events → Spares (· ∈ w.owns + (cache.owns + rest)) w built.2 ∧
      ∀ p, built.1.1 = .ok p → ∃ answers, lookups built.2.events = lookups w.events ++ answers ∧
        p.Equipped m (allSlots p.handle vertex fragment config answers) built.2.graphics := by
  rw [run_compile]
  cases checkSharedNames vertex fragment with
  | error e => exact fun _ _ => ⟨Spares.refl w, nofun⟩
  | ok fit =>
    have linked := kept_link vertex fragment config.cached kept
    obtain ⟨spares, unbound, events, host, owns⟩ :=
      spares_link cache vertex fragment config.cached kept
    have cached {o : Object} (member : o ∈ cache.owns) :
        o ∈ ((cache.link vertex fragment config.cached).run w).1.2.owns := owns_link member
    dsimp only at spares unbound events host owns cached ⊢
    generalize (cache.link vertex fragment config.cached).run w = answer at *
    obtain ⟨⟨e | ⟨handle, owned⟩, cache'⟩, w₁⟩ := answer
    · exact fun minting _ => ⟨spares minting, nofun⟩
    · dsimp only at *
      have built := equipped_bind redraw config linked (unbound free) (host ▸ reaches) known indexed
      have grown := extends_bind (w := w₁) handle owned redraw vertex fragment config
      unfold Attempt.Ends at built grown
      generalize (bind handle owned redraw vertex fragment config).run.run w₁ = answer at built grown
      have kept' {o : Object} (member : o ∈ w.owns + (cache.owns + rest)) :
          o ∈ w₁.owns + (cache'.owns + rest) := by
        simp only [Multiset.mem_add] at member ⊢
        rw [owns]
        exact member.imp_right (Or.imp_left cached)
      obtain ⟨e | p, w₂⟩ := answer
      · intro minting _
        refine ⟨(spares (grown.events.minting minting)).trans ((built minting).mono fun _ => kept'), nofun⟩
      · intro minting words
        obtain ⟨spared, answers, asked, equipped⟩ := built minting words
        refine ⟨(spares (grown.events.minting minting)).trans (spared.mono fun _ => kept'), ?_⟩
        intro p' yielded
        obtain rfl : p = p' := Except.ok.inj yielded
        exact ⟨answers, asked.trans (by rw [events]), equipped⟩

end ProgramCache
end ShaderStack

import ShaderStack.Proofs.Diffing
import ShaderStack.Proofs.Untouched

/-! Where the indices of a new program are.

Index tokens and listed indices share one count and one element binding. The token that is bound last has
both, and without a token they belong to the listed indices, which nothing overwrites. So a new program
that draws with indices always has some. -/
namespace ShaderStack

open World (Emits Kept)

variable {δ : Type} {w w' : World δ} {m : Moment} {b : Bindings}

namespace Update

variable {u : Update} {program vertexArray buffer : Handle}

theorem object_of_buffer (written : .buffer buffer ∈ u.cells program vertexArray) :
    u.object? = some ⟨.buffer, buffer⟩ := by
  cases u <;> simp_all [cells, stores, pushes, object?]

theorem slot_of_elementArray (written : .elementArray (some vertexArray) ∈ u.cells program vertexArray) :
    u.slot = .elements := by
  cases u <;> simp_all [cells, stores, pushes, slot]

end Update

/-- Indices that are listed with a draw: in a buffer that no update writes to, and in use. -/
structure Program.Lists (p : Program) (g : GraphicsState) (buffer : Handle) (listed : List UInt32) :
    Prop where
  bound : p.Rests (.elementArray (some p.bindings.vertexArray))
  stored : p.Rests (.buffer buffer)
  tokenless : ∀ e ∈ p.bindings.queue.entries, e.2.slot ≠ .elements
  drawn : p.bindings.elements = some ⟨listed.length, .u32⟩
  array : g.elementArrays (some p.bindings.vertexArray) = some buffer
  bytes : g.buffers buffer = listed.flatMap (HostArray.littleEndian 4)

namespace Binder

/-- Indices are in use only if the queue has a token for them. -/
def Indexed (b : Bindings) : Prop :=
  b.elements.isSome → ∃ u, b.queue.entries.lookup .elements = some (.elements u)

theorem Indexed.register {b' : Bindings} {slot : BindingSlot} {u : Update} (indexed : Indexed b)
    (other : slot ≠ .elements) (queue : b'.queue = (b.queue.register slot u).2)
    (elements : b'.elements = b.elements) : Indexed b' := by
  unfold Indexed
  rw [elements, queue]
  intro used
  obtain ⟨v, found⟩ := indexed used
  refine ⟨v, ?_⟩
  change (assign slot u b.queue.entries).lookup .elements = _
  rw [lookup_assign_other other.symm]
  exact found

theorem indexed_missing {declared : List String} {stage : ShaderStage} {name : String}
    {type : TokenType} : Keeps (fun b _ => Indexed b) (fun _ _ => True)
      (missing declared stage name type : Binder δ Unit) :=
  Keeps.missing fun _ _ _ => id

variable [GraphicsDevice δ]

theorem indexed_bindAttribute {declared : List String} {stage : ShaderStage} {name : String}
    {t : AttributeToken} : Keeps (fun b _ => Indexed b) (fun _ _ => True)
      (bindAttribute declared stage name t : Binder δ Unit) := by
  intro b w indexed
  rw [ends_bindAttribute]
  dsimp only
  split
  · exact indexed_missing b _ indexed
  · rw [ends_uploadBuffer]
    exact ⟨fun buffer _ => indexed.register BindingSlot.noConfusion rfl rfl, fun _ _ => trivial⟩

theorem indexed_bindElements {t : AttributeToken} : Keeps (fun b _ => Indexed b) (fun _ _ => True)
    (bindElements t : Binder δ Unit) := by
  intro b w indexed
  rw [ends_bindElements]
  dsimp only
  split
  · exact indexed
  · rw [ends_uploadBuffer]
    exact ⟨fun buffer _ _ => ⟨_, lookup_assign_same⟩, fun _ _ => trivial⟩

theorem indexed_bindUniform {declared : List String} {stage : ShaderStage} {name : String}
    {t : UniformToken} : Keeps (fun b _ => Indexed b) (fun _ _ => True)
      (bindUniform declared stage name t : Binder δ Unit) := by
  intro b w indexed
  rw [ends_bindUniform]
  dsimp only
  split
  · exact indexed_missing b _ indexed
  · exact indexed.register BindingSlot.noConfusion rfl rfl

theorem indexed_bindSampler {declared : List String} {redraw : RedrawKey} {stage : ShaderStage}
    {name : String} {t : SamplerToken} : Keeps (fun b _ => Indexed b) (fun _ _ => True)
      (bindSampler declared redraw stage name t : Binder δ Unit) := by
  intro b w indexed
  rw [ends_bindSampler]
  dsimp only
  split
  · exact indexed_missing b _ indexed
  · refine ⟨fun texture _ => ?_, fun _ _ => trivial⟩
    split <;> exact indexed.register BindingSlot.noConfusion rfl rfl

variable {redraw : RedrawKey} {vertex fragment : CompiledShader} {config : ProgramConfig}

/-- Before indices are listed, those in use are a token's. -/
theorem indexed_bindAll (unlisted : ∀ listed, config.draw ≠ .elements listed) :
    Keeps (fun b _ => Indexed b) (fun _ _ => True)
      (bindAll redraw vertex fragment config : Binder δ Unit) :=
  keeps_bindAll
    (fun _ _ _ _ => keeps_bindToken (fun _ _ _ => indexed_bindAttribute) (fun _ _ _ => indexed_bindElements)
      (fun _ _ => indexed_bindUniform) fun _ _ => indexed_bindSampler)
    (fun _ _ => keeps_bindIndexToken (fun _ _ _ => trivial) fun _ _ _ => indexed_bindElements)
    fun _ listed => absurd listed (unlisted _)

/-- Indices are listed after everything else is bound. -/
theorem ends_bindAll {w : World δ} {done : Unit → Bindings → World δ → Prop}
    {failed : RenderError → Bindings → World δ → Prop} :
    Ends (bindAll redraw vertex fragment config) b w done failed ↔
      Ends (bindAll redraw vertex fragment { config with draw := .arrays 0 0 }) b w
        (fun _ b' w' => Ends (uploadListed config.draw b'.elements) b' w' done failed) failed := by
  unfold bindAll
  cases config.indices <;> simp only [ends_bind, ends_get, ends_pure] <;> rfl

variable {rest : Multiset Object} {holds : Multiset Nat} {bound : List (BindingSlot × Token)}
  {listed : List UInt32}

/-- Listed indices go to a new buffer, which belongs to no update. -/
theorem lists_uploadIndices {w : World δ} (owned : Bool) (given : Given m bound b w)
    (kept : Kept (b.owns + rest) holds w) (free : b.elements = none) :
    Ends (uploadIndices listed) b w
      (fun _ b' w' => Minting w'.events → WordNames w'.events →
        ∃ buffer, (ProgramCache.bound owned config b').Lists w'.graphics buffer listed)
      fun _ _ _ => True := by
  unfold uploadIndices
  rw [ends_bind, ends_discard, ends_uploadBuffer]
  refine ⟨fun buffer granted => ?_, fun _ _ => trivial⟩
  rw [ends_modify]
  intro minting words
  have filling : Emits (fun _ => True) (w.allocated .buffer) ((w.allocated .buffer).performAll
      (filled b.vertexArray .elementArray buffer (listed.flatMap (HostArray.littleEndian 4)) [])) :=
    Emits.performAll fun _ _ => trivial
  have granting : Emits (fun _ => True) w (w.allocated .buffer) := Emits.emit trivial
  have minted := filling.minting minting
  have wires := given (granting.minting minted) (granting.words (filling.words words))
  have tokenless := wires.tokenless free
  have fresh := not_mem_of_granted kept granted minted
  refine ⟨buffer, ⟨?_, .inl ⟨_, rfl⟩, ?_⟩, ⟨?_, .inr ⟨_, rfl⟩, ?_⟩, tokenless, rfl, ?_, ?_⟩
  · exact ⟨_, by simp [Program.owns, ProgramCache.bound, Bindings.owns], rfl⟩
  · exact fun e member written => tokenless e member (Update.slot_of_elementArray written)
  · exact ⟨_, by simp [Program.owns, ProgramCache.bound, Bindings.owns, BoundObject.object], rfl⟩
  · exact fun e member written => fresh (wires.owned e member _ (Update.object_of_buffer written))
  · rw [World.graphics_performAll]
    exact graphics_filled_elements.1
  · rw [World.graphics_performAll]
    exact graphics_filled_elements.2

/-- The indices of a draw that needs some are a token's, or listed. -/
theorem indices_bindAll {w : World δ} (owned : Bool) (given : Given m [] b w)
    (kept : Kept (b.owns + rest) holds w)
    (known : ∀ n ∈ vertex.tokens ++ fragment.tokens, n.token ∈ m.tokens)
    (indices : ∀ t ∈ config.indices, t ∈ m.tokens) (indexed : Indexed b)
    (draw : config.draw = .elements listed) :
    Ends (bindAll redraw vertex fragment config) b w
      (fun _ b' w' => Minting w'.events → WordNames w'.events →
        (∃ u, b'.queue.entries.lookup .elements = some (.elements u)) ∨
          ∃ buffer, (ProgramCache.bound owned config b').Lists w'.graphics buffer listed)
      fun _ _ _ => True := by
  rw [ends_bindAll]
  have follows : Follows
      (bindAll redraw vertex fragment { config with draw := .arrays 0 0 } : Binder δ Unit) := follows_bindAll
  have keeps : Keeps (fun b _ => Indexed b) (fun _ _ => True)
      (bindAll redraw vertex fragment { config with draw := .arrays 0 0 } : Binder δ Unit) :=
    indexed_bindAll fun _ => Draw.noConfusion
  have indices' : ∀ t ∈ ({ config with draw := .arrays 0 0 } : ProgramConfig).indices, t ∈ m.tokens :=
    indices
  refine ((follows (b, w) b w .refl).and ((given_bindAll given kept known indices').and
    (keeps b w indexed))).imp ?_ fun _ _ _ _ => trivial
  rintro _ b₁ w₁ ⟨path, ⟨answers, _, given₁⟩, indexed₁⟩
  unfold uploadListed
  rw [draw]
  cases used : b₁.elements with
  | some indices =>
    exact fun _ _ => .inl (indexed₁ (by rw [used]; rfl))
  | none =>
    refine (lists_uploadIndices owned given₁ (kept.path path).1 used).imp
      (fun _ _ _ lists minting words => .inr (lists minting words)) fun _ _ _ _ => trivial

end Binder

namespace ProgramCache

variable [GraphicsDevice δ] {cache cache' : ProgramCache} {redraw : RedrawKey}
  {vertex fragment : CompiledShader} {config : ProgramConfig} {rest : Multiset Object}
  {holds : Multiset Nat} {p : Program} {listed : List UInt32}

/-- A compilation that yields a program yields what its binding does, with the linked program in hand. -/
theorem exists_kept_bind (kept : Kept (cache.owns + rest) holds w) (free : w.graphics.vertexArray = none)
    (compiled : (cache.compile redraw vertex fragment config).run w = ((.ok p, cache'), w')) :
    ∃ handle owned start,
      Kept ((if owned then {⟨.program, handle⟩} else 0) + (cache'.owns + rest)) holds start ∧
      start.graphics.vertexArray = none ∧ start.host = w.host ∧
      (bind handle owned redraw vertex fragment config).run.run start = (.ok p, w') := by
  rw [run_compile] at compiled
  cases fit : checkSharedNames vertex fragment with
  | error e =>
    rw [fit] at compiled
    cases compiled
  | ok _ =>
    rw [fit] at compiled
    have linked := kept_link vertex fragment config.cached kept
    obtain ⟨_, unbound, _, host, _⟩ := spares_link cache vertex fragment config.cached kept
    dsimp only at compiled unbound host
    generalize (cache.link vertex fragment config.cached).run w = link at *
    obtain ⟨⟨e | ⟨handle, owned⟩, cache₁⟩, start⟩ := link
    · cases compiled
    · dsimp only at compiled linked unbound host
      generalize built : (bind handle owned redraw vertex fragment config).run.run start = answer
        at compiled
      obtain ⟨result, w₂⟩ := answer
      cases compiled
      exact ⟨handle, owned, start, linked, unbound free, host, built⟩

/-- The indices of a new program that needs some are a token's, or listed. -/
theorem indices_compile (kept : Kept (cache.owns + rest) holds w) (free : w.graphics.vertexArray = none)
    (reaches : ∃ seen, m.Reaches seen w.host)
    (known : ∀ n ∈ vertex.tokens ++ fragment.tokens, n.token ∈ m.tokens)
    (indices : ∀ t ∈ config.indices, t ∈ m.tokens) (draw : config.draw = .elements listed)
    (compiled : (cache.compile redraw vertex fragment config).run w = ((.ok p, cache'), w'))
    (minting : Minting w'.events) (words : WordNames w'.events) :
    (∃ u, p.bindings.queue.entries.lookup .elements = some (.elements u)) ∨
      ∃ buffer, p.Lists w'.graphics buffer listed := by
  obtain ⟨handle, owned, start, linked, unbound, host, built⟩ := exists_kept_bind kept free compiled
  have bound : (bind handle owned redraw vertex fragment config).Ends start
      (fun p w' => Minting w'.events → WordNames w'.events →
        (∃ u, p.bindings.queue.entries.lookup .elements = some (.elements u)) ∨
          ∃ buffer, p.Lists w'.graphics buffer listed) fun _ _ => True := by
    rw [ends_bind]
    refine ⟨fun vertexArray granted => ?_, fun _ _ => trivial⟩
    have given : Given m [] { program := handle, vertexArray } (start.allocated .vertexArray) :=
      given_start (World.vertexArray_allocated unbound) (by rw [← host] at reaches; exact reaches)
    refine (Binder.indices_bindAll owned given (linked.started handle granted) known indices ?_ draw).imp
      (fun _ _ _ => id) fun _ _ _ _ => trivial
    exact fun used => Bool.noConfusion used
  exact bound.of_ok built minting words

/-- A program draws as it was asked to. -/
theorem drawn_compile (compiled : ((cache.compile redraw vertex fragment config).run w).1.1 = .ok p) :
    p.draw = config.draw ∧ p.hook = config.hook := by
  obtain ⟨handle, w', _, built⟩ := bind_of_compile compiled
  have bound : (bind handle (!config.cached) redraw vertex fragment config).Ends w'
      (fun p _ => p.draw = config.draw ∧ p.hook = config.hook) fun _ _ => True := by
    rw [ends_bind]
    refine ⟨fun vertexArray _ => ?_, fun _ _ => trivial⟩
    exact (Binder.follows_bindAll _ _ _ .refl).imp (fun _ _ _ _ => ⟨rfl, rfl⟩) fun _ _ _ _ => trivial
  exact bound.of_ok (Prod.ext built rfl)

end ProgramCache
end ShaderStack

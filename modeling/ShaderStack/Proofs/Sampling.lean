import ShaderStack.Proofs.Frames

/-! What draws sample while the host gives pixels.

A sampler uploads pixels that fit its texture, unless it has uploaded them last. Pixels that do not fit
are let go, and the texture keeps what it held. Either way the texture is where the uniform points. -/
namespace ShaderStack

/-- The accessor gives certain pixels. If they stand where those of the last upload stood, they are the
same array. -/
def SamplerUpdate.Gives (u : SamplerUpdate) (pixels : HostArray) (host : Host) : Prop :=
  ∃ data, (u.value.run host).1 = .pixels data ∧ data.contents = pixels.contents ∧
    ∀ old ∈ u.uploaded, data.sameBuffer old → data = old

/-- The unit of a sampler has its texture, the uniform names the unit, and the texture has a content. -/
structure SamplerUpdate.Samples (u : SamplerUpdate) (program : Handle) (content : TextureContent)
    (g : GraphicsState) : Prop where
  uniform : g.uniforms program u.location = some (.integers 1 [u.unit.toInt32])
  unit : g.units u.unit = some u.texture
  texture : g.textures u.texture = content

/-- The hosts that come about while the updates of a queue ask their accessors in any order. -/
def UpdateQueue.Visits (entries : List (BindingSlot × Update)) : Host → Host → Prop :=
  Relation.ReflTransGen fun host host' => ∃ e ∈ entries, host' = e.2.asked host

theorem UpdateQueue.Visits.next {entries : List (BindingSlot × Update)} {e : BindingSlot × Update}
    {before after : Host} (visits : Visits entries (e.2.asked before) after) :
    Visits (e :: entries) before after := by
  refine .head ⟨e, List.mem_cons_self, rfl⟩ ?_
  refine Relation.ReflTransGen.mono ?_ _ _ visits
  rintro host host' ⟨e', member, asked⟩
  exact ⟨e', List.mem_cons_of_mem e member, asked⟩

/-- Where no accessor changes the host, there is only the one host. -/
theorem UpdateQueue.Visits.eq_of_fixed {entries : List (BindingSlot × Update)} {host host' : Host}
    (visits : Visits entries host host') (fixed : ∀ e ∈ entries, e.2.asked host = host) : host' = host := by
  induction visits with
  | refl => rfl
  | tail _ step ih =>
    obtain ⟨e, member, rfl⟩ := step
    rw [ih]
    exact fixed e member

/-- The samplers that a program updates. -/
def Program.samplers (p : Program) : List SamplerUpdate :=
  p.bindings.queue.entries.filterMap fun e =>
    match e.2 with
    | .sampler u => some u
    | _ => none

theorem Program.mem_samplers {p : Program} {u : SamplerUpdate} :
    u ∈ p.samplers ↔ ∃ slot, (slot, .sampler u) ∈ p.bindings.queue.entries := by
  unfold samplers
  rw [List.mem_filterMap]
  constructor
  · rintro ⟨⟨slot, v⟩, member, here⟩
    cases v with
    | sampler v =>
      obtain rfl : v = u := Option.some.inj here
      exact ⟨slot, member⟩
    | _ => exact absurd here nofun
  · rintro ⟨slot, member⟩
    exact ⟨_, member, rfl⟩

variable {δ : Type} [GraphicsDevice δ] {w : World δ} {program vertexArray : Handle}
  {indices : Option IndexBuffer} {pixels : HostArray}

namespace SamplerUpdate

variable {u : SamplerUpdate} {content : TextureContent} {g g' : GraphicsState}

theorem Samples.keep (samples : u.Samples program content g)
    (same : ∀ c ∈ (Update.sampler u).cells program vertexArray, c.Same g g') :
    u.Samples program content g' := by
  have texture : g'.textures u.texture = g.textures u.texture :=
    same (.texture u.texture) (by simp [Update.cells, Update.stores])
  have unit : g'.units u.unit = g.units u.unit :=
    same (.unit u.unit) (by simp [Update.cells, Update.pushes])
  have uniform : g'.uniforms program u.location = g.uniforms program u.location :=
    same (.uniform program u.location) (by simp [Update.cells, Update.pushes])
  constructor
  · exact uniform.trans samples.uniform
  · exact unit.trans samples.unit
  · exact texture.trans samples.texture

/-- The texture has the pixels that fit, whether they are uploaded now or were so before. -/
theorem samples_commands (surfaces : SurfaceId → Option Handle) {data : HostArray}
    (same : data.contents = pixels.contents)
    (faithful : ∀ old ∈ u.uploaded, data.sameBuffer old → data = old)
    (used : g.program = some program) (settled : (Update.sampler u).Settled vertexArray g indices) :
    u.Samples program (u.options.content pixels (g.textures u.texture))
      (g.afterAll (u.commands surfaces (.pixels data))) := by
  obtain ⟨uniform, unit⟩ := u.pushed_commands surfaces (.pixels data) used
  have texture := u.texture_commands surfaces (.pixels data) g
  simp only at texture
  rw [← SamplerOptions.content_of_contents same]
  refine ⟨uniform, unit, texture.trans ?_⟩
  by_cases uploaded : u.uploaded.any (·.sameBuffer data) = true
  · rw [if_pos uploaded]
    obtain ⟨old, remembered, shared⟩ : ∃ old, u.uploaded = some old ∧ old.sameBuffer data = true := by
      simpa [Option.any_eq_true] using uploaded
    have shared' : data.sameBuffer old = true := by
      simp only [HostArray.sameBuffer, decide_eq_true_eq] at shared ⊢
      exact shared.symm
    obtain rfl : data = old := faithful old remembered shared'
    unfold SamplerOptions.content
    cases fits : pixelImage? u.options data with
    | none => rfl
    | some image => exact settled data remembered image fits
  · rw [if_neg uploaded]

/-- One run of a sampler that gets pixels. -/
theorem samples_run (gives : u.Gives pixels w.host) (used : w.graphics.program = some program)
    (settled : (Update.sampler u).Settled vertexArray w.graphics indices) :
    u.Samples program (u.options.content pixels (w.graphics.textures u.texture))
      (u.run.run w).2.graphics := by
  obtain ⟨data, given, same, faithful⟩ := gives
  obtain ⟨handles, _, _, graphics⟩ := run_eq (u := u) (w := w)
  have current : w.see u.value = .pixels data := given
  rw [graphics, current]
  exact samples_commands w.textureOf? same faithful used settled

end SamplerUpdate

namespace UpdateQueue

variable {entries : List (BindingSlot × Update)} {slot : BindingSlot} {u : SamplerUpdate}

/-- Other updates of the queue may change the host before the sampler's turn comes, and write to other
cells before and after it. -/
theorem samples_ran (member : (slot, .sampler u) ∈ entries)
    (gives : ∀ host, Visits entries w.host host → u.Gives pixels host)
    (apart : Apart program vertexArray entries) (bound : w.graphics.vertexArray = some vertexArray)
    (used : w.graphics.program = some program)
    (settled : (Update.sampler u).Settled vertexArray w.graphics indices) :
    u.Samples program (u.options.content pixels (w.graphics.textures u.texture))
      (ran entries indices w).2.graphics := by
  induction entries generalizing indices w with
  | nil => exact absurd member List.not_mem_nil
  | cons entry rest ih =>
    obtain ⟨slot', v⟩ := entry
    obtain ⟨sameArray, sameProgram⟩ := v.inUse_ran indices w
    rw [ran_cons]
    rcases List.mem_cons.mp member with mine | later
    · obtain ⟨rfl, rfl⟩ := Prod.mk.inj mine
      obtain ⟨same, _⟩ := same_tail apart bound used indices
      have frozen : ((Update.sampler u).ran indices w).1.1.frozen = (Update.sampler u).frozen :=
        Update.frozen_ran
      rw [Update.cells_of_frozen frozen] at same
      exact (SamplerUpdate.samples_run (gives w.host .refl) used settled).keep same
    · obtain ⟨same, drawn⟩ := same_head apart bound used indices _ later
      have texture : (v.ran indices w).2.graphics.textures u.texture = w.graphics.textures u.texture :=
        same (.texture u.texture) (by simp [Update.cells, Update.stores])
      have later' (host : Host) (visits : Visits rest (v.ran indices w).2.host host) :
          u.Gives pixels host := by
        rw [Update.host_ran] at visits
        exact gives host visits.next
      have samples := ih later later' (List.pairwise_cons.mp apart).2 (sameArray.trans bound)
        (sameProgram.trans used) (settled.keep (fun c stored => same c (List.mem_append_left _ stored)) drawn)
      rwa [texture] at samples

end UpdateQueue

namespace Program

variable {p : Program} {tokens : List Token} {slot : BindingSlot} {u : SamplerUpdate}

/-- A program draws with the pixels that its samplers get during its updates. -/
theorem samples_before (member : (slot, .sampler u) ∈ p.bindings.queue.entries)
    (gives : ∀ host, UpdateQueue.Visits p.bindings.queue.entries w.host host → u.Gives pixels host)
    (wired : p.Wired tokens) (settled : p.Settled w.graphics) :
    u.Samples p.handle (u.options.content pixels (w.graphics.textures u.texture))
      (p.before w).graphics := by
  obtain ⟨bound, used⟩ := inUse_readied (p := p) (w := w)
  have ready : p.Settled (p.readied w).graphics := settled.keep wired fun _ _ _ _ _ _ => same_readied
  have same : (p.readied w).graphics.textures u.texture = w.graphics.textures u.texture :=
    same_readied (c := .texture u.texture)
  have samples : u.Samples p.handle (u.options.content pixels ((p.readied w).graphics.textures u.texture))
      (UpdateQueue.ran p.bindings.queue.entries p.bindings.elements (p.readied w)).2.graphics :=
    UpdateQueue.samples_ran member gives wired.apart bound used (ready _ member)
  rw [graphics_before_eq, Bindings.run_flush]
  rwa [same] at samples

end Program
end ShaderStack

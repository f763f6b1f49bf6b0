import ShaderStack.Proofs.Diffing

/-! Vertex data that programs upload.

An attribute token is checked when it is built, and flushes check what they upload. What the accessor gives
in between, when the token is bound, is uploaded unchecked, so that the draws of a program read whole
vertices if that array was acceptable. -/
namespace ShaderStack

/-- A pointer reads bytes as whole vertices of at most four components, and integers only from integers. -/
structure VertexLayout.Reads (l : VertexLayout) (bytes : List UInt8) : Prop where
  components : 1 ≤ l.components.toInt ∧ l.components.toInt ≤ 4
  integers : l.integer → l.element.isInteger
  whole : l.stride.toInt ∣ bytes.length

/-- The pointer of an attribute into an array. -/
abbrev DataType.layout (type : DataType) (kind : ElementKind) : VertexLayout :=
  ⟨Int32.ofNat type.components, kind, type.keepsIntegers⟩

namespace DataType

theorem stride_layout {scalar : Scalar} {arity : Arity} {kind : ElementKind} :
    ((vector scalar arity).layout kind).stride.toInt =
      (kind.byteSize * (vector scalar arity).components : Nat) := by
  cases arity <;> cases kind <;> rfl

theorem components_layout {scalar : Scalar} {arity : Arity} {kind : ElementKind} :
    ((vector scalar arity).layout kind).components.toInt = arity.toNat := by
  cases arity <;> rfl

end DataType

/-- Vertex data are accepted exactly if they are whole vertices of a vector. -/
theorem checkAttribute_iff {type : DataType} {data : HostArray} :
    (checkAttribute type .array data).isOk ↔
      (∃ scalar arity, type = .vector scalar arity) ∧ (type.layout data.kind).Reads data.bytes := by
  cases type with
  | matrix n => exact iff_of_false Bool.false_ne_true fun ⟨⟨_, _, same⟩, _⟩ => nomatch same
  | sampler2D => exact iff_of_false Bool.false_ne_true fun ⟨⟨_, _, same⟩, _⟩ => nomatch same
  | vector scalar arity =>
    have positive : 0 < data.kind.byteSize := by cases data.kind <;> decide
    have whole : ((DataType.vector scalar arity).layout data.kind).stride.toInt ∣ data.bytes.length ↔
        data.length % (DataType.vector scalar arity).components = 0 := by
      rw [DataType.stride_layout, HostArray.length_bytes, Int.natCast_dvd_natCast,
        Nat.mul_dvd_mul_iff_left positive]
      exact Nat.dvd_iff_mod_eq_zero
    have checked : (checkAttribute (.vector scalar arity) .array data).isOk ↔
        ((DataType.vector scalar arity).keepsIntegers → data.kind.isInteger) ∧
          data.length % (DataType.vector scalar arity).components = 0 := by
      unfold checkAttribute
      cases (DataType.vector scalar arity).keepsIntegers <;> cases data.kind.isInteger <;>
        by_cases divides : data.length % (DataType.vector scalar arity).components = 0 <;>
        simp [DataType.isMatrix, Except.isOk, Except.toBool, divides]
    rw [checked]
    constructor
    · rintro ⟨integers, divides⟩
      have few : 1 ≤ arity.toNat ∧ arity.toNat ≤ 4 := by cases arity <;> decide
      refine ⟨⟨scalar, arity, rfl⟩, ?_, integers, whole.mpr divides⟩
      rw [DataType.components_layout]
      omega
    · rintro ⟨_, reads⟩
      exact ⟨reads.integers, whole.mp reads.whole⟩

/-- The check that an attribute token makes of every array. -/
def AttributeToken.accepts (a : AttributeToken) (data : HostArray) : Bool :=
  (checkAttribute a.type a.options.target data).isOk

/-- The token was built: its accessor once gave an array that it accepts. -/
def Token.Authored (t : Token) : Prop :=
  ∀ a, t.kind = .vertexAttribute a → ∃ host, a.accepts (a.value.run host).1

namespace Token

/-- A token that is built has the type, the accessor and the options that it is built with. -/
theorem authored_vertexAttribute {type : DataType} {value : Accessor HostArray}
    {options : AttributeOptions} {host : Host} {t : Token}
    (built : ((vertexAttribute type value options).run.run host).1 = .ok t) :
    t.kind = .vertexAttribute ⟨type, value, options⟩ ∧ t.Authored := by
  have run : ((vertexAttribute type value options).run.run host).1 =
      (checkAttribute type options.target (value.run host).1).map fun _ =>
        ⟨(value.run host).2.nextIdentity, .vertexAttribute ⟨type, value, options⟩⟩ := by
    change ((do
      checkAttribute type options.target (value.run host).1
      ofKind (.vertexAttribute ⟨type, value, options⟩) : Authoring Token).run.run (value.run host).2).1 = _
    cases checkAttribute type options.target (value.run host).1 <;> rfl
  rw [run] at built
  cases accepted : checkAttribute type options.target (value.run host).1 with
  | error e =>
    rw [accepted] at built
    exact nomatch built
  | ok fits =>
    rw [accepted] at built
    obtain rfl := Except.ok.inj built
    refine ⟨rfl, fun a same => ⟨host, ?_⟩⟩
    obtain rfl := TokenKind.vertexAttribute.inj same
    unfold AttributeToken.accepts
    rw [accepted]
    rfl

theorem Authored.withName {t : Token} (authored : t.Authored) (name : String) (host : Host) :
    ((t.withName name).run host).1.Authored := by
  intro a same
  have renamed : t.kind.rename name = .vertexAttribute a := same
  cases kind : t.kind with
  | vertexAttribute k =>
    rw [kind] at renamed
    obtain rfl := TokenKind.vertexAttribute.inj renamed
    exact authored k kind
  | uniform _ | sampler _ | scope _ =>
    rw [kind] at renamed
    exact nomatch renamed

end Token

variable {δ : Type} {w : World δ} {tokens : List Token} {bytes : List UInt8}

/-- What an update sends as vertex data is an array that fits its type. -/
theorem Update.vertexData_of_mem_commands {u : Update}
    (sent : .bufferData .array bytes ∈ u.commands w) : ∃ a : AttributeUpdate, u = .attributes a ∧
      (checkAttribute a.type .array (w.see a.value)).isOk ∧ bytes = (w.see a.value).bytes := by
  cases u with
  | attributes a =>
    have sent' : .bufferData .array bytes ∈ a.binding.commands a.uploaded (w.see a.value) := sent
    obtain ⟨fits, _, same⟩ := ArrayBinding.fits_of_mem_commands sent'
    exact ⟨a, rfl, fits, same⟩
  | elements u =>
    have sent' : .bufferData .array bytes ∈ u.commands (w.see u.value) := sent
    rw [ElementsUpdate.commands_eq] at sent'
    exact absurd (ArrayBinding.fits_of_mem_commands sent').2.1 nofun
  | uniform u =>
    have sent' : .bufferData .array bytes ∈ u.commands (w.see u.value) := sent
    simp [UniformUpdate.commands] at sent'
  | sampler u =>
    have sent' : .bufferData .array bytes ∈ u.commands w.textureOf? (w.see u.value) := sent
    rw [SamplerUpdate.commands_eq] at sent'
    cases source : w.see u.value <;>
      simp [TextureBinding.commands, TextureBinding.upload, source] at sent'

variable [GraphicsDevice δ]

/-- What a flush uploads as vertex data comes from a token that accepts it. -/
theorem Flush.vertexData_of_mem_uploads {f : Flush δ} (ready : f.Ready tokens)
    (sent : .bufferData .array bytes ∈ f.uploads) : ∃ turn ∈ f.turns, ∃ t ∈ tokens, ∃ a,
      t.kind = .vertexAttribute a ∧ a.options.target = .array ∧ a.accepts (turn.world.see a.value) ∧
        bytes = (turn.world.see a.value).bytes := by
  obtain ⟨turn, member, sent⟩ := List.mem_flatMap.mp sent
  obtain ⟨u, update, fits, same⟩ := Update.vertexData_of_mem_commands (List.mem_filter.mp sent).1
  have entry : (turn.slot, turn.update) ∈ f.program.bindings.queue.entries := by
    have entries : f.turns.map (fun t => (t.slot, t.update)) = f.program.bindings.queue.entries :=
      UpdateQueue.map_update_turns
    rw [← entries]
    exact List.mem_map_of_mem member
  obtain ⟨t, known, carries⟩ := ready.1.carries _ entry
  rw [update] at carries
  obtain ⟨a, kind, target, type, value⟩ := carries
  refine ⟨turn, member, t, known, a, kind, target, ?_, value ▸ same⟩
  unfold AttributeToken.accepts
  rw [target, ← type, ← value]
  exact fits

namespace ArrayBinding

variable {b : ArrayBinding} {slot : BindingSlot} {vertexArray : Handle} {last : HostArray}
  {fs : List (Flush δ)}

/-- At each draw the array that was accepted last is the first one or one that fits. -/
theorem Follows.stored (follows : b.Follows slot vertexArray last fs) : ∀ f ∈ fs, ∃ data,
    (data = last ∨ b.fits data) ∧ b.Stored vertexArray f.graphics f.next.bindings.elements data := by
  induction fs generalizing last with
  | nil => exact fun f none => absurd none List.not_mem_nil
  | cons f fs ih =>
    obtain ⟨_, t, _, _, stored, later⟩ := follows
    have accepted : b.accept last (t.world.see b.value) = last ∨ b.fits (b.accept last (t.world.see b.value)) := by
      refine accept_cases.imp_right fun ⟨same, fits⟩ => ?_
      rw [same]
      exact fits
    intro g member
    rcases List.mem_cons.mp member with rfl | rest
    · exact ⟨_, accepted, stored⟩
    · obtain ⟨data, fits, stored⟩ := ih later g rest
      refine ⟨data, ?_, stored⟩
      rcases fits with rfl | fits
      · exact accepted
      · exact .inr fits

end ArrayBinding

namespace Session

variable {s : Session δ} {step : SessionStep} {steps : List SessionStep} {device : δ} {host : Host}

/-- Bytes that a call uploads in a flush: a token accepts the array that its accessor gives then. -/
def Refreshes (s : Session δ) (step : SessionStep) (tokens : List Token) (bytes : List UInt8) : Prop :=
  ∃ f ∈ s.flushes step, ∃ turn ∈ f.turns, ∃ t ∈ tokens, ∃ a, t.kind = .vertexAttribute a ∧
    a.options.target = .array ∧ a.accepts (turn.world.see a.value) ∧
      bytes = (turn.world.see a.value).bytes

/-- All vertex data of a call are given to bindings in it, or are accepted. -/
theorem vertexData_perform (step : SessionStep) (ready : ∀ f ∈ s.flushes step, f.Ready tokens) :
    World.Emits (fun e => ∀ bytes, e = .command (.bufferData .array bytes) →
      (s.moment step.tokens).Gives bytes ∨ s.Refreshes step tokens bytes) s.world (s.perform step).world := by
  by_cases compiles : ∃ i vertex fragment config, step = .compile i vertex fragment config
  · obtain ⟨i, vertex, fragment, config, rfl⟩ := compiles
    have given : World.Emits (s.moment (SessionStep.tokens (.compile i vertex fragment config))).Admits
        s.world (s.perform (.compile i vertex fragment config)).world := by
      refine world_compile (World.Emits _ s.world) (World.Emits.refl _) fun stack _ => ?_
      exact ProgramCache.admits_compile ⟨_, .start⟩ (SessionStep.mem_tokens_of_named i)
        (SessionStep.mem_tokens_of_indices i)
    exact given.mono fun e admits bytes same => .inl (admits bytes same)
  · obtain ⟨es, split, uploads⟩ := sends_perform (s := s) step fun i vertex fragment config same =>
      compiles ⟨i, vertex, fragment, config, same⟩
    refine ⟨es, split, ?_⟩
    rintro _ member bytes rfl
    have sent : .bufferData .array bytes ∈ (s.flushes step).flatMap Flush.uploads := by
      rw [← uploads]
      exact List.mem_filterMap.mpr ⟨_, member, rfl⟩
    obtain ⟨f, mine, sent⟩ := List.mem_flatMap.mp sent
    obtain ⟨turn, here, found⟩ := Flush.vertexData_of_mem_uploads (ready f mine) sent
    exact .inr ⟨f, mine, turn, here, found⟩

/-- After binding, tokens check all vertex data that their programs upload. What is bound is what the
accessor gives in the call. As soon as that is acceptable, each draw of the program finds whole vertices of
one to four components, and integers where its pointer keeps them. -/
theorem vertex_data_accepted_after_binding
    (authored : ∀ step ∈ steps, ∀ t ∈ step.tokens, t.Authored)
    (minting : Minting (run steps (fresh device host)).world.events)
    (words : WordNames (run steps (fresh device host)).world.events) :
    (∀ before step after, steps = before ++ step :: after →
      World.Emits (fun e => ∀ bytes, e = .command (.bufferData .array bytes) →
          ((run before (fresh device host)).moment step.tokens).Gives bytes ∨
          (run before (fresh device host)).Refreshes step (steps.flatMap SessionStep.tokens) bytes)
        (run before (fresh device host)).world ((run before (fresh device host)).perform step).world) ∧
    ∀ p ∈ (run steps (fresh device host)).programs, ∃ past : Past steps (fresh device host) p,
      ∀ slot u b first, past.built.bindings.queue.entries.lookup slot = some u →
        u.array? = some (b, first) → b.target = .array →
        ∃ t ∈ past.step.tokens, ∃ a location, t.kind = .vertexAttribute a ∧
          b = ⟨.attribute location a.type, b.buffer, a.value⟩ ∧
          (∃ seen now, (past.start.moment past.step.tokens).Reaches seen now ∧
            (a.value.run now).1 = first) ∧
          ∀ f ∈ past.flushes, ∃ data, (data = first ∨ a.accepts data) ∧
            b.Stored past.built.bindings.vertexArray f.graphics f.next.bindings.elements data ∧
            (∃ scalar arity, a.type = .vector scalar arity) ∧
            (a.accepts first → (a.type.layout data.kind).Reads data.bytes) := by
  have ready := ready_flushesIn device host steps minting words
  constructor
  · rintro before step after rfl
    have whole : flushesIn (before ++ step :: after) (fresh device host) = flushesIn before (fresh device host) ++
        ((run before (fresh device host)).flushes step ++
          flushesIn after ((run before (fresh device host)).perform step)) := flushesIn_append
    refine vertexData_perform step fun f member => ready f ?_
    rw [whole]
    exact List.mem_append_right _ (List.mem_append_left _ member)
  · intro p member
    obtain ⟨past⟩ := exists_past steps sound_fresh programs_fresh minting p member
    refine ⟨past, ?_⟩
    intro slot u b first found array target
    have begins := past.begins minting words _ (mem_of_lookup found)
    have follows := past.runs.follows_array (fun f mine => ready f (past.mem_flushesIn f mine)) found array
    obtain ⟨t, known, carries⟩ := begins.carries
    cases u with
    | elements u =>
      obtain ⟨rfl, rfl⟩ := Prod.mk.inj (Option.some.inj array)
      exact nomatch target
    | uniform u | sampler u => exact nomatch array
    | attributes u =>
      obtain ⟨rfl, rfl⟩ := Prod.mk.inj (Option.some.inj array)
      obtain ⟨a, kind, aimed, type, value⟩ := carries
      have given := begins.begun.array array
      have fits (data : HostArray) : u.binding.fits data = a.accepts data := by
        unfold AttributeToken.accepts
        rw [aimed, ← type]
        rfl
      have vector : ∃ scalar arity, a.type = .vector scalar arity := by
        obtain ⟨host, accepted⟩ := authored past.step past.step_mem t known a kind
        unfold AttributeToken.accepts at accepted
        rw [aimed] at accepted
        exact (checkAttribute_iff.mp accepted).1
      refine ⟨t, known, a, u.location, kind, by rw [← type, ← value]; rfl, value ▸ given, ?_⟩
      intro f mine
      obtain ⟨data, accepted, stored⟩ := follows.stored f mine
      rw [fits] at accepted
      refine ⟨data, accepted, stored, vector, fun firstly => ?_⟩
      have lastly : a.accepts data := accepted.elim (fun same => same ▸ firstly) id
      unfold AttributeToken.accepts at lastly
      rw [aimed] at lastly
      exact (checkAttribute_iff.mp lastly).2

theorem refitting_reads_whole_vertices :
    (rehearsed refitting).programs.length = 1 ∧
      (∀ before step after, refitting = before ++ step :: after →
        World.Emits (fun e => ∀ bytes, e = .command (.bufferData .array bytes) →
            ((run before (rehearsed [])).moment step.tokens).Gives bytes ∨
            (run before (rehearsed [])).Refreshes step (refitting.flatMap SessionStep.tokens) bytes)
          (run before (rehearsed [])).world ((run before (rehearsed [])).perform step).world) ∧
      ∀ p ∈ (rehearsed refitting).programs, ∃ past : Past refitting (rehearsed []) p,
        ∀ slot u b first, past.built.bindings.queue.entries.lookup slot = some u →
          u.array? = some (b, first) → b.target = .array →
          ∃ t ∈ past.step.tokens, ∃ a location, t.kind = .vertexAttribute a ∧
            b = ⟨.attribute location a.type, b.buffer, a.value⟩ ∧
            (∃ seen now, (past.start.moment past.step.tokens).Reaches seen now ∧
              (a.value.run now).1 = first) ∧
            ∀ f ∈ past.flushes, ∃ data, (data = first ∨ a.accepts data) ∧
              b.Stored past.built.bindings.vertexArray f.graphics f.next.bindings.elements data ∧
              (∃ scalar arity, a.type = .vector scalar arity) ∧
              (a.accepts first → (a.type.layout data.kind).Reads data.bytes) := by
  have fitted : shape.Authored := by
    intro a same
    obtain rfl := TokenKind.vertexAttribute.inj same
    exact ⟨{ buffers := [("shape", ⟨1, .u8, [7]⟩)] }, by decide⟩
  refine ⟨by decide +kernel, vertex_data_accepted_after_binding ?_ (by decide +kernel) (by decide +kernel)⟩
  simp [refitting, SessionStep.tokens, fitted]

/-- A token of two components, which is built while its accessor gives two vertices. -/
def pair : Token :=
  let value : Accessor HostArray := Accessor.buffer "shape"
  ⟨1, .vertexAttribute ⟨.vector .real .two, value, {}⟩⟩

/-- The host gives half a vertex more when the token is bound. -/
def overhanging : List SessionStep :=
  let vertex : CompiledShader := ⟨1, "in vec2 shape;\nvoid main shape", [⟨"shape", pair⟩]⟩
  [.makeStack true 8 8 {}, .compile 0 vertex ⟨2, "void main", []⟩ { draw := .arrays 0 1 }]

/-- The token is built, what it is bound to is refused by its check, and is uploaded: twelve bytes for a
pointer that reads eight at a time. -/
theorem overhanging_vertex_uploaded :
    ((Token.vertexAttribute (.vector .real .two) (Accessor.buffer "shape") {}).run.run
        { buffers := [("shape", ⟨1, .f32, [0, 0, 0, 0]⟩)] }).1 = .ok pair ∧
      let ragged : HostArray := ⟨2, .f32, [0, 0, 0]⟩
      ¬ (checkAttribute (.vector .real .two) .array ragged).isOk ∧
        ragged.bytes.length = 12 ∧ VertexLayout.stride ⟨2, .f32, false⟩ = 8 ∧
        (run overhanging (fresh ({} : RecordingDevice) { buffers := [("shape", ragged)] })).world.events.filterMap
            Event.upload? =
          [.bufferData .array ragged.bytes, .vertexPointer 0 ⟨2, .f32, false⟩] := by
  exact ⟨rfl, by decide +kernel⟩

end Session
end ShaderStack

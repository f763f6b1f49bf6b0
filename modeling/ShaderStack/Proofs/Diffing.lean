import ShaderStack.Proofs.Deliveries
import ShaderStack.Proofs.FirstValues

/-! Uploads follow the identity of what accessors give.

For arrays that is the whole story: a flush uploads what is neither the array accepted last nor unfit, and
an array that does not fit leaves no trace. A sampler is different. It remembers pixels that did not fit,
so that pixels that are still in the texture are uploaded again after them. -/
namespace ShaderStack

variable {δ : Type} [GraphicsDevice δ] {slot : BindingSlot} {p q : Program} {fs : List (Flush δ)}
  {tokens : List Token}

/-- What the flushes of a program do for an array binding that has accepted an array. Each finds that array
on the device, asks the accessor once, sends what is to be sent for the answer, and leaves on the device
what is accepted then. -/
def ArrayBinding.Follows (b : ArrayBinding) (slot : BindingSlot) (vertexArray : Handle) :
    HostArray → List (Flush δ) → Prop
  | _, [] => True
  | last, f :: fs =>
    b.Stored vertexArray f.world.graphics f.program.bindings.elements last ∧
      ∃ t, f.turn? slot = some t ∧
        let data := t.world.see b.value
        t.after.events = t.world.events ++ (b.commands last data).map .command ∧
        b.Stored vertexArray f.graphics f.next.bindings.elements (b.accept last data) ∧
        Follows b slot vertexArray (b.accept last data) fs

/-- What the flushes of a program do for a sampler that was given some pixels last. Each asks the accessor
once, sends what is to be sent for the answer, and leaves in the texture what was given last, if it fits. -/
def TextureBinding.Follows (b : TextureBinding) (slot : BindingSlot) :
    Option HostArray → List (Flush δ) → Prop
  | _, [] => True
  | given, f :: fs =>
    ∃ t, f.turn? slot = some t ∧
      let source := t.world.see b.value
      let sent := b.commands t.world.textureOf? given source
      t.after.events = t.world.events ++ sent.map .command ∧
      ((∃ image pixels, .textureImage image pixels ∈ sent) ↔ b.takes given source) ∧
      b.Holds f.graphics (remember given source) ∧
      Follows b slot (remember given source) fs

namespace Program

/-- The update at a slot takes its turn in each flush. -/
theorem exists_turn {f : Flush δ} {u : Update}
    (found : f.program.bindings.queue.entries.lookup slot = some u) :
    ∃ t, f.turn? slot = some t ∧ t.update = u ∧
      f.next.bindings.queue.entries.lookup slot = some t.next := by
  rw [Flush.lookup_program] at found
  obtain ⟨t, turn, update⟩ := Option.map_eq_some_iff.mp found
  exact ⟨t, turn, update, by rw [Flush.lookup_next, turn]; rfl⟩

theorem Runs.follows_array {u : Update} {b : ArrayBinding} {last : HostArray} (run : p.Runs fs q)
    (ready : ∀ f ∈ fs, f.Ready tokens)
    (found : p.bindings.queue.entries.lookup slot = some u) (array : u.array? = some (b, last)) :
    b.Follows slot p.bindings.vertexArray last fs := by
  induction fs generalizing p u last with
  | nil => trivial
  | cons f fs ih =>
    obtain ⟨rfl, later⟩ := run
    have here := ready f List.mem_cons_self
    obtain ⟨t, turn, rfl, next⟩ := exists_turn found
    obtain ⟨accepted, sent⟩ := t.array?_next array
    refine ⟨Update.stored_of_settled array (here.2 _ (mem_of_lookup found)), t, turn, sent, ?_, ?_⟩
    · exact Update.stored_of_settled accepted (here.settled _ (mem_of_lookup next))
    · have rest := ih later (fun g member => ready g (List.mem_cons_of_mem f member)) next accepted
      exact rest

theorem Runs.follows_texture {u : Update} {b : TextureBinding} {given : Option HostArray}
    (run : p.Runs fs q) (ready : ∀ f ∈ fs, f.Ready tokens)
    (found : p.bindings.queue.entries.lookup slot = some u) (texture : u.texture? = some (b, given)) :
    b.Follows slot given fs := by
  induction fs generalizing p u given with
  | nil => trivial
  | cons f fs ih =>
    obtain ⟨rfl, later⟩ := run
    have here := ready f List.mem_cons_self
    obtain ⟨t, turn, rfl, next⟩ := exists_turn found
    obtain ⟨remembered, sent⟩ := t.texture?_next texture
    refine ⟨t, turn, sent, TextureBinding.mem_commands_iff, ?_, ?_⟩
    · exact Update.holds_of_settled remembered (here.settled _ (mem_of_lookup next))
    · exact ih later (fun g member => ready g (List.mem_cons_of_mem f member)) next remembered

end Program

namespace Session

variable {s : Session δ} {steps : List SessionStep}

/-- What a program remembers when it is built, where it has it from, and that it is on the device. -/
structure Past.Begins (past : Past steps s p) (e : BindingSlot × Update) : Prop where
  carries : ∃ t ∈ past.step.tokens, e.2.Carries t
  begun : e.2.Begun (past.start.moment past.step.tokens)
  settled : e.2.Settled past.built.bindings.vertexArray (past.start.perform past.step).world.graphics
    past.built.bindings.elements

/-- What the context names in a run, it names in the call that builds a program. -/
theorem Past.named (past : Past steps s p) (minting : Minting (run steps s).world.events)
    (words : WordNames (run steps s).world.events) :
    Minting (past.start.perform past.step).world.events ∧
      WordNames (past.start.perform past.step).world.events := by
  have whole : run steps s = run past.after (past.start.perform past.step) := by
    conv_lhs => rw [past.split]
    exact run_append
  rw [whole] at minting words
  have grown := grows_run (s := past.start.perform past.step) past.after
  exact ⟨grown.minting minting, grown.words words⟩

theorem Past.begins {device : δ} {host : Host} (past : Past steps (fresh device host) p)
    (minting : Minting (run steps (fresh device host)).world.events)
    (words : WordNames (run steps (fresh device host)).world.events) :
    ∀ e ∈ past.built.bindings.queue.entries, past.Begins e := by
  obtain ⟨after, named⟩ := past.named minting words
  have grows := grows_perform (s := past.start) past.step
  obtain ⟨prepared, sound, _⟩ := prepared_run_fresh (grows.minting after) (grows.words named)
  obtain ⟨i, vertex, fragment, config, call, yielded⟩ := past.compiles
  obtain ⟨stack, found, built⟩ := exists_of_outcome yielded
  rw [call] at after named
  have equipped : ∃ bound, past.built.Equipped (past.start.moment ([] ++ past.step.tokens)) bound
      (past.start.perform past.step).world.graphics := by
    rw [call]
    obtain ⟨bound, _, equipped⟩ := (equipped_perform found sound prepared.free after named).2 _ yielded
    exact ⟨bound, equipped⟩
  obtain ⟨_, wired, settled, _⟩ := equipped
  intro e member
  constructor
  · exact wired.carries e member
  · rw [call]
    exact ProgramCache.begun_compile ⟨_, .start⟩ (SessionStep.mem_tokens_of_named i)
      (SessionStep.mem_tokens_of_indices i) built e member
  · exact settled e member

variable {device : δ} {host : Host}

/-- From the array that was read when it was bound, an array attribute or an index token uploads exactly
what is another allocation than the array accepted last and fits. Whatever the accessor gives, buffer,
pointer and indices are those of the array accepted last. -/
theorem arrays_upload_once_accepted
    (minting : Minting (run steps (fresh device host)).world.events)
    (words : WordNames (run steps (fresh device host)).world.events) :
    ∀ p ∈ (run steps (fresh device host)).programs, ∃ past : Past steps (fresh device host) p,
      ∀ slot u b first, past.built.bindings.queue.entries.lookup slot = some u →
        u.array? = some (b, first) →
        (∃ t ∈ past.step.tokens, u.Carries t) ∧
        (∃ seen now, (past.start.moment past.step.tokens).Reaches seen now ∧
          (b.value.run now).1 = first) ∧
        b.Stored past.built.bindings.vertexArray (past.start.perform past.step).world.graphics
          past.built.bindings.elements first ∧
        b.Follows slot past.built.bindings.vertexArray first past.flushes := by
  intro p member
  obtain ⟨past⟩ := exists_past steps sound_fresh programs_fresh minting p member
  have ready := ready_flushesIn device host steps minting words
  refine ⟨past, ?_⟩
  intro slot u b first found array
  have begins := past.begins minting words _ (mem_of_lookup found)
  refine ⟨begins.carries, begins.begun.array array, Update.stored_of_settled array begins.settled, ?_⟩
  exact past.runs.follows_array (fun f mine => ready f (past.mem_flushesIn f mine)) found array

/-- The host gives another array, then one that does not fit, and then the one before it again. -/
def refitting : List SessionStep :=
  let vertex : CompiledShader := ⟨1, "in int shape;\nvoid main shape", [⟨"shape", shape⟩]⟩
  let give (data : HostArray) : SessionStep := .changeHost fun host => { host with buffers := [("shape", data)] }
  [.makeStack true 8 8 {}, .compile 0 vertex ⟨2, "void main", []⟩ { draw := .arrays 0 1 }, .renderProgram 0,
    give ⟨2, .u16, [8, 9]⟩, .renderProgram 0, give ⟨3, .f32, [0]⟩, .renderProgram 0,
    give ⟨2, .u16, [8, 9]⟩, .renderProgram 0]

theorem refitting_uploads_once :
    (rehearsed refitting).programs.length = 1 ∧
      ∀ p ∈ (rehearsed refitting).programs, ∃ past : Past refitting (rehearsed []) p,
        ∀ slot u b first, past.built.bindings.queue.entries.lookup slot = some u →
          u.array? = some (b, first) →
          (∃ t ∈ past.step.tokens, u.Carries t) ∧
          (∃ seen now, (past.start.moment past.step.tokens).Reaches seen now ∧
            (b.value.run now).1 = first) ∧
          b.Stored past.built.bindings.vertexArray (past.start.perform past.step).world.graphics
            past.built.bindings.elements first ∧
          b.Follows slot past.built.bindings.vertexArray first past.flushes :=
  ⟨by decide +kernel, arrays_upload_once_accepted (by decide +kernel) (by decide +kernel)⟩

example : (flushesIn refitting (rehearsed [])).map Flush.uploads =
    [[], [.bufferData .array [8, 0, 9, 0], .vertexPointer 0 ⟨1, .u16, true⟩], [], []] := by
  decide +kernel

/-- A sampler starts without pixels, and uploads exactly the pixels that fit and are another allocation
than the pixels it was given last, whether those fitted or not. Surfaces that it shows in between change
nothing. -/
theorem pixels_upload_once_given
    (minting : Minting (run steps (fresh device host)).world.events)
    (words : WordNames (run steps (fresh device host)).world.events) :
    ∀ p ∈ (run steps (fresh device host)).programs, ∃ past : Past steps (fresh device host) p,
      ∀ slot u b given, past.built.bindings.queue.entries.lookup slot = some u →
        u.texture? = some (b, given) →
        (∃ t ∈ past.step.tokens, u.Carries t) ∧ given = none ∧ b.Follows slot none past.flushes := by
  intro p member
  obtain ⟨past⟩ := exists_past steps sound_fresh programs_fresh minting p member
  have ready := ready_flushesIn device host steps minting words
  refine ⟨past, ?_⟩
  intro slot u b given found texture
  have begins := past.begins minting words _ (mem_of_lookup found)
  obtain rfl := begins.begun.texture texture
  refine ⟨begins.carries, rfl, ?_⟩
  exact past.runs.follows_texture (fun f mine => ready f (past.mem_flushesIn f mine)) found texture

/-- A sampler of pixels. -/
def paint : Token :=
  let value : Accessor TextureSource := Accessor.source "paint"
  ⟨12, .sampler ⟨value, {}⟩⟩

/-- The host gives pixels that do not fit, and then those that are in the texture. -/
def repainting : List SessionStep :=
  let fragment : CompiledShader := ⟨2, "uniform sampler2D paint;\nvoid main paint", [⟨"paint", paint⟩]⟩
  let give (data : HostArray) : SessionStep :=
    .changeHost fun host => { host with sources := [("paint", .pixels data)] }
  [.makeStack true 8 8 {}, .compile 0 ⟨1, "void main", []⟩ fragment { draw := .arrays 0 1 },
    give ⟨1, .u8, [1, 2, 3, 4]⟩, .renderProgram 0, give ⟨2, .i16, [5]⟩, .renderProgram 0,
    give ⟨1, .u8, [1, 2, 3, 4]⟩, .renderProgram 0]

theorem repainting_uploads_given :
    (rehearsed repainting).programs.length = 1 ∧
      ∀ p ∈ (rehearsed repainting).programs, ∃ past : Past repainting (rehearsed []) p,
        ∀ slot u b given, past.built.bindings.queue.entries.lookup slot = some u →
          u.texture? = some (b, given) →
          (∃ t ∈ past.step.tokens, u.Carries t) ∧ given = none ∧ b.Follows slot none past.flushes :=
  ⟨by decide +kernel, pixels_upload_once_given (by decide +kernel) (by decide +kernel)⟩

/-- The same pixels are uploaded twice, although nothing else was put in the texture in between. -/
theorem unfit_pixels_force_upload :
    (flushesIn repainting (rehearsed [])).map
        (fun f => (f.turns.map fun t => t.world.host.source "paint", f.uploads)) =
      let texels : HostArray := ⟨1, .u8, [1, 2, 3, 4]⟩
      let upload : Command := .textureImage ⟨.rgba8, 1, 1, .rgba, .unsignedByte⟩ (some texels.bytes)
      [([.pixels texels], [upload]), ([.pixels ⟨2, .i16, [5]⟩], []), ([.pixels texels], [upload])] := by
  decide +kernel

end Session
end ShaderStack

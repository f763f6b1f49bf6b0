import ShaderStack.Proofs.Indices

/-! The one draw of each render.

A render runs every update of its program once and then draws once. What an indexed draw needs is in step
at every draw: the buffer of the vertex array's element binding holds the array that was uploaded last, and
count and type are those of that array. -/
namespace ShaderStack

variable {δ : Type} [GraphicsDevice δ]

/-- An update sends nothing but what updates may. -/
theorem Update.isUpdate_of_mem_commands {u : Update} {w : World δ} {c : Command} (sent : c ∈ u.commands w) :
    c.isUpdate := by
  have run : World.Extends (·.isUpdate) RenderTexture.bare w (u.ran none w).2 := Update.extends_ran
  obtain ⟨es, split, updates⟩ := run.events
  rw [Update.events_ran] at split
  exact updates (.command c) (List.append_cancel_left split ▸ List.mem_map_of_mem sent)

/-- Uploads of indices. -/
def Command.isIndexData : Command → Bool
  | bufferData .elementArray _ => true
  | _ => false

/-- The indices that an update uploads in its turn. -/
def Turn.taken? (t : Turn δ) : Option HostArray :=
  match t.update with
  | .elements u =>
    let data := t.world.see u.value
    if u.binding.takes u.uploaded data then some data else none
  | _ => none

omit [GraphicsDevice δ] in
theorem Turn.taken?_of_slot {t : Turn δ} (other : t.update.slot ≠ .elements) : t.taken? = none := by
  unfold taken?
  cases update : t.update with
  | elements u => exact absurd (by rw [update]; rfl) other
  | _ => rfl

omit [GraphicsDevice δ] in
theorem Turn.filter_isIndexData (t : Turn δ) : (t.update.commands t.world).filter Command.isIndexData =
    t.taken?.toList.map fun data => .bufferData .elementArray data.bytes := by
  unfold taken? Update.commands
  cases t.update with
  | elements u =>
    dsimp only
    rw [ElementsUpdate.commands_eq]
    unfold ArrayBinding.commands
    split <;> simp [Command.isIndexData, ArrayBinding.target, ArrayBinding.pointers, ElementsUpdate.binding]
  | attributes u =>
    dsimp only [AttributeUpdate.commands]
    split
    · split <;> rfl
    · rfl
  | uniform u =>
    dsimp only [UniformUpdate.commands]
    cases u.setter.push? _ <;> rfl
  | sampler u =>
    dsimp only
    rw [SamplerUpdate.commands_eq]
    unfold TextureBinding.commands TextureBinding.upload
    cases t.world.see u.value with
    | surface id => simp [Command.isIndexData]
    | pixels data => split <;> cases pixelImage? u.binding.options data <;> simp [Command.isIndexData]

namespace Flush

variable {f : Flush δ}

/-- The indices that a flush uploads, in their order. -/
def taken (f : Flush δ) : List HostArray := f.turns.filterMap Turn.taken?

/-- They are what it uploads as indices. -/
theorem filter_isIndexData (f : Flush δ) : f.uploads.filter Command.isIndexData =
    f.taken.map fun data => .bufferData .elementArray data.bytes := by
  have wide (cs : List Command) : (cs.filter Command.isUpload).filter Command.isIndexData =
      cs.filter Command.isIndexData := by
    rw [List.filter_filter]
    refine List.filter_congr fun c _ => ?_
    cases c <;> simp [Command.isIndexData, Command.isUpload]
  unfold uploads taken
  rw [List.filter_flatMap]
  simp only [wide, Turn.filter_isIndexData]
  induction f.turns with
  | nil => rfl
  | cons t ts ih =>
    rw [List.flatMap_cons, ih, List.filterMap_cons]
    cases t.taken? <;> rfl

/-- An index token is the only one in its queue. -/
theorem taken_eq {t : Turn δ}
    (apart : UpdateQueue.Apart f.program.handle f.program.bindings.vertexArray
      f.program.bindings.queue.entries)
    (turn : f.turn? .elements = some t) (elements : t.update.slot = .elements) :
    f.taken = t.taken?.toList := by
  obtain ⟨_, before, after, split, _⟩ := List.find?_eq_some_iff_append.mp turn
  have whole : f.turns.map (fun t => (t.slot, t.update)) = f.program.bindings.queue.entries :=
    UpdateQueue.map_update_turns
  unfold UpdateQueue.Apart at apart
  rw [← whole, List.pairwise_map, split, List.pairwise_append, List.pairwise_cons] at apart
  obtain ⟨_, ⟨behind, _⟩, ahead⟩ := apart
  have earlier : before.filterMap Turn.taken? = [] := List.filterMap_eq_nil_iff.mpr fun x member =>
    Turn.taken?_of_slot fun both =>
      Update.slot_of_disjoint (ahead x member t List.mem_cons_self) both elements
  have later : after.filterMap Turn.taken? = [] := List.filterMap_eq_nil_iff.mpr fun x member =>
    Turn.taken?_of_slot (Update.slot_of_disjoint (behind x member) elements)
  unfold taken
  rw [split, List.filterMap_append, List.filterMap_cons, earlier, later]
  cases t.taken? <;> rfl

theorem taken_of_tokenless (tokenless : ∀ e ∈ f.program.bindings.queue.entries, e.2.slot ≠ .elements) :
    f.taken = [] := by
  have whole : f.turns.map (fun t => (t.slot, t.update)) = f.program.bindings.queue.entries :=
    UpdateQueue.map_update_turns
  refine List.filterMap_eq_nil_iff.mpr fun t member => Turn.taken?_of_slot ?_
  exact tokenless (t.slot, t.update) (whole ▸ List.mem_map_of_mem member)

/-- A render puts the program and its vertex array in use, gives each update its turn, calls the hook and
draws. -/
def Renders (f : Flush δ) (draws : List Command) : Prop :=
  (f.program.render.run f.world).2.events = f.world.events ++
    ([.useProgram (some f.program.handle), .bindVertexArray (some f.program.bindings.vertexArray)].map
        Event.command ++
      f.turns.flatMap (fun t => (t.update.commands t.world).map .command) ++
      (f.program.hook.map fun label => Event.callback (.programHook label)).toList ++
      (draws ++ [Command.bindVertexArray none]).map .command)

theorem renders (f : Flush δ) : f.Renders (f.program.drawCommands f.next.bindings.elements) := by
  obtain ⟨p, w⟩ := f
  have flushed : (p.bindings.flush.run (p.readied w)).2.events =
      (p.readied w).events ++ (turns ⟨p, w⟩).flatMap fun t => (t.update.commands t.world).map .command := by
    rw [Bindings.run_flush]
    exact UpdateQueue.events_ran
  have hooked : (p.before w).events = (p.bindings.flush.run (p.readied w)).2.events ++
      (p.hook.map fun label => Event.callback (.programHook label)).toList := by
    unfold Program.before World.hooked
    cases p.hook with
    | none => simp
    | some label => exact World.emit_events
  have readied : (p.readied w).events = w.events ++
      [.command (.useProgram (some p.handle)), .command (.bindVertexArray (some p.bindings.vertexArray))] := by
    simp [Program.readied]
  unfold Renders
  rw [Program.run_render]
  simp [World.events_performAll, hooked, flushed, readied, next]

end Flush

/-- The array that is uploaded last as indices, from one that was uploaded before some flushes. -/
def uploadedLast (first : HostArray) (fs : List (Flush δ)) : HostArray :=
  (fs.flatMap Flush.taken).getLast?.getD first

theorem uploadedLast_cons {first : HostArray} {f : Flush δ} {fs : List (Flush δ)} :
    uploadedLast first (f :: fs) = uploadedLast (f.taken.getLast?.getD first) fs := by
  unfold uploadedLast
  rw [List.flatMap_cons, List.getLast?_append]
  cases (fs.flatMap Flush.taken).getLast? <;> rfl

namespace Program

variable {p q : Program} {fs gs : List (Flush δ)} {f : Flush δ} {tokens : List Token}

omit [GraphicsDevice δ] in
theorem draw_of_frozen (same : q.frozen = p.frozen) : q.draw = p.draw := by
  have draws := congrArg draw same
  exact draws

theorem Runs.until (run : p.Runs (fs ++ f :: gs) q) : p.Runs fs f.program := by
  induction fs generalizing p with
  | nil => exact run.1.symm
  | cons g fs ih => exact ⟨run.1, ih run.2⟩

/-- An index token remembers the array that it uploaded last. -/
theorem Runs.elements {u : ElementsUpdate} (run : p.Runs fs q) (ready : ∀ f ∈ fs, f.Ready tokens)
    (found : p.bindings.queue.entries.lookup .elements = some (.elements u)) :
    q.bindings.queue.entries.lookup .elements =
      some (.elements { u with uploaded := uploadedLast u.uploaded fs }) := by
  induction fs generalizing p u with
  | nil => exact run ▸ found
  | cons f fs ih =>
    obtain ⟨rfl, later⟩ := run
    obtain ⟨t, turn, update, next⟩ := exists_turn found
    have taken := Flush.taken_eq (ready f List.mem_cons_self).1.apart turn (by rw [update]; rfl)
    have accepted : t.next = .elements { u with uploaded := f.taken.getLast?.getD u.uploaded } := by
      unfold Turn.next
      rw [update, Update.ran_elements, ElementsUpdate.run_eq, ElementsUpdate.uploaded_next, taken]
      unfold Turn.taken? ArrayBinding.accept
      rw [update]
      by_cases takes : u.binding.takes u.uploaded (t.world.see u.value) = true <;> simp [takes]
    rw [accepted] at next
    rw [uploadedLast_cons]
    exact ih later (fun g member => ready g (List.mem_cons_of_mem f member)) next

/-- Without an index token no flush changes the indices in use. -/
theorem Runs.tokenless (run : p.Runs fs q)
    (tokenless : ∀ e ∈ p.bindings.queue.entries, e.2.slot ≠ .elements) :
    q.bindings.elements = p.bindings.elements ∧ fs.flatMap Flush.taken = [] ∧
      ∀ e ∈ q.bindings.queue.entries, e.2.slot ≠ .elements := by
  induction fs generalizing p with
  | nil => exact run ▸ ⟨rfl, rfl, tokenless⟩
  | cons f fs ih =>
    obtain ⟨rfl, later⟩ := run
    have next : ∀ e ∈ f.next.bindings.queue.entries, e.2.slot ≠ .elements := by
      intro e member
      obtain ⟨e', there, _, update⟩ := UpdateQueue.exists_frozen (entries_of_frozen frozen_flushed) e member
      rw [Update.slot_of_frozen update]
      exact tokenless e' there
    obtain ⟨used, taken, last⟩ := ih later next
    have kept : f.next.bindings.elements = f.program.bindings.elements := by
      unfold Flush.next flushed
      rw [Bindings.run_flush]
      exact UpdateQueue.indices_ran tokenless
    exact ⟨used.trans kept, by rw [List.flatMap_cons, Flush.taken_of_tokenless tokenless, taken]; rfl, last⟩

end Program

/-- One draw call as it was asked for. An indexed draw has the count and the type of an array, which is in
the buffer of the element binding. -/
def Flush.Draws (f : Flush δ) (buffer : Handle) (data : HostArray) : Draw → Command → Prop
  | .arrays first count, c => c = .drawArrays f.program.mode first count
  | .elements _, c =>
    f.graphics.elementArrays f.graphics.vertexArray = some buffer ∧
      f.graphics.buffers buffer = data.bytes ∧
      ∃ count type, c = .drawElements f.program.mode count type ∧
        type.Reads data.kind ∧ (data.length < 2 ^ 31 → count.toInt = data.length)

theorem Flush.exists_indexed {f : Flush δ} {listed : List UInt32} {buffer : Handle} {data : HostArray}
    {type : IndexType} (draw : f.program.draw = .elements listed)
    (array : f.graphics.elementArrays f.graphics.vertexArray = some buffer)
    (bytes : f.graphics.buffers buffer = data.bytes) (kind : type.Reads data.kind)
    (used : f.next.bindings.elements = some ⟨data.length, type⟩) :
    ∃ c, f.Renders [c] ∧ f.Draws buffer data (.elements listed) c := by
  have renders := f.renders
  unfold Program.drawCommands at renders
  rw [draw, used] at renders
  exact ⟨_, renders, array, bytes, _, type, rfl, kind, fun short => Int32.toInt_ofNat_of_lt short⟩

namespace Session

variable {s : Session δ} {p : Program} {steps : List SessionStep}

section Flushes

variable {past : Past steps s p} {tokens : List Token} {before after : List (Flush δ)} {f : Flush δ}
  (split : past.flushes = before ++ f :: after)

include split

/-- The program of a flush is the one that was built, up to what its updates remember. -/
theorem Past.until : past.built.Runs before f.program ∧ f.program.frozen = past.built.frozen := by
  have run := past.runs
  change past.built.Runs past.flushes p at run
  rw [split] at run
  exact ⟨run.until, run.until.frozen⟩

theorem Past.through : past.built.Runs (before ++ [f]) f.next := (past.until split).1.trans ⟨rfl, rfl⟩

theorem Past.vertexArray : f.graphics.vertexArray = some past.built.bindings.vertexArray := by
  rw [← (Program.handles_of_frozen (past.until split).2).2]
  exact Program.inUse_before.1

/-- A flush draws from the array that its index token uploaded last. -/
theorem Past.draws_token {listed : List UInt32} {u : ElementsUpdate}
    (ready : ∀ f ∈ past.flushes, f.Ready tokens) (draw : past.built.draw = .elements listed)
    (found : past.built.bindings.queue.entries.lookup .elements = some (.elements u)) :
    ∃ c, f.Renders [c] ∧ f.Draws u.buffer (uploadedLast u.uploaded (before ++ [f])) (.elements listed) c := by
  have here := ready f (by rw [split]; simp)
  have now := (past.through split).elements (fun g member => ready g (by
    rw [split]
    simp only [List.mem_append, List.mem_cons, List.not_mem_nil, or_false] at member ⊢
    exact member.imp_right .inl)) found
  obtain ⟨array, bytes, type, kind, used⟩ := here.settled _ (mem_of_lookup now)
  have same : f.next.bindings.vertexArray = past.built.bindings.vertexArray :=
    (Program.handles_of_frozen (past.through split).frozen).2
  rw [same, ← past.vertexArray split] at array
  have drawn : f.program.draw = past.built.draw := Program.draw_of_frozen (past.until split).2
  exact Flush.exists_indexed (drawn.trans draw) array bytes kind used

/-- Without a token it draws from the indices that are listed. -/
theorem Past.draws_listed {listed : List UInt32} {buffer : Handle} (rests : past.Rests)
    (draw : past.built.draw = .elements listed)
    (lists : past.built.Lists (past.start.perform past.step).world.graphics buffer listed) :
    ∃ c, f.Renders [c] ∧
      f.Draws buffer (uploadedLast ⟨0, .u32, listed⟩ (before ++ [f])) (.elements listed) c := by
  obtain ⟨used, taken, _⟩ := (past.through split).tokenless lists.tokenless
  have first : uploadedLast ⟨0, .u32, listed⟩ (before ++ [f]) = ⟨0, .u32, listed⟩ := by
    unfold uploadedLast
    rw [taken]
    rfl
  have kept {c : Cell} (resting : past.built.Rests c) :
      c.Same (past.start.perform past.step).world.graphics f.graphics := by
    have early := (rests c resting).1 f (by rw [split]; simp)
    exact early.trans (Program.same_before (resting.avoided.of_frozen (past.until split).2))
  have array := kept lists.bound
  have bytes := kept lists.stored
  simp only [Cell.Same] at array bytes
  rw [lists.array] at array
  rw [lists.bytes] at bytes
  have drawn : f.program.draw = past.built.draw := Program.draw_of_frozen (past.until split).2
  rw [first]
  rw [← past.vertexArray split] at array
  exact Flush.exists_indexed (drawn.trans draw) array bytes .u32 (used.trans lists.drawn)

end Flushes

/-- What an indexed draw of a new program uses: the array that its index token was bound with, or without
a token the indices that are listed. -/
def Past.Indexes (past : Past steps s p) (listed : List UInt32) (buffer : Handle) (first : HostArray) :
    Prop :=
  (past.start.perform past.step).world.graphics.buffers buffer = first.bytes ∧
    ((∃ value, past.built.bindings.queue.entries.lookup .elements = some (.elements ⟨buffer, value, first⟩) ∧
        past.Begins (.elements, .elements ⟨buffer, value, first⟩)) ∨
      first.contents = ⟨.u32, listed⟩ ∧
        ∀ e ∈ past.built.bindings.queue.entries, e.2.slot ≠ .elements)

variable {device : δ} {host : Host}

/-- A new program draws as it was asked to, and has the indices for that. -/
theorem Past.indices (past : Past steps (fresh device host) p)
    (minting : Minting (run steps (fresh device host)).world.events)
    (words : WordNames (run steps (fresh device host)).world.events) :
    ∃ i vertex fragment config, past.step = .compile i vertex fragment config ∧
      (past.built.draw = config.draw ∧ past.built.hook = config.hook) ∧
      ∀ listed, config.draw = .elements listed →
        (∃ u, past.built.bindings.queue.entries.lookup .elements = some (.elements u)) ∨
          ∃ buffer, past.built.Lists (past.start.perform past.step).world.graphics buffer listed := by
  obtain ⟨after, named⟩ := past.named minting words
  have grows := grows_perform (s := past.start) past.step
  obtain ⟨prepared, sound, _⟩ := prepared_run_fresh (grows.minting after) (grows.words named)
  obtain ⟨i, vertex, fragment, config, call, yielded⟩ := past.compiles
  obtain ⟨stack, found, built⟩ := exists_of_outcome yielded
  refine ⟨i, vertex, fragment, config, call, ProgramCache.drawn_compile built, fun listed draw => ?_⟩
  obtain ⟨others, owned, _⟩ := split_cache found
  have kept : World.Kept (stack.cache.owns + others) past.start.grips past.start.world := owned ▸ sound
  have performed := (perform_compile vertex fragment config found).1
  have world : (past.start.perform past.step).world =
      ((stack.cache.compile stack.redraw vertex fragment config).run past.start.world).2 := by
    rw [call]
    exact congrArg Session.world performed
  rw [world] at after named ⊢
  exact ProgramCache.indices_compile (m := past.start.moment past.step.tokens) kept prepared.free
    ⟨_, .start⟩ (call ▸ SessionStep.mem_tokens_of_named i) (call ▸ SessionStep.mem_tokens_of_indices i) draw
    (Prod.ext (Prod.ext built rfl) rfl) after named

/-- Every render of a program gives each of its updates one turn, in the order of the queue, then calls its
hook and then draws exactly once, with its vertex array bound. A draw of arrays is the one that was asked
for. An indexed draw has the count and the type of the array that was uploaded last, which is in the buffer
of the element binding; there is always one. -/
theorem renders_draw_once (minting : Minting (run steps (fresh device host)).world.events)
    (words : WordNames (run steps (fresh device host)).world.events) :
    ∀ p ∈ (run steps (fresh device host)).programs, ∃ past : Past steps (fresh device host) p,
      ∃ i vertex fragment config, past.step = .compile i vertex fragment config ∧
        past.built.hook = config.hook ∧
        ∃ buffer first, (∀ listed, config.draw = .elements listed → past.Indexes listed buffer first) ∧
          ∀ before f after, past.flushes = before ++ f :: after →
            f.program.frozen = past.built.frozen ∧
            f.turns.map (fun t => (t.slot, t.update)) = f.program.bindings.queue.entries ∧
            (∀ t ∈ f.turns, ∀ c ∈ t.update.commands t.world, c.isUpdate) ∧
            f.uploads.filter Command.isIndexData =
              f.taken.map (fun data => .bufferData .elementArray data.bytes) ∧
            f.graphics.vertexArray = some past.built.bindings.vertexArray ∧
            ∃ draw, f.Renders [draw] ∧
              f.Draws buffer (uploadedLast first (before ++ [f])) config.draw draw := by
  intro p member
  obtain ⟨past, rests⟩ := exists_rested_past steps minting words p member
  obtain ⟨i, vertex, fragment, config, call, ⟨drawn, hook⟩, indices⟩ := past.indices minting words
  have ready (f : Flush δ) (mine : f ∈ past.flushes) : f.Ready (steps.flatMap SessionStep.tokens) :=
    ready_flushesIn device host steps minting words f (past.mem_flushesIn f mine)
  have start (draw : Draw) (asked : config.draw = draw) : ∃ buffer first,
      (∀ listed, config.draw = .elements listed → past.Indexes listed buffer first) ∧
      ∀ before f after, past.flushes = before ++ f :: after →
        ∃ c, f.Renders [c] ∧ f.Draws buffer (uploadedLast first (before ++ [f])) config.draw c := by
    cases draw with
    | arrays start count =>
      refine ⟨0, Host.emptyArray, by simp [asked], fun before f after split => ?_⟩
      have draws : f.program.draw = .arrays start count :=
        ((Program.draw_of_frozen (past.until split).2).trans drawn).trans asked
      have renders := f.renders
      unfold Program.drawCommands at renders
      rw [draws] at renders
      rw [asked]
      exact ⟨_, renders, rfl⟩
    | elements listed =>
      rcases indices listed asked with ⟨u, found⟩ | ⟨buffer, lists⟩
      · have begins := past.begins minting words _ (mem_of_lookup found)
        obtain ⟨_, bytes, _⟩ := begins.settled
        refine ⟨u.buffer, u.uploaded, fun _ _ => ⟨bytes, .inl ⟨u.value, found, begins⟩⟩, ?_⟩
        intro before f after split
        rw [asked]
        exact past.draws_token split ready (drawn.trans asked) found
      · refine ⟨buffer, ⟨0, .u32, listed⟩, fun listed' same => ?_, ?_⟩
        · obtain rfl : listed = listed' := Draw.elements.inj (asked.symm.trans same)
          exact ⟨lists.bytes, .inr ⟨rfl, lists.tokenless⟩⟩
        · intro before f after split
          rw [asked]
          exact past.draws_listed split rests (drawn.trans asked) lists
  obtain ⟨buffer, first, indexes, draws⟩ := start config.draw rfl
  refine ⟨past, i, vertex, fragment, config, call, hook, buffer, first, indexes, ?_⟩
  intro before f after split
  exact ⟨(past.until split).2, UpdateQueue.map_update_turns, fun t _ c sent => Update.isUpdate_of_mem_commands sent,
    f.filter_isIndexData, past.vertexArray split, draws before f after split⟩

/-- An index token of which the host gives the indices. -/
def corners : Token :=
  let value : Accessor HostArray := Accessor.buffer "shape"
  ⟨14, .vertexAttribute ⟨.vector .integer .one, value, { target := .elementArray }⟩⟩

/-- The host gives other indices, and then some that cannot be drawn. -/
def reindexing : List SessionStep :=
  let give (data : HostArray) : SessionStep := .changeHost fun host => { host with buffers := [("shape", data)] }
  [.makeStack true 8 8 {}, .compile 0 ⟨1, "void main", []⟩ ⟨2, "void main", []⟩
      { draw := .elements [], indices := some corners },
    .renderProgram 0, give ⟨2, .u16, [8, 9]⟩, .renderProgram 0, give ⟨3, .f32, [0]⟩, .renderProgram 0]

theorem reindexing_draws_once :
    (rehearsed reindexing).programs.length = 1 ∧
      ∀ p ∈ (rehearsed reindexing).programs, ∃ past : Past reindexing (rehearsed []) p,
        ∃ i vertex fragment config, past.step = .compile i vertex fragment config ∧
          past.built.hook = config.hook ∧
          ∃ buffer first, (∀ listed, config.draw = .elements listed → past.Indexes listed buffer first) ∧
            ∀ before f after, past.flushes = before ++ f :: after →
              f.program.frozen = past.built.frozen ∧
              f.turns.map (fun t => (t.slot, t.update)) = f.program.bindings.queue.entries ∧
              (∀ t ∈ f.turns, ∀ c ∈ t.update.commands t.world, c.isUpdate) ∧
              f.uploads.filter Command.isIndexData =
                f.taken.map (fun data => .bufferData .elementArray data.bytes) ∧
              f.graphics.vertexArray = some past.built.bindings.vertexArray ∧
              ∃ draw, f.Renders [draw] ∧
                f.Draws buffer (uploadedLast first (before ++ [f])) config.draw draw :=
  ⟨by decide +kernel, renders_draw_once (by decide +kernel) (by decide +kernel)⟩

example : (flushesIn reindexing (rehearsed [])).map
      (fun f => f.program.drawCommands f.next.bindings.elements) =
    [[.drawElements .triangles 1 .u8], [.drawElements .triangles 2 .u16], [.drawElements .triangles 2 .u16]] := by
  decide +kernel

end Session
end ShaderStack

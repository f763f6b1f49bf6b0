import ShaderStack.Proofs.Flushing

/-! The turns of a flush.

Each update of a queue runs once, in its place. What it sends is a function of what its accessor gives
then and of what was given before, which is here said of the binding alone: for arrays of the value that
was accepted last, for pixels of those that were given last. -/
namespace ShaderStack

/-- What the value of an array binding feeds. -/
inductive ArrayRole
  | attribute (location : Location) (type : DataType)
  | elements

/-- An array attribute or an index token in a queue: a buffer that follows an accessor. -/
structure ArrayBinding where
  role : ArrayRole
  buffer : Handle
  value : Accessor HostArray

namespace ArrayBinding

def target (b : ArrayBinding) : BufferTarget :=
  match b.role with
  | .attribute _ _ => .array
  | .elements => .elementArray

/-- Attributes are checked against their type; indices are unsigned. -/
def fits (b : ArrayBinding) (data : HostArray) : Bool :=
  match b.role with
  | .attribute _ type => (checkAttribute type .array data).isOk
  | .elements => data.kind ∈ [ElementKind.u8, .u16, .u32]

/-- Another allocation than the one accepted last, and acceptable. -/
def takes (b : ArrayBinding) (last data : HostArray) : Bool := !data.sameBuffer last && b.fits data

/-- What is accepted last after a flush. -/
def accept (b : ArrayBinding) (last data : HostArray) : HostArray :=
  if b.takes last data then data else last

/-- How an attribute reads the elements of an array. -/
def pointers (b : ArrayBinding) (data : HostArray) : List (Location × VertexLayout) :=
  match b.role with
  | .attribute location type =>
    [(location, ⟨Int32.ofNat type.components, data.kind, type.keepsIntegers⟩)]
  | .elements => []

/-- One upload if the array is taken, with the pointer if the elements are of another kind. -/
def commands (b : ArrayBinding) (last data : HostArray) : List Command :=
  if b.takes last data then
    [.bindBuffer b.target (some b.buffer), .bufferData b.target data.bytes] ++
      if data.kind ≠ last.kind then
        (b.pointers data).map fun p => .vertexPointer p.1 p.2
      else []
  else []

/-- The buffer, the pointer, and the indices in use are those of an array. -/
def Stored (b : ArrayBinding) (vertexArray : Handle) (g : GraphicsState)
    (indices : Option IndexBuffer) (data : HostArray) : Prop :=
  g.buffers b.buffer = data.bytes ∧
    (∀ p ∈ b.pointers data, g.pointers (some vertexArray) p.1 = some (some b.buffer, p.2)) ∧
    (b.target = .elementArray → g.elementArrays (some vertexArray) = some b.buffer ∧
      ∃ type : IndexType, type.Reads data.kind ∧ indices = some ⟨data.length, type⟩)

variable {b : ArrayBinding} {last data : HostArray}

/-- What is accepted was so before, or fits. -/
theorem accept_cases : b.accept last data = last ∨ b.accept last data = data ∧ b.fits data := by
  unfold accept
  split
  · next taken => exact .inr ⟨rfl, (Bool.and_eq_true_iff.mp taken).2⟩
  · exact .inl rfl

/-- Every array that is uploaded fits. -/
theorem fits_of_mem_commands {target : BufferTarget} {bytes : List UInt8}
    (member : .bufferData target bytes ∈ b.commands last data) :
    b.fits data ∧ target = b.target ∧ bytes = data.bytes := by
  unfold commands at member
  split at member
  · next taken =>
    refine ⟨(Bool.and_eq_true_iff.mp taken).2, ?_⟩
    split at member <;> simpa using member
  · exact absurd member List.not_mem_nil

end ArrayBinding

/-- A sampler in a queue: a texture and a unit that follow an accessor. -/
structure TextureBinding where
  location : Location
  unit : UInt32
  texture : Handle
  options : SamplerOptions
  value : Accessor TextureSource

namespace TextureBinding

/-- Pixels of another allocation than those given last, in a layout that fits. -/
def takes (b : TextureBinding) (given : Option HostArray) : TextureSource → Bool
  | .pixels data => !given.any (·.sameBuffer data) && (textureLayout b.options data).isOk
  | .surface _ => false

/-- Pixels are remembered whether they fit or not, and surfaces are not. -/
def remember (given : Option HostArray) : TextureSource → Option HostArray
  | .pixels data => if given.any (·.sameBuffer data) then given else some data
  | .surface _ => given

/-- The texture that is bound to the unit. -/
def shown (b : TextureBinding) (surfaces : SurfaceId → Option Handle) : TextureSource → Handle
  | .pixels _ => b.texture
  | .surface id => (surfaces id).getD b.texture

/-- How pixels that fit are uploaded. -/
def upload (b : TextureBinding) : TextureSource → List Command
  | .pixels data => ((pixelImage? b.options data).map fun image =>
      Command.textureImage image (some data.bytes)).toList
  | .surface _ => []

/-- A texture is bound to the unit, pixels that are taken go there, and the location gets the unit. -/
def commands (b : TextureBinding) (surfaces : SurfaceId → Option Handle) (given : Option HostArray)
    (source : TextureSource) : List Command :=
  [.activeTexture b.unit, .bindTexture (some (b.shown surfaces source))] ++
    (if b.takes given source then b.upload source else []) ++
    [.uniform b.location (.integers 1 [b.unit.toInt32])]

/-- Pixels that fit are in the texture. -/
def Holds (b : TextureBinding) (g : GraphicsState) (given : Option HostArray) : Prop :=
  ∀ data ∈ given, ∀ image, pixelImage? b.options data = some image →
    g.textures b.texture = .image image (some data.bytes)

variable {surfaces : SurfaceId → Option Handle} {given : Option HostArray} {source : TextureSource}

/-- Pixels that do not fit have no image. -/
theorem upload_of_not_fits (b : TextureBinding) {data : HostArray} (unfit : ¬ (textureLayout b.options data).isOk) :
    b.upload (.pixels data) = [] := by
  simp only [upload, pixelImage?]
  cases layout : textureLayout b.options data with
  | error e => rfl
  | ok found =>
    rw [layout] at unfit
    exact absurd rfl unfit

/-- There is an upload exactly if pixels are taken. -/
theorem mem_commands_iff {b : TextureBinding} : (∃ image pixels, Command.textureImage image pixels ∈
    b.commands surfaces given source) ↔ b.takes given source := by
  unfold commands
  by_cases taken : b.takes given source
  · rw [if_pos taken]
    refine iff_of_true ?_ taken
    cases source with
    | surface id => exact absurd taken Bool.false_ne_true
    | pixels data =>
      obtain ⟨image, found⟩ := exists_pixelImage (Bool.and_eq_true_iff.mp taken).2
      exact ⟨image, some data.bytes, by simp [upload, found]⟩
  · rw [if_neg taken]
    simp [taken]

end TextureBinding

def AttributeUpdate.binding (u : AttributeUpdate) : ArrayBinding :=
  ⟨.attribute u.location u.type, u.buffer, u.value⟩

def ElementsUpdate.binding (u : ElementsUpdate) : ArrayBinding := ⟨.elements, u.buffer, u.value⟩

def SamplerUpdate.binding (u : SamplerUpdate) : TextureBinding :=
  ⟨u.location, u.unit, u.texture, u.options, u.value⟩

namespace Update

/-- An array binding with the array that it accepted last. -/
def array? : Update → Option (ArrayBinding × HostArray)
  | attributes u => some (u.binding, u.uploaded)
  | elements u => some (u.binding, u.uploaded)
  | _ => none

/-- A sampler with the pixels that it was given last. -/
def texture? : Update → Option (TextureBinding × Option HostArray)
  | sampler u => some (u.binding, u.uploaded)
  | _ => none

end Update

variable {δ : Type} [GraphicsDevice δ] {w : World δ} {indices : Option IndexBuffer}

theorem AttributeUpdate.commands_eq {u : AttributeUpdate} {data : HostArray} :
    u.commands data = u.binding.commands u.uploaded data := rfl

theorem AttributeUpdate.uploaded_next {u : AttributeUpdate} {data : HostArray} :
    u.next data = { u with uploaded := u.binding.accept u.uploaded data } := by
  have same : u.binding.takes u.uploaded data = u.takes data := rfl
  unfold next ArrayBinding.accept
  rw [same]
  split <;> rfl

theorem ElementsUpdate.isSome_indices? {u : ElementsUpdate} {data : HostArray} :
    (u.indices? data).isSome = u.binding.takes u.uploaded data := by
  unfold indices? ArrayBinding.takes ArrayBinding.fits
  by_cases same : data.sameBuffer u.uploaded = true
  · simp [same]
  · rw [if_neg same, Option.isSome_map, IndexType.isSome_ofElement]
    simp [same, binding]

theorem ElementsUpdate.commands_eq {u : ElementsUpdate} {data : HostArray} :
    u.commands data = u.binding.commands u.uploaded data := by
  unfold commands ArrayBinding.commands
  rw [isSome_indices?]
  split
  · simp [ArrayBinding.pointers, ArrayBinding.target, binding]
  · rfl

theorem ElementsUpdate.uploaded_next {u : ElementsUpdate} {data : HostArray} :
    u.next data = { u with uploaded := u.binding.accept u.uploaded data } := by
  unfold next ArrayBinding.accept
  rw [isSome_indices?]
  split <;> rfl

theorem SamplerUpdate.commands_eq {u : SamplerUpdate} {surfaces : SurfaceId → Option Handle}
    {source : TextureSource} :
    u.commands surfaces source = u.binding.commands surfaces u.uploaded source := by
  cases source with
  | surface id => rfl
  | pixels data =>
    simp only [commands, TextureBinding.commands, upload_eq]
    by_cases same : u.uploaded.any (·.sameBuffer data) = true
    · simp [same, binding, TextureBinding.takes, TextureBinding.shown, unitPush]
    · by_cases fits : (textureLayout u.options data).isOk
      · simp [same, fits, binding, TextureBinding.takes, TextureBinding.shown, TextureBinding.upload,
          unitPush]
      · have none := u.binding.upload_of_not_fits fits
        simp only [TextureBinding.upload, binding] at none
        simp [same, fits, none, binding, TextureBinding.takes, TextureBinding.shown, unitPush]

namespace Update

variable {u : Update}

/-- What the update sends now. -/
def commands (w : World δ) : Update → List Command
  | attributes u => u.commands (w.see u.value)
  | elements u => u.commands (w.see u.value)
  | uniform u => u.commands (w.see u.value)
  | sampler u => u.commands w.textureOf? (w.see u.value)

/-- A turn sends its commands and nothing else. -/
theorem events_ran : (u.ran indices w).2.events = w.events ++ (u.commands w).map .command := by
  cases u with
  | attributes u =>
    rw [ran_attributes, AttributeUpdate.run_eq]
    exact World.events_performAll
  | elements u =>
    rw [ran_elements, ElementsUpdate.run_eq]
    exact World.events_performAll
  | uniform u =>
    rw [ran_uniform, UniformUpdate.run_eq]
    exact World.events_performAll
  | sampler u =>
    rw [ran_sampler]
    have seen : (w.perform (.activeTexture u.unit)).see u.value = w.see u.value := rfl
    cases current : w.see u.value with
    | pixels data =>
      rw [SamplerUpdate.run_pixels (seen.trans current)]
      simp [World.events_performAll, commands, SamplerUpdate.commands, current]
    | surface id =>
      obtain ⟨handles, w', run, between⟩ := SamplerUpdate.run_surface (seen.trans current)
      have bound : w'.events = w.events ++ [.command (.activeTexture u.unit),
          .command (.bindTexture (some ((w.textureOf? id).getD u.texture)))] := by
        rcases between with rfl | ⟨s, _, rfl⟩
        · simp
        · simp [World.listen_events]
      rw [run, World.emit_events, bound]
      simp [commands, SamplerUpdate.commands, current, SamplerUpdate.unitPush]

/-- The array that is accepted last, and what is sent for it. -/
theorem array?_ran {b : ArrayBinding} {last : HostArray} (found : u.array? = some (b, last)) :
    (u.ran indices w).1.1.array? = some (b, b.accept last (w.see b.value)) ∧
      u.commands w = b.commands last (w.see b.value) := by
  cases u with
  | attributes u =>
    obtain ⟨rfl, rfl⟩ := Prod.mk.inj (Option.some.inj found)
    rw [ran_attributes, AttributeUpdate.run_eq, AttributeUpdate.uploaded_next]
    exact ⟨rfl, AttributeUpdate.commands_eq⟩
  | elements u =>
    obtain ⟨rfl, rfl⟩ := Prod.mk.inj (Option.some.inj found)
    rw [ran_elements, ElementsUpdate.run_eq, ElementsUpdate.uploaded_next]
    exact ⟨rfl, ElementsUpdate.commands_eq⟩
  | uniform u | sampler u => simp [array?] at found

theorem stored_of_settled {b : ArrayBinding} {last : HostArray} {vertexArray : Handle}
    {g : GraphicsState} (found : u.array? = some (b, last)) (settled : u.Settled vertexArray g indices) :
    b.Stored vertexArray g indices last := by
  cases u with
  | attributes u =>
    obtain ⟨rfl, rfl⟩ := Prod.mk.inj (Option.some.inj found)
    obtain ⟨pointer, bytes⟩ := settled
    refine ⟨bytes, ?_, fun indexed => BufferTarget.noConfusion indexed⟩
    simpa [ArrayBinding.pointers, AttributeUpdate.binding, AttributeUpdate.layout] using pointer
  | elements u =>
    obtain ⟨rfl, rfl⟩ := Prod.mk.inj (Option.some.inj found)
    obtain ⟨array, bytes, type⟩ := settled
    exact ⟨bytes, by simp [ArrayBinding.pointers, ElementsUpdate.binding], fun _ => ⟨array, type⟩⟩
  | uniform u | sampler u => simp [array?] at found

theorem holds_of_settled {b : TextureBinding} {given : Option HostArray} {vertexArray : Handle}
    {g : GraphicsState} (found : u.texture? = some (b, given)) (settled : u.Settled vertexArray g indices) :
    b.Holds g given := by
  cases u with
  | sampler u =>
    obtain ⟨rfl, rfl⟩ := Prod.mk.inj (Option.some.inj found)
    exact settled
  | attributes u | elements u | uniform u => simp [texture?] at found

/-- The pixels that are given last, and what is sent for them. -/
theorem texture?_ran {b : TextureBinding} {given : Option HostArray}
    (found : u.texture? = some (b, given)) :
    (u.ran indices w).1.1.texture? = some (b, TextureBinding.remember given (w.see b.value)) ∧
      u.commands w = b.commands w.textureOf? given (w.see b.value) := by
  cases u with
  | sampler u =>
    obtain ⟨rfl, rfl⟩ := Prod.mk.inj (Option.some.inj found)
    obtain ⟨handles, run, _⟩ := SamplerUpdate.run_eq (u := u) (w := w)
    rw [ran_sampler, run]
    refine ⟨?_, SamplerUpdate.commands_eq⟩
    have value : u.binding.value = u.value := rfl
    rw [value]
    cases w.see u.value with
    | surface id => rfl
    | pixels data =>
      unfold SamplerUpdate.after SamplerUpdate.next TextureBinding.remember
      dsimp only
      split <;> rfl
  | attributes u | elements u | uniform u => simp [texture?] at found

end Update

/-- One update as its turn comes: its slot, and the indices in use and the world that it finds. -/
structure Turn (δ : Type) where
  slot : BindingSlot
  update : Update
  indices : Option IndexBuffer
  world : World δ

/-- The update after its turn. -/
def Turn.next (t : Turn δ) : Update := (t.update.ran t.indices t.world).1.1

/-- The world after the turn. -/
def Turn.after (t : Turn δ) : World δ := (t.update.ran t.indices t.world).2

namespace Turn

theorem array?_next {b : ArrayBinding} {last : HostArray} (t : Turn δ)
    (found : t.update.array? = some (b, last)) :
    t.next.array? = some (b, b.accept last (t.world.see b.value)) ∧
      t.after.events = t.world.events ++ (b.commands last (t.world.see b.value)).map .command := by
  obtain ⟨accepted, sent⟩ := Update.array?_ran (w := t.world) found
  exact ⟨accepted, sent ▸ Update.events_ran⟩

theorem texture?_next {b : TextureBinding} {given : Option HostArray} (t : Turn δ)
    (found : t.update.texture? = some (b, given)) :
    t.next.texture? = some (b, TextureBinding.remember given (t.world.see b.value)) ∧
      t.after.events = t.world.events ++
        (b.commands t.world.textureOf? given (t.world.see b.value)).map .command := by
  obtain ⟨remembered, sent⟩ := Update.texture?_ran (w := t.world) found
  exact ⟨remembered, sent ▸ Update.events_ran⟩

end Turn

namespace UpdateQueue

variable {entries : List (BindingSlot × Update)}

/-- The turns of a queue, in their order. -/
def turns : List (BindingSlot × Update) → Option IndexBuffer → World δ → List (Turn δ)
  | [], _, _ => []
  | (slot, u) :: rest, indices, w =>
    ⟨slot, u, indices, w⟩ :: turns rest (u.ran indices w).1.2 (u.ran indices w).2

theorem map_update_turns :
    (turns entries indices w).map (fun t => (t.slot, t.update)) = entries := by
  induction entries generalizing indices w with
  | nil => rfl
  | cons entry rest ih => exact congrArg (entry :: ·) ih

theorem map_next_turns :
    (turns entries indices w).map (fun t => (t.slot, t.next)) = (ran entries indices w).1.1 := by
  induction entries generalizing indices w with
  | nil => rfl
  | cons entry rest ih =>
    obtain ⟨slot, u⟩ := entry
    rw [ran_cons, turns, List.map_cons, ih]
    rfl

/-- A flush sends what its turns send, in their order. -/
theorem events_ran : (ran entries indices w).2.events =
    w.events ++ (turns entries indices w).flatMap fun t => (t.update.commands t.world).map .command := by
  induction entries generalizing indices w with
  | nil => simp [ran_nil, turns]
  | cons entry rest ih =>
    obtain ⟨slot, u⟩ := entry
    have first : (u.ran indices w).2.events = w.events ++ (u.commands w).map .command := Update.events_ran
    rw [ran_cons, turns, List.flatMap_cons, ← List.append_assoc, ← first]
    exact ih

end UpdateQueue
end ShaderStack

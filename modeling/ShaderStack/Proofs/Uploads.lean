import ShaderStack.Proofs.Cells
import ShaderStack.Proofs.Readings
import ShaderStack.Proofs.Updates

/-! What an update leaves on the device.

An update skips what it uploaded last, so that a draw rests on what earlier runs have stored. What is
stored is always the last upload, whatever the accessors give; in a calm moment the last upload is
also what the accessor gives now. -/
namespace ShaderStack

/-- What a value of its own type pushes. -/
def UniformValue.pushed : UniformValue → UniformPush
  | reals n v => .floats n.toNat v.toList
  | integers n v => .integers n.toNat v.toList
  | booleans n v => .integers n.toNat (v.toList.map fun b => if b then 1 else 0)
  | matrix n v => .matrix n.toNat v.toList

theorem UniformValue.push?_forType (v : UniformValue) :
    (UniformSetter.forType v.dataType).push? v = some v.pushed := by
  cases v <;> simp [dataType, UniformSetter.forType, UniformSetter.push?, singles?, integers?, pushed]

/-- How pixels fill a texture, if they fit. -/
def pixelImage? (options : SamplerOptions) (data : HostArray) : Option TextureImage :=
  (textureLayout options data).toOption.bind TextureLayout.image?

/-- Every layout that is accepted has storage. -/
theorem exists_pixelImage {options : SamplerOptions} {data : HostArray}
    (fits : (textureLayout options data).isOk) : ∃ image, pixelImage? options data = some image := by
  cases ok : textureLayout options data with
  | error e => simp [ok, Except.isOk, Except.toBool] at fits
  | ok layout =>
    have parts : layout.element = data.kind ∧ layout.format = options.format ∧
        (data.kind = .u8 ∨ data.kind = .f32 ∧ options.format ≠ .luminance) := by
      unfold textureLayout at ok
      grind
    obtain ⟨element, format, kind⟩ := parts
    have storage : ∃ stored, TextureLayout.storage? layout.element layout.format = some stored := by
      rw [element, format]
      rcases kind with kind | ⟨kind, other⟩ <;> rw [kind] <;> cases form : options.format <;>
        simp_all [TextureLayout.storage?]
    obtain ⟨⟨internal, pixelType⟩, found⟩ := storage
    exact ⟨⟨internal, layout.width, layout.height, layout.format, pixelType⟩, by
      simp [pixelImage?, ok, Except.toOption, TextureLayout.image?, found]⟩

theorem pixelImage?_of_contents {options : SamplerOptions} {a b : HostArray}
    (same : a.contents = b.contents) : pixelImage? options a = pixelImage? options b := by
  obtain ⟨kind, words⟩ := ArrayContents.mk.inj same
  have length : a.length = b.length := by simp [HostArray.length, words]
  simp [pixelImage?, textureLayout, kind, length]

theorem HostArray.bytes_of_contents {a b : HostArray} (same : a.contents = b.contents) :
    a.bytes = b.bytes := by
  obtain ⟨kind, words⟩ := ArrayContents.mk.inj same
  simp [bytes, kind, words]

/-- What a texture holds after pixels were given: pixels that do not fit leave it as it was. -/
def SamplerOptions.content (options : SamplerOptions) (data : HostArray) (before : TextureContent) :
    TextureContent :=
  match pixelImage? options data with
  | some image => .image image (some data.bytes)
  | none => before

theorem SamplerOptions.content_of_contents {options : SamplerOptions} {a b : HostArray}
    (same : a.contents = b.contents) : options.content a = options.content b := by
  funext before
  simp only [content, pixelImage?_of_contents same, HostArray.bytes_of_contents same]

namespace Update

/-- The arrays that were uploaded last. -/
def uploads : Update → List HostArray
  | attributes u => [u.uploaded]
  | elements u => [u.uploaded]
  | uniform _ => []
  | sampler u => u.uploaded.toList

/-- An update without what it remembers. -/
def frozen : Update → Update
  | attributes u => attributes { u with uploaded := Host.emptyArray }
  | elements u => elements { u with uploaded := Host.emptyArray }
  | uniform u => uniform u
  | sampler u => sampler { u with uploaded := none, subscribed := [] }

/-- The update brings the values of a token. -/
def Carries (t : Token) : Update → Prop
  | attributes u =>
    ∃ a, t.kind = .vertexAttribute a ∧ a.options.target = .array ∧ u.type = a.type ∧ u.value = a.value
  | elements u =>
    ∃ a, t.kind = .vertexAttribute a ∧ a.options.target = .elementArray ∧ u.value = a.value
  | uniform u => ∃ k, t.kind = .uniform k ∧ u.setter = .forType k.type ∧ u.value = k.value
  | sampler u => ∃ k, t.kind = .sampler k ∧ u.options = k.options ∧ u.value = k.value

/-- The slot that an update is registered under. -/
def slot : Update → BindingSlot
  | attributes u => .vertexAttribute u.location
  | elements _ => .elements
  | uniform u => .uniform u.location
  | sampler u => .uniform u.location

/-- The cells that hold what was uploaded last. -/
def stores (vertexArray : Handle) : Update → List Cell
  | attributes u => [.pointer (some vertexArray) u.location, .buffer u.buffer]
  | elements u => [.elementArray (some vertexArray), .buffer u.buffer]
  | uniform _ => []
  | sampler u => [.texture u.texture]

/-- The cells that each run writes anew. -/
def pushes (program : Handle) : Update → List Cell
  | attributes _ | elements _ => []
  | uniform u => [.uniform program u.location]
  | sampler u => [.unit u.unit, .uniform program u.location]

def cells (program vertexArray : Handle) (u : Update) : List Cell :=
  u.stores vertexArray ++ u.pushes program

/-- Uniforms and units are never stored to, since other programs may share them. -/
theorem not_mem_pushes {u v : Update} {program vertexArray : Handle} {c : Cell}
    (stored : c ∈ v.stores vertexArray) : c ∉ u.pushes program := by
  cases v <;> cases u <;> simp_all [stores, pushes] <;> rcases stored with rfl | rfl <;> simp

/-- What was uploaded last is there. -/
def Settled (vertexArray : Handle) (g : GraphicsState) (indices : Option IndexBuffer) :
    Update → Prop
  | attributes u =>
    g.pointers (some vertexArray) u.location = some (some u.buffer, u.layout u.uploaded) ∧
      g.buffers u.buffer = u.uploaded.bytes
  | elements u =>
    g.elementArrays (some vertexArray) = some u.buffer ∧ g.buffers u.buffer = u.uploaded.bytes ∧
      ∃ type : IndexType, type.Reads u.uploaded.kind ∧
        indices = some ⟨u.uploaded.length, type⟩
  | uniform _ => True
  | sampler u => ∀ data ∈ u.uploaded, ∀ image, pixelImage? u.options data = some image →
      g.textures u.texture = .image image (some data.bytes)

/-- What the accessor gives at the moment is there, and what is pushed is where draws look. -/
def Shown (m : Moment) (program vertexArray : Handle) (g : GraphicsState)
    (indices : Option IndexBuffer) : Update → Prop
  | attributes u =>
    g.pointers (some vertexArray) u.location =
        some (some u.buffer, u.layout (u.value.run m.host).1) ∧
      g.buffers u.buffer = (u.value.run m.host).1.bytes
  | elements u =>
    g.elementArrays (some vertexArray) = some u.buffer ∧
      g.buffers u.buffer = (u.value.run m.host).1.bytes ∧
      ∃ type : IndexType, type.Reads (u.value.run m.host).1.kind ∧
        indices = some ⟨(u.value.run m.host).1.length, type⟩
  | uniform u => g.uniforms program u.location = some (u.value.run m.host).1.pushed
  | sampler u =>
    g.uniforms program u.location = some (.integers 1 [u.unit.toInt32]) ∧
      match (u.value.run m.host).1 with
      | .pixels data =>
        g.units u.unit = some u.texture ∧ ∃ image, pixelImage? u.options data = some image ∧
          g.textures u.texture = .image image (some data.bytes)
      | .surface id => g.units u.unit = some ((m.surfaces id).getD u.texture)

section Frames

variable {m : Moment} {t : Token} {u : Update} {program vertexArray : Handle} {g g' : GraphicsState}
  {indices indices' : Option IndexBuffer}

theorem stores_frozen (u : Update) : u.frozen.stores vertexArray = u.stores vertexArray := by
  cases u <;> rfl

theorem cells_frozen (u : Update) :
    u.frozen.cells program vertexArray = u.cells program vertexArray := by
  cases u <;> rfl

theorem slot_frozen (u : Update) : u.frozen.slot = u.slot := by
  cases u <;> rfl

theorem carries_frozen (u : Update) : u.frozen.Carries t ↔ u.Carries t := by
  cases u <;> rfl

section Same

variable {u' : Update} (same : u'.frozen = u.frozen)
include same

theorem stores_of_frozen : u'.stores vertexArray = u.stores vertexArray := by
  rw [← stores_frozen u', same, stores_frozen]

theorem cells_of_frozen : u'.cells program vertexArray = u.cells program vertexArray := by
  rw [← cells_frozen u', same, cells_frozen]

theorem slot_of_frozen : u'.slot = u.slot := by
  rw [← slot_frozen u', same, slot_frozen]

theorem carries_of_frozen : u'.Carries t ↔ u.Carries t := by
  rw [← carries_frozen u', same, carries_frozen]

end Same

/-- What was uploaded stays where its cells are left alone. -/
theorem Settled.keep (settled : u.Settled vertexArray g indices)
    (same : ∀ c ∈ u.stores vertexArray, c.Same g g')
    (drawn : u.slot = .elements → indices' = indices) : u.Settled vertexArray g' indices' := by
  cases u with
  | attributes u =>
    have pointer := same (.pointer (some vertexArray) u.location) (by simp [stores])
    have buffer := same (.buffer u.buffer) (by simp [stores])
    simp only [Cell.Same] at pointer buffer
    simpa [Settled, pointer, buffer] using settled
  | elements u =>
    have array := same (.elementArray (some vertexArray)) (by simp [stores])
    have buffer := same (.buffer u.buffer) (by simp [stores])
    simp only [Cell.Same] at array buffer
    simpa [Settled, array, buffer, drawn rfl] using settled
  | uniform u => trivial
  | sampler u =>
    have texture := same (.texture u.texture) (by simp [stores])
    simp only [Cell.Same] at texture
    simpa [Settled, texture] using settled

theorem Shown.keep (shown : u.Shown m program vertexArray g indices)
    (same : ∀ c ∈ u.cells program vertexArray, c.Same g g')
    (drawn : u.slot = .elements → indices' = indices) :
    u.Shown m program vertexArray g' indices' := by
  cases u with
  | attributes u =>
    have pointer := same (.pointer (some vertexArray) u.location) (by simp [cells, stores])
    have buffer := same (.buffer u.buffer) (by simp [cells, stores])
    simp only [Cell.Same] at pointer buffer
    simpa [Shown, pointer, buffer] using shown
  | elements u =>
    have array := same (.elementArray (some vertexArray)) (by simp [cells, stores])
    have buffer := same (.buffer u.buffer) (by simp [cells, stores])
    simp only [Cell.Same] at array buffer
    simpa [Shown, array, buffer, drawn rfl] using shown
  | uniform u =>
    have uniform := same (.uniform program u.location) (by simp [cells, stores, pushes])
    simp only [Cell.Same] at uniform
    simpa [Shown, uniform] using shown
  | sampler u =>
    have texture := same (.texture u.texture) (by simp [cells, stores])
    have unit := same (.unit u.unit) (by simp [cells, stores, pushes])
    have uniform := same (.uniform program u.location) (by simp [cells, stores, pushes])
    simp only [Cell.Same] at texture unit uniform
    simpa [Shown, texture, unit, uniform] using shown

end Frames
end Update

section Runs

variable {δ : Type} [GraphicsDevice δ] {w : World δ} {g : GraphicsState} {m : Moment}
  {program vertexArray : Handle} {indices : Option IndexBuffer} {data : HostArray}

/-- The state after some commands. -/
abbrev GraphicsState.afterAll (cs : List Command) (g : GraphicsState) : GraphicsState :=
  cs.foldl (fun g c => g.afterCommand c) g

theorem GraphicsState.same_cons {d : Command} {cs : List Command} {c : Cell}
    (head : ¬ g.writes (.command d) c)
    (tail : c.Same (g.afterCommand d) ((g.afterCommand d).afterAll cs)) :
    c.Same g (g.afterAll (d :: cs)) :=
  (same_after (e := .command d) head).trans tail

namespace AttributeUpdate

variable {u : AttributeUpdate}

/-- The pointer is set anew only if the kind changes, and else is right already. -/
theorem settled_commands (bound : g.vertexArray = some vertexArray)
    (settled : (Update.attributes u).Settled vertexArray g indices) :
    (Update.attributes (u.next data)).Settled vertexArray (g.afterAll (u.commands data)) indices := by
  obtain ⟨pointer, bytes⟩ := settled
  unfold next commands
  by_cases takes : u.takes data
  · by_cases kind : data.kind = u.uploaded.kind
    · simp [takes, kind, Update.Settled, GraphicsState.afterAll, GraphicsState.afterCommand,
        GraphicsState.bound, pointer, layout]
    · simp [takes, kind, Update.Settled, GraphicsState.afterAll, GraphicsState.afterCommand,
        GraphicsState.bound, bound, layout]
  · simpa [takes, Update.Settled] using ⟨pointer, bytes⟩

theorem same_commands (bound : g.vertexArray = some vertexArray) {c : Cell}
    (other : c ∉ (Update.attributes u).stores vertexArray) :
    c.Same g (g.afterAll (u.commands data)) := by
  simp only [Update.stores, List.mem_cons, List.not_mem_nil, or_false, not_or] at other
  unfold commands
  by_cases takes : u.takes data
  · rw [if_pos takes]
    apply GraphicsState.same_cons (by simp [GraphicsState.writes, Command.deletes?])
    apply GraphicsState.same_cons (by
      simpa [GraphicsState.writes, GraphicsState.afterCommand, GraphicsState.bound] using other.2)
    by_cases kind : data.kind = u.uploaded.kind
    · simpa [kind] using Cell.Same.refl c _
    · rw [if_pos kind]
      apply GraphicsState.same_cons (by
        simpa [GraphicsState.writes, GraphicsState.afterCommand, GraphicsState.bound, bound]
          using other.1)
      exact Cell.Same.refl c _
  · simpa [takes] using Cell.Same.refl c g

/-- Data that fit are what was uploaded last, now or before. -/
theorem next_eq (fits : (checkAttribute u.type .array data).isOk)
    (faithful : data.sameBuffer u.uploaded → data = u.uploaded) :
    u.next data = { u with uploaded := data } := by
  unfold next takes
  by_cases same : data.sameBuffer u.uploaded = true
  · simp [faithful same]
  · simp [same, fits]

theorem frozen_next : (Update.attributes (u.next data)).frozen = (Update.attributes u).frozen := by
  unfold next
  split <;> rfl

theorem mem_uploads_next {a : HostArray} (member : a = (u.next data).uploaded) :
    a = data ∨ a = u.uploaded := by
  unfold next at member
  split at member
  · exact .inl member
  · exact .inr member

end AttributeUpdate

namespace ElementsUpdate

variable {u : ElementsUpdate}

theorem settled_commands (bound : g.vertexArray = some vertexArray)
    (settled : (Update.elements u).Settled vertexArray g indices) :
    (Update.elements (u.next data)).Settled vertexArray (g.afterAll (u.commands data))
      (u.indices? data <|> indices) := by
  obtain ⟨array, bytes, drawn⟩ := settled
  unfold next commands
  cases new : u.indices? data with
  | none => simpa [Update.Settled] using ⟨array, bytes, drawn⟩
  | some buffer =>
    unfold indices? at new
    by_cases same : data.sameBuffer u.uploaded = true
    · simp [same] at new
    · obtain ⟨type, kind, rfl⟩ : ∃ type, IndexType.ofElement? data.kind = some type ∧
          ⟨data.length, type⟩ = buffer := by
        simpa [same] using new
      simp [Update.Settled, GraphicsState.afterAll, GraphicsState.afterCommand,
        GraphicsState.bound, bound, IndexType.ofElement_iff.mp kind]

theorem same_commands (bound : g.vertexArray = some vertexArray) {c : Cell}
    (other : c ∉ (Update.elements u).stores vertexArray) :
    c.Same g (g.afterAll (u.commands data)) := by
  simp only [Update.stores, List.mem_cons, List.not_mem_nil, or_false, not_or] at other
  unfold commands
  by_cases new : (u.indices? data).isSome
  · rw [if_pos new]
    apply GraphicsState.same_cons (by simpa [GraphicsState.writes, bound] using other.1)
    apply GraphicsState.same_cons (by
      simpa [GraphicsState.writes, GraphicsState.afterCommand, GraphicsState.bound] using other.2)
    exact Cell.Same.refl c _
  · simpa [new] using Cell.Same.refl c g

theorem next_eq (fits : (IndexType.ofElement? data.kind).isSome)
    (faithful : data.sameBuffer u.uploaded → data = u.uploaded) :
    u.next data = { u with uploaded := data } := by
  unfold next indices?
  by_cases same : data.sameBuffer u.uploaded = true
  · simp [faithful same]
  · simp [same, fits]

theorem frozen_next : (Update.elements (u.next data)).frozen = (Update.elements u).frozen := by
  unfold next
  split <;> rfl

theorem mem_uploads_next {a : HostArray} (member : a = (u.next data).uploaded) :
    a = data ∨ a = u.uploaded := by
  unfold next at member
  split at member
  · exact .inl member
  · exact .inr member

end ElementsUpdate

namespace SamplerUpdate

variable {u : SamplerUpdate} {surfaces : SurfaceId → Option Handle}

theorem upload_eq : u.upload data =
    if u.uploaded.any (·.sameBuffer data) then []
    else ((pixelImage? u.options data).map fun image =>
      Command.textureImage image (some data.bytes)).toList := by
  unfold upload pixelImage?
  cases textureLayout u.options data <;> rfl

/-- All commands of a run, by what the accessor gives and which textures surfaces have. -/
def commands (u : SamplerUpdate) (surfaces : SurfaceId → Option Handle) (source : TextureSource) :
    List Command :=
  .activeTexture u.unit ::
    match source with
    | .pixels data => .bindTexture (some u.texture) :: (u.upload data ++ [u.unitPush])
    | .surface id => [.bindTexture (some ((surfaces id).getD u.texture)), u.unitPush]

/-- Pixels are remembered, also if they do not fit. -/
def after (u : SamplerUpdate) : TextureSource → SamplerUpdate
  | .pixels data => u.next data
  | .surface _ => u

theorem run_eq : ∃ handles,
    (u.run.run w).1 = { u.after (w.see u.value) with subscribed := handles } ∧
      (u.run.run w).2.host = (u.value.run w.host).2 ∧
      (u.run.run w).2.graphics =
        w.graphics.afterAll (u.commands w.textureOf? (w.see u.value)) := by
  have seen : (w.perform (.activeTexture u.unit)).see u.value = w.see u.value := rfl
  cases current : w.see u.value with
  | pixels data =>
    refine ⟨(u.next data).subscribed, ?_⟩
    rw [run_pixels (seen.trans current)]
    refine ⟨rfl, ?_, ?_⟩
    · simp
    · rw [World.graphics_performAll]
      simp [commands, GraphicsState.afterAll, GraphicsState.after]
  | surface id =>
    obtain ⟨handles, w', run, between⟩ := run_surface (seen.trans current)
    refine ⟨handles, ?_⟩
    rw [run]
    have same : w'.host = (u.value.run w.host).2 ∧ w'.graphics = w.graphics.afterAll
        [.activeTexture u.unit, .bindTexture (some ((w.textureOf? id).getD u.texture))] := by
      rcases between with rfl | ⟨s, _, rfl⟩
      · simp [GraphicsState.afterAll, GraphicsState.after]
      · rw [World.listen_host, World.graphics_of_events World.listen_events]
        simp [GraphicsState.afterAll, GraphicsState.after]
    refine ⟨rfl, same.1, ?_⟩
    rw [World.graphics_emit, same.2]
    rfl

/-- Pushing to a uniform touches no texture and no unit. -/
theorem textures_push {location : Location} {push : UniformPush} :
    (g.afterCommand (.uniform location push)).textures = g.textures ∧
      (g.afterCommand (.uniform location push)).units = g.units := by
  simp only [GraphicsState.afterCommand]
  split <;> exact ⟨rfl, rfl⟩

/-- The own texture is bound before pixels are uploaded, so that they go there. -/
theorem texture_commands (u : SamplerUpdate) (surfaces : SurfaceId → Option Handle)
    (source : TextureSource) (g : GraphicsState) :
    (g.afterAll (u.commands surfaces source)).textures u.texture =
      match source with
      | .pixels data =>
        if u.uploaded.any (·.sameBuffer data) then g.textures u.texture
        else u.options.content data (g.textures u.texture)
      | .surface _ => g.textures u.texture := by
  cases source with
  | surface id =>
    simp [commands, GraphicsState.afterAll, unitPush, textures_push]
    simp [GraphicsState.afterCommand]
  | pixels data =>
    simp only [commands, upload_eq]
    by_cases same : u.uploaded.any (·.sameBuffer data) = true
    · simp [same, GraphicsState.afterAll, unitPush, textures_push]
      simp [GraphicsState.afterCommand]
    · cases image : pixelImage? u.options data with
      | none =>
        simp [same, image, SamplerOptions.content, GraphicsState.afterAll, unitPush, textures_push]
        simp [GraphicsState.afterCommand]
      | some image =>
        simp [same, image, SamplerOptions.content, GraphicsState.afterAll, unitPush, textures_push]
        simp [GraphicsState.afterCommand]

/-- What is remembered is what is stored, if it fits. -/
theorem settled_commands {source : TextureSource} {handles : List Handle}
    (settled : (Update.sampler u).Settled vertexArray g indices) :
    (Update.sampler { u.after source with subscribed := handles }).Settled vertexArray
      (g.afterAll (u.commands surfaces source)) indices := by
  have texture := u.texture_commands surfaces source g
  intro old remembered image fits
  cases source with
  | surface id =>
    simp only at texture
    exact texture.trans (settled old remembered image fits)
  | pixels data =>
    by_cases same : u.uploaded.any (·.sameBuffer data) = true
    · simp only [after, next, same, if_true] at texture remembered fits ⊢
      exact texture.trans (settled old remembered image fits)
    · simp only [after, next, same, Bool.false_eq_true, if_false] at texture remembered fits ⊢
      obtain rfl : data = old := by simpa using remembered
      simpa [fits, SamplerOptions.content] using texture

theorem pushed_commands (u : SamplerUpdate) (surfaces : SurfaceId → Option Handle)
    (source : TextureSource) (used : g.program = some program) :
    (g.afterAll (u.commands surfaces source)).uniforms program u.location =
        some (.integers 1 [u.unit.toInt32]) ∧
      (g.afterAll (u.commands surfaces source)).units u.unit =
        match source with
        | .pixels _ => some u.texture
        | .surface id => some ((surfaces id).getD u.texture) := by
  cases source with
  | surface id =>
    simp [commands, GraphicsState.afterAll, unitPush, GraphicsState.afterCommand, used]
  | pixels data =>
    simp only [commands, upload_eq]
    by_cases same : u.uploaded.any (·.sameBuffer data) = true
    · simp [same, GraphicsState.afterAll, unitPush, GraphicsState.afterCommand, used]
    · cases image : pixelImage? u.options data <;>
        simp [same, GraphicsState.afterAll, unitPush, GraphicsState.afterCommand, used]

theorem same_commands {source : TextureSource} (used : g.program = some program) {c : Cell}
    (other : c ∉ (Update.sampler u).cells program vertexArray) :
    c.Same g (g.afterAll (u.commands surfaces source)) := by
  simp only [Update.cells, Update.stores, Update.pushes, List.cons_append, List.nil_append,
    List.mem_cons, List.not_mem_nil, or_false, not_or] at other
  obtain ⟨texture, unit, uniform⟩ := other
  unfold commands
  apply GraphicsState.same_cons (by simp [GraphicsState.writes, Command.deletes?])
  cases source with
  | surface id =>
    apply GraphicsState.same_cons (by
      simpa [GraphicsState.writes, GraphicsState.afterCommand] using unit)
    apply GraphicsState.same_cons (by
      simpa [unitPush, GraphicsState.writes, GraphicsState.afterCommand, used] using uniform)
    exact Cell.Same.refl c _
  | pixels data =>
    apply GraphicsState.same_cons (by
      simpa [GraphicsState.writes, GraphicsState.afterCommand] using unit)
    rw [upload_eq]
    by_cases same : u.uploaded.any (·.sameBuffer data) = true
    · rw [if_pos same]
      apply GraphicsState.same_cons (by
        simpa [unitPush, GraphicsState.writes, GraphicsState.afterCommand, used] using uniform)
      exact Cell.Same.refl c _
    · rw [if_neg same]
      cases pixelImage? u.options data with
      | none =>
        apply GraphicsState.same_cons (by
          simpa [unitPush, GraphicsState.writes, GraphicsState.afterCommand, used] using uniform)
        exact Cell.Same.refl c _
      | some image =>
        apply GraphicsState.same_cons (by
          simpa [GraphicsState.writes, GraphicsState.afterCommand] using texture)
        apply GraphicsState.same_cons (by
          simpa [unitPush, GraphicsState.writes, GraphicsState.afterCommand, used] using uniform)
        exact Cell.Same.refl c _

/-- The pixels of a run are what was uploaded last, now or before. -/
theorem next_eq (faithful : ∀ old ∈ u.uploaded, data.sameBuffer old → data = old) :
    u.next data = { u with uploaded := some data } := by
  unfold next
  cases found : u.uploaded with
  | none => simp
  | some old =>
    by_cases same : old.sameBuffer data = true
    · have shared : data.sameBuffer old = true := by
        simp only [HostArray.sameBuffer, decide_eq_true_eq] at same ⊢
        exact same.symm
      rw [faithful old found shared]
      simp [HostArray.sameBuffer, ← found]
    · simp [same]

theorem frozen_after {source : TextureSource} {handles : List Handle} :
    (Update.sampler { u.after source with subscribed := handles }).frozen =
      (Update.sampler u).frozen := by
  cases source with
  | surface id => rfl
  | pixels data =>
    unfold after next
    simp only
    split <;> rfl

end SamplerUpdate
theorem isOk_checkAttribute_elements {type : DataType} :
    (checkAttribute type .elementArray data).isOk = (IndexType.ofElement? data.kind).isSome := by
  unfold checkAttribute
  cases IndexType.ofElement? data.kind <;> rfl

theorem dataType_of_checkUniform {declared found : DataType}
    (fits : (checkUniform declared found).isOk) : found = declared := by
  unfold checkUniform at fits
  by_contra other
  simp [other, Except.isOk, Except.toBool] at fits

namespace Update

variable {u : Update} {t : Token}

theorem frozen_ran : (u.ran indices w).1.1.frozen = u.frozen := by
  cases u with
  | attributes u =>
    rw [ran_attributes, AttributeUpdate.run_eq]
    exact AttributeUpdate.frozen_next
  | elements u =>
    rw [ran_elements, ElementsUpdate.run_eq]
    exact ElementsUpdate.frozen_next
  | uniform u => rfl
  | sampler u =>
    obtain ⟨handles, after, _⟩ := SamplerUpdate.run_eq (u := u) (w := w)
    rw [ran_sampler, after]
    exact SamplerUpdate.frozen_after

/-- The indices in use change with the slot of the elements only. -/
theorem indices_ran (other : u.slot ≠ .elements) : (u.ran indices w).1.2 = indices := by
  cases u with
  | elements u => exact absurd rfl other
  | _ => rfl

/-- The host after an update has asked its accessor. -/
def asked (host : Host) : Update → Host
  | attributes u => (u.value.run host).2
  | elements u => (u.value.run host).2
  | uniform u => (u.value.run host).2
  | sampler u => (u.value.run host).2

theorem asked_of_carries {host : Host} (carries : u.Carries t) : u.asked host = t.after host := by
  cases u with
  | attributes u =>
    obtain ⟨a, kind, _, _, value⟩ := carries
    simp [asked, Token.after, kind, value]
  | elements u =>
    obtain ⟨a, kind, _, value⟩ := carries
    simp [asked, Token.after, kind, value]
  | uniform u =>
    obtain ⟨k, kind, _, value⟩ := carries
    simp [asked, Token.after, kind, value]
  | sampler u =>
    obtain ⟨k, kind, _, value⟩ := carries
    simp [asked, Token.after, kind, value]

/-- An update asks its accessor once. -/
theorem host_ran : (u.ran indices w).2.host = u.asked w.host := by
  cases u with
  | attributes u =>
    rw [ran_attributes, AttributeUpdate.run_eq]
    exact World.performAll_host
  | elements u =>
    rw [ran_elements, ElementsUpdate.run_eq]
    exact World.performAll_host
  | uniform u =>
    rw [ran_uniform, UniformUpdate.run_eq]
    exact World.performAll_host
  | sampler u =>
    obtain ⟨handles, _, host, _⟩ := SamplerUpdate.run_eq (u := u) (w := w)
    rw [ran_sampler, host]
    rfl

/-- What is uploaded last was so before or was just read. -/
theorem uploads_ran (carries : u.Carries t) :
    ∀ a ∈ (u.ran indices w).1.1.uploads, a ∈ t.arrays w.host ++ u.uploads := by
  intro a member
  cases u with
  | attributes u =>
    obtain ⟨k, kind, _, _, value⟩ := carries
    rw [ran_attributes, AttributeUpdate.run_eq] at member
    rcases AttributeUpdate.mem_uploads_next (List.mem_singleton.mp member) with rfl | rfl
    · simp [Token.arrays, kind, World.see, value]
    · simp [uploads]
  | elements u =>
    obtain ⟨k, kind, _, value⟩ := carries
    rw [ran_elements, ElementsUpdate.run_eq] at member
    rcases ElementsUpdate.mem_uploads_next (List.mem_singleton.mp member) with rfl | rfl
    · simp [Token.arrays, kind, World.see, value]
    · simp [uploads]
  | uniform u => simp [ran_uniform, uploads] at member
  | sampler u =>
    obtain ⟨k, kind, _, value⟩ := carries
    obtain ⟨handles, after, _⟩ := SamplerUpdate.run_eq (u := u) (w := w)
    rw [ran_sampler, after] at member
    simp only [Token.arrays, kind, ← value]
    change a ∈ (match w.see u.value with
      | .pixels data => [data]
      | .surface _ => []) ++ u.uploaded.toList
    cases current : w.see u.value with
    | surface id =>
      rw [current] at member
      exact member
    | pixels data =>
      rw [current] at member
      simp only [uploads, SamplerUpdate.after, SamplerUpdate.next] at member
      by_cases same : u.uploaded.any (·.sameBuffer data) = true
      · rw [if_pos same] at member
        exact List.mem_append_right _ member
      · rw [if_neg same] at member
        exact List.mem_append_left _ member

theorem settled_ran (bound : w.graphics.vertexArray = some vertexArray)
    (settled : u.Settled vertexArray w.graphics indices) :
    (u.ran indices w).1.1.Settled vertexArray (u.ran indices w).2.graphics
      (u.ran indices w).1.2 := by
  cases u with
  | attributes u =>
    rw [ran_attributes, AttributeUpdate.run_eq, World.graphics_performAll]
    exact AttributeUpdate.settled_commands bound settled
  | elements u =>
    rw [ran_elements, ElementsUpdate.run_eq, World.graphics_performAll]
    exact ElementsUpdate.settled_commands bound settled
  | uniform u => trivial
  | sampler u =>
    obtain ⟨handles, after, _, graphics⟩ := SamplerUpdate.run_eq (u := u) (w := w)
    rw [ran_sampler, after, graphics]
    exact SamplerUpdate.settled_commands settled

/-- A run writes to the update's own cells only. -/
theorem same_ran (bound : w.graphics.vertexArray = some vertexArray)
    (used : w.graphics.program = some program) {c : Cell} (other : c ∉ u.cells program vertexArray) :
    c.Same w.graphics (u.ran indices w).2.graphics := by
  cases u with
  | attributes u =>
    rw [ran_attributes, AttributeUpdate.run_eq, World.graphics_performAll]
    exact AttributeUpdate.same_commands bound fun stored => other (List.mem_append_left _ stored)
  | elements u =>
    rw [ran_elements, ElementsUpdate.run_eq, World.graphics_performAll]
    exact ElementsUpdate.same_commands bound fun stored => other (List.mem_append_left _ stored)
  | uniform u =>
    rw [ran_uniform, UniformUpdate.run_eq, World.graphics_performAll]
    unfold UniformUpdate.commands
    cases u.setter.push? (w.see u.value) with
    | none => exact Cell.Same.refl c _
    | some push =>
      apply GraphicsState.same_cons (by
        simpa [GraphicsState.writes, used, cells, stores, pushes] using other)
      exact Cell.Same.refl c _
  | sampler u =>
    obtain ⟨handles, after, _, graphics⟩ := SamplerUpdate.run_eq (u := u) (w := w)
    rw [ran_sampler, graphics]
    exact SamplerUpdate.same_commands used other

/-- An array that is there is shown if it is what the accessor gives. -/
theorem Settled.shown_attributes {u : AttributeUpdate}
    (settled : (attributes u).Settled vertexArray g indices)
    (current : u.uploaded.contents = (u.value.run m.host).1.contents) :
    (attributes u).Shown m program vertexArray g indices := by
  obtain ⟨pointer, bytes⟩ := settled
  refine ⟨?_, ?_⟩
  · rw [pointer]
    simp [AttributeUpdate.layout, (ArrayContents.mk.inj current).1]
  · rw [bytes]
    exact HostArray.bytes_of_contents current

theorem Settled.shown_elements {u : ElementsUpdate}
    (settled : (elements u).Settled vertexArray g indices)
    (current : u.uploaded.contents = (u.value.run m.host).1.contents) :
    (elements u).Shown m program vertexArray g indices := by
  obtain ⟨array, bytes, type, found, drawn⟩ := settled
  obtain ⟨sameKind, sameWords⟩ := ArrayContents.mk.inj current
  refine ⟨array, ?_, type, ?_, ?_⟩
  · rw [bytes]
    exact HostArray.bytes_of_contents current
  · rw [← sameKind]
    exact found
  · rw [drawn]
    simp [HostArray.length, sameWords]

/-- So are pixels, if they fit and their texture is bound to the unit that the uniform names. -/
theorem Settled.shown_pixels {u : SamplerUpdate} {data data' : HostArray}
    (settled : (sampler u).Settled vertexArray g indices) (uploaded : u.uploaded = some data)
    (fits : (textureLayout u.options data).isOk) (given : (u.value.run m.host).1 = .pixels data')
    (current : data.contents = data'.contents)
    (uniform : g.uniforms program u.location = some (.integers 1 [u.unit.toInt32]))
    (unit : g.units u.unit = some u.texture) :
    (sampler u).Shown m program vertexArray g indices := by
  obtain ⟨image, found⟩ := exists_pixelImage fits
  refine ⟨uniform, ?_⟩
  rw [given]
  refine ⟨unit, image, ?_, ?_⟩
  · rw [← pixelImage?_of_contents current]
    exact found
  · rw [← HostArray.bytes_of_contents current]
    exact settled data uploaded image found

/-- In a calm moment everything that the update brings is shown after its run. -/
theorem shown_ran {seen : List HostArray} (calm : m.Calm) (reaches : m.Reaches seen w.host)
    (member : t ∈ m.tokens) (carries : u.Carries t) (uploaded : ∀ a ∈ u.uploads, a ∈ seen)
    (surfaces : w.textureOf? = m.surfaces) (bound : w.graphics.vertexArray = some vertexArray)
    (used : w.graphics.program = some program)
    (settled : u.Settled vertexArray w.graphics indices) :
    (u.ran indices w).1.1.Shown m program vertexArray (u.ran indices w).2.graphics
      (u.ran indices w).1.2 := by
  have fits := calm.fits seen w.host reaches t member
  have stable := calm.stable seen w.host reaches t member
  have faithful := calm.faithful seen w.host reaches t member
  have after := settled_ran bound settled
  cases u with
  | attributes u =>
    obtain ⟨a, kind, array, type, value⟩ := carries
    simp only [Token.Fits, Token.reading, Token.arrays, kind, array, List.mem_singleton,
      forall_eq, Reading.array.injEq, ← value, ← type] at fits stable faithful
    have next := AttributeUpdate.next_eq fits
      (faithful u.uploaded (uploaded _ (List.mem_singleton_self _)))
    rw [ran_attributes, AttributeUpdate.run_eq] at after ⊢
    simp only [World.see, next] at after ⊢
    exact after.shown_attributes stable
  | elements u =>
    obtain ⟨a, kind, elements, value⟩ := carries
    simp only [Token.Fits, Token.reading, Token.arrays, kind, elements, List.mem_singleton,
      forall_eq, Reading.array.injEq, ← value] at fits stable faithful
    rw [isOk_checkAttribute_elements] at fits
    have next := ElementsUpdate.next_eq fits
      (faithful u.uploaded (uploaded _ (List.mem_singleton_self _)))
    rw [ran_elements, ElementsUpdate.run_eq] at after ⊢
    simp only [World.see, next] at after ⊢
    exact after.shown_elements stable
  | uniform u =>
    obtain ⟨k, kind, setter, value⟩ := carries
    simp only [Token.Fits, Token.reading, kind, Reading.value.injEq, ← value] at fits stable
    have push : u.setter.push? (w.see u.value) = some (w.see u.value).pushed := by
      rw [setter, ← dataType_of_checkUniform fits]
      exact UniformValue.push?_forType _
    rw [ran_uniform, UniformUpdate.run_eq]
    simp only [UniformUpdate.commands, push, Option.map_some, Option.toList_some]
    rw [World.graphics_performAll]
    simp [Shown, GraphicsState.afterCommand, used, World.see, stable]
  | sampler u =>
    obtain ⟨k, kind, options, value⟩ := carries
    simp only [Token.Fits, Token.reading, Token.arrays, kind, ← value, ← options]
      at fits stable faithful
    obtain ⟨handles, run, _, graphics⟩ := SamplerUpdate.run_eq (u := u) (w := w)
    rw [ran_sampler, run, graphics, surfaces] at after ⊢
    obtain ⟨uniform, unit⟩ := u.pushed_commands m.surfaces (w.see u.value) used
    have now : (u.value.run w.host).1 = w.see u.value := rfl
    rw [now] at fits stable faithful
    cases current : w.see u.value with
    | surface id =>
      simp only [current] at stable unit uniform ⊢
      refine ⟨uniform, ?_⟩
      cases here : (u.value.run m.host).1 with
      | pixels data => simp [here] at stable
      | surface id' =>
        simp only [here, Reading.surface.injEq] at stable
        simpa [here, SamplerUpdate.after, ← stable] using unit
    | pixels data =>
      simp only [current] at fits stable faithful unit uniform after ⊢
      have next : u.next data = { u with uploaded := some data } :=
        SamplerUpdate.next_eq fun old found =>
          faithful data (List.mem_singleton_self _) old (uploaded old (by simpa [uploads] using found))
      simp only [SamplerUpdate.after, next] at after ⊢
      cases here : (u.value.run m.host).1 with
      | surface id => simp [here] at stable
      | pixels data' =>
        simp only [here, Reading.array.injEq] at stable
        exact after.shown_pixels rfl fits here stable uniform unit

end Update
end Runs
end ShaderStack

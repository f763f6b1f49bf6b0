import ShaderStack.Proofs.Extension

/-! The commands of each update, as functions of the value that its accessor gives. -/
namespace ShaderStack

variable {δ : Type} [GraphicsDevice δ] {w : World δ}

namespace AttributeUpdate

/-- Other data than were uploaded last, in the shape that the type asks for. -/
def takes (u : AttributeUpdate) (data : HostArray) : Bool :=
  !data.sameBuffer u.uploaded && (checkAttribute u.type .array data).isOk

def next (u : AttributeUpdate) (data : HostArray) : AttributeUpdate :=
  if u.takes data then { u with uploaded := data } else u

def commands (u : AttributeUpdate) (data : HostArray) : List Command :=
  if u.takes data then
    [.bindBuffer .array (some u.buffer), .bufferData .array data.bytes] ++
      if data.kind ≠ u.uploaded.kind then [.vertexPointer u.location (u.layout data)] else []
  else []

theorem run_eq {u : AttributeUpdate} :
    (u.run : Engine δ AttributeUpdate).run w =
      (u.next (w.see u.value), (w.looked u.value).performAll (u.commands (w.see u.value))) := by
  unfold AttributeUpdate.run next commands takes
  simp only [Engine.run_bind, Engine.run_readHost]
  by_cases same : (w.see u.value).sameBuffer u.uploaded = true
  · simp only [same, if_true]
    rfl
  · simp only [same]
    cases checkAttribute u.type .array (w.see u.value) with
    | error e => rfl
    | ok fit =>
      by_cases kind : (w.see u.value).kind = u.uploaded.kind
      · simp only [kind, ne_eq, not_true_eq_false, if_false]
        rfl
      · simp only [kind, ne_eq, not_false_eq_true, if_true]
        rfl

end AttributeUpdate

namespace IndexType

/-- The elements that indices can have, each with the type that a draw reads them by. -/
inductive Reads : IndexType → ElementKind → Prop
  | u8 : Reads .u8 .u8
  | u16 : Reads .u16 .u16
  | u32 : Reads .u32 .u32

theorem ofElement_iff {kind : ElementKind} {type : IndexType} :
    ofElement? kind = some type ↔ type.Reads kind := by
  constructor
  · intro found
    cases kind <;> cases found <;> constructor
  · rintro (_ | _ | _) <;> rfl

theorem isSome_ofElement {kind : ElementKind} :
    (ofElement? kind).isSome = decide (kind ∈ [ElementKind.u8, .u16, .u32]) := by
  cases kind <;> rfl

end IndexType

namespace ElementsUpdate

/-- The indices that the update would upload. -/
def indices? (u : ElementsUpdate) (data : HostArray) : Option IndexBuffer :=
  if data.sameBuffer u.uploaded then none
  else (IndexType.ofElement? data.kind).map fun type => ⟨data.length, type⟩

def next (u : ElementsUpdate) (data : HostArray) : ElementsUpdate :=
  if (u.indices? data).isSome then { u with uploaded := data } else u

def commands (u : ElementsUpdate) (data : HostArray) : List Command :=
  if (u.indices? data).isSome then
    [.bindBuffer .elementArray (some u.buffer), .bufferData .elementArray data.bytes]
  else []

theorem run_eq {u : ElementsUpdate} :
    (u.run : Engine δ (ElementsUpdate × Option IndexBuffer)).run w =
      ((u.next (w.see u.value), u.indices? (w.see u.value)),
        (w.looked u.value).performAll (u.commands (w.see u.value))) := by
  unfold ElementsUpdate.run next commands indices?
  simp only [Engine.run_bind, Engine.run_readHost]
  by_cases same : (w.see u.value).sameBuffer u.uploaded = true
  · simp only [same, if_true]
    rfl
  · simp only [same]
    cases IndexType.ofElement? (w.see u.value).kind <;> rfl

end ElementsUpdate

namespace UniformUpdate

def commands (u : UniformUpdate) (value : UniformValue) : List Command :=
  ((u.setter.push? value).map (Command.uniform u.location)).toList

theorem run_eq {u : UniformUpdate} :
    (u.run : Engine δ Unit).run w =
      ((), (w.looked u.value).performAll (u.commands (w.see u.value))) := by
  unfold UniformUpdate.run commands
  simp only [Engine.run_bind, Engine.run_readHost]
  cases u.setter.push? (w.see u.value) <;> rfl

end UniformUpdate

namespace SamplerUpdate

/-- The upload of pixels, unless they were uploaded last or do not fit. -/
def upload (u : SamplerUpdate) (data : HostArray) : List Command :=
  if u.uploaded.any (·.sameBuffer data) then []
  else
    match textureLayout u.options data with
    | .error _ => []
    | .ok layout => (layout.image?.map fun image => .textureImage image (some data.bytes)).toList

def next (u : SamplerUpdate) (data : HostArray) : SamplerUpdate :=
  if u.uploaded.any (·.sameBuffer data) then u else { u with uploaded := some data }

/-- The location gets the number of the unit. -/
def unitPush (u : SamplerUpdate) : Command :=
  .uniform u.location (.integers 1 [u.unit.toInt32])

theorem run_uploadPixels {options : SamplerOptions} {data : HostArray} :
    (Engine.uploadPixels options data : Engine δ Unit).run w =
      ((), w.performAll
        (match textureLayout options data with
        | .error _ => []
        | .ok layout =>
          (layout.image?.map fun image => .textureImage image (some data.bytes)).toList)) := by
  unfold Engine.uploadPixels
  cases textureLayout options data with
  | error e => rfl
  | ok layout =>
    simp only
    cases layout.image? <;> rfl

theorem run_pixels {u : SamplerUpdate} {data : HostArray}
    (current : (w.perform (.activeTexture u.unit)).see u.value = .pixels data) :
    (u.run : Engine δ SamplerUpdate).run w =
      (u.next data, ((w.perform (.activeTexture u.unit)).looked u.value).performAll
        (.bindTexture (some u.texture) :: (u.upload data ++ [u.unitPush]))) := by
  unfold SamplerUpdate.run
  simp only [Engine.run_bind, Engine.run_command, Engine.run_readHost, current]
  unfold next upload
  cases u.uploaded.any (·.sameBuffer data) with
  | true => rfl
  | false =>
    simp only [Bool.false_eq_true, if_false, Engine.run_bind, run_uploadPixels,
      World.performAll_cons, World.performAll_append]
    rfl

omit [GraphicsDevice δ] in
/-- Subscribing adds at most one listener, under the texture that the surface has. -/
theorem run_subscribe (redraw : RedrawKey) (id : SurfaceId) (subscribed : List Handle)
    (w : World δ) :
    ∃ handles, (Engine.subscribe redraw id subscribed : Engine δ (List Handle)).run w =
        (handles, w) ∨
      ∃ s, w.textureOf? id = some s.source ∧
        (Engine.subscribe redraw id subscribed : Engine δ (List Handle)).run w =
          (handles, w.listen id s) := by
  unfold Engine.subscribe
  simp only [Engine.run_bind, Engine.run_get]
  cases w.textureOf? id with
  | none => exact ⟨subscribed, .inl rfl⟩
  | some source =>
    by_cases old : source ∈ subscribed
    · simp only [old, if_true]
      exact ⟨subscribed, .inl rfl⟩
    · simp only [old, if_false]
      exact ⟨source :: subscribed, .inr ⟨⟨redraw, source⟩, rfl, rfl⟩⟩

/-- A surface without a texture leaves the sampler's own texture bound. -/
theorem run_surface {u : SamplerUpdate} {id : SurfaceId}
    (current : (w.perform (.activeTexture u.unit)).see u.value = .surface id) :
    ∃ handles w',
      (u.run : Engine δ SamplerUpdate).run w =
        ({ u with subscribed := handles }, w'.perform u.unitPush) ∧
      (w' = ((w.perform (.activeTexture u.unit)).looked u.value).perform
          (.bindTexture (some ((w.textureOf? id).getD u.texture))) ∨
        ∃ s, w.textureOf? id = some s.source ∧
          w' = (((w.perform (.activeTexture u.unit)).looked u.value).perform
            (.bindTexture (some ((w.textureOf? id).getD u.texture)))).listen id s) := by
  have texture : ((w.perform (.activeTexture u.unit)).looked u.value).textureOf? id =
      w.textureOf? id := by
    cases id <;> rfl
  obtain ⟨handles, same | ⟨s, source, added⟩⟩ := run_subscribe u.redraw id u.subscribed
    (((w.perform (.activeTexture u.unit)).looked u.value).perform
      (.bindTexture (some ((w.textureOf? id).getD u.texture))))
  · refine ⟨handles, _, ?_, .inl rfl⟩
    unfold SamplerUpdate.run
    simp only [Engine.run_bind, Engine.run_command, Engine.run_readHost, current, Engine.run_get,
      texture, same]
    rfl
  · refine ⟨handles, _, ?_, .inr ⟨s, texture.symm.trans source, rfl⟩⟩
    unfold SamplerUpdate.run
    simp only [Engine.run_bind, Engine.run_command, Engine.run_readHost, current, Engine.run_get,
      texture, added]
    rfl

end SamplerUpdate

namespace Update

/-- An update, the indices in use and the world after one run. -/
abbrev ran (u : Update) (indices : Option IndexBuffer) (w : World δ) :
    (Update × Option IndexBuffer) × World δ :=
  StateT.run (StateT.run (run u) indices) w

variable {indices : Option IndexBuffer}

theorem ran_attributes {u : AttributeUpdate} :
    ran (.attributes u) indices w =
      ((.attributes (u.run.run w).1, indices), (u.run.run w).2) := rfl

theorem ran_elements {u : ElementsUpdate} :
    ran (.elements u) indices w =
      ((.elements (u.run.run w).1.1, (u.run.run w).1.2 <|> indices), (u.run.run w).2) := by
  rcases answer : StateT.run u.run w with ⟨⟨u', _ | new⟩, w'⟩
  all_goals
    change u.run w = _ at answer
    simp only [ran, run, StateT.run, bind, StateT.bind, liftM, monadLift, MonadLift.monadLift,
      StateT.lift, answer]
    rfl

theorem ran_uniform {u : UniformUpdate} :
    ran (.uniform u) indices w = ((.uniform u, indices), (u.run.run w).2) := rfl

theorem ran_sampler {u : SamplerUpdate} :
    ran (.sampler u) indices w = ((.sampler (u.run.run w).1, indices), (u.run.run w).2) := rfl

end Update

/-- Entries, the indices in use and the world after all updates of a queue. -/
abbrev UpdateQueue.ran (entries : List (BindingSlot × Update)) (indices : Option IndexBuffer)
    (w : World δ) : (List (BindingSlot × Update) × Option IndexBuffer) × World δ :=
  StateT.run (StateT.run (UpdateQueue.flushEntries Update.run entries) indices) w

theorem UpdateQueue.ran_nil {indices : Option IndexBuffer} :
    UpdateQueue.ran [] indices w = (([], indices), w) := rfl

theorem UpdateQueue.ran_cons {slot : BindingSlot} {u : Update}
    {rest : List (BindingSlot × Update)} {indices : Option IndexBuffer} :
    UpdateQueue.ran ((slot, u) :: rest) indices w =
      (((slot, (u.ran indices w).1.1) ::
          (UpdateQueue.ran rest (u.ran indices w).1.2 (u.ran indices w).2).1.1,
        (UpdateQueue.ran rest (u.ran indices w).1.2 (u.ran indices w).2).1.2),
        (UpdateQueue.ran rest (u.ran indices w).1.2 (u.ran indices w).2).2) := rfl

theorem Bindings.run_flush {b : Bindings} :
    (b.flush : Engine δ Bindings).run w =
      ({ b with
          queue := ⟨(UpdateQueue.ran b.queue.entries b.elements w).1.1⟩
          elements := (UpdateQueue.ran b.queue.entries b.elements w).1.2 },
        (UpdateQueue.ran b.queue.entries b.elements w).2) := rfl

end ShaderStack

import ShaderStack.Proofs.Computing
import ShaderStack.Proofs.Deliveries

/-! Uploads as long as their textures.

A device reads as many bytes as the texels of an image take, however many it is given. A layout is accepted
exactly if the data make up whole texels and those fill its rows, so that each upload of pixels has the
length of its image. -/
namespace ShaderStack

open World (Emits)

/-- Bytes that a device reads for a whole image. -/
def TextureImage.byteCount (image : TextureImage) : Nat :=
  image.width.toNat * image.height.toNat * image.format.components * image.pixelType.byteSize

/-- An image has the format of its layout, and components as large as the elements. -/
theorem TextureLayout.byteSize_of_image {layout : TextureLayout} {image : TextureImage}
    (found : layout.image? = some image) :
    image.format = layout.format ∧ image.pixelType.byteSize = layout.element.byteSize := by
  obtain ⟨⟨internal, pixelType⟩, stored, made⟩ := Option.bind_eq_some_iff.mp found
  rw [← Option.some.inj made]
  refine ⟨rfl, ?_⟩
  revert stored
  cases layout.element <;> cases layout.format <;> simp [storage?] <;> rintro - rfl <;> rfl

namespace SamplerOptions

variable {o : SamplerOptions} {data : HostArray} {layout : TextureLayout} {texels : Nat}

/-- An omitted height is one row. -/
def rows (o : SamplerOptions) : UInt32 := o.height.getD 1

/-- An omitted width is the number of texels for each row, cut to a word. -/
def columns (o : SamplerOptions) (texels : Nat) : UInt32 :=
  o.width.getD (if o.rows = 0 then 0 else UInt32.ofNat (texels / o.rows.toNat))

/-- The texels fill the rows. With an omitted width they do so if they split into rows whose length a word
holds, or if there is neither a row nor a texel. -/
def Filled (o : SamplerOptions) (texels : Nat) : Prop :=
  match o.width with
  | some width => width.toNat * o.rows.toNat = texels
  | none => (0 < o.rows.toNat ∧ o.rows.toNat ∣ texels ∧ texels / o.rows.toNat < UInt32.size) ∨
      (o.rows.toNat = 0 ∧ texels = 0)

/-- A quotient that is cut to a word makes up its dividend exactly if it is whole and the word holds it. -/
theorem ofNat_div_mul_iff {rows : Nat} (some : 0 < rows) :
    (UInt32.ofNat (texels / rows)).toNat * rows = texels ↔
      rows ∣ texels ∧ texels / rows < UInt32.size := by
  constructor
  · intro filled
    have whole : rows ∣ texels := ⟨_, by rw [Nat.mul_comm]; exact filled.symm⟩
    have quotient : (UInt32.ofNat (texels / rows)).toNat = texels / rows :=
      (Nat.div_eq_of_eq_mul_left some filled.symm).symm
    exact ⟨whole, quotient ▸ UInt32.toNat_lt_size _⟩
  · rintro ⟨whole, small⟩
    rw [UInt32.toNat_ofNat_of_lt' small]
    exact Nat.div_mul_cancel whole

theorem columns_mul_rows_iff :
    (o.columns texels).toNat * o.rows.toNat = texels ↔ o.Filled texels := by
  unfold columns Filled
  cases o.width with
  | some width => rfl
  | none =>
    rw [Option.getD_none]
    by_cases flat : o.rows = 0
    · simp [flat, eq_comm]
    · have tall : 0 < o.rows.toNat := UInt32.pos_iff_ne_zero.mpr flat
      rw [if_neg flat, ofNat_div_mul_iff tall]
      simp [tall, tall.ne']

instance : Decidable (o.Filled texels) := decidable_of_iff _ columns_mul_rows_iff

/-- When a layout is accepted, and which one it is. -/
theorem textureLayout_eq_ok_iff : textureLayout o data = .ok layout ↔
    ((data.kind = .u8 ∨ data.kind = .f32 ∧ o.format ≠ .luminance) ∧
      o.format.components ∣ data.length ∧ o.Filled (data.length / o.format.components)) ∧
    layout = ⟨o.columns (data.length / o.format.components), o.rows, o.format, data.kind⟩ := by
  rw [← columns_mul_rows_iff, Nat.dvd_iff_mod_eq_zero]
  unfold textureLayout
  change (if _ then _ else if _ then _ else if _ then _ else
    if (o.columns (data.length / o.format.components)).toNat * o.rows.toNat ≠ _ then _ else
      Except.ok (TextureLayout.mk (o.columns (data.length / o.format.components)) o.rows _ _)) = _ ↔ _
  split
  next other => exact iff_of_false nofun fun ⟨⟨kind, _⟩, _⟩ => by grind
  next known =>
    split
    next gray => exact iff_of_false nofun fun ⟨⟨kind, _⟩, _⟩ => by grind
    next coloured =>
      have kind : data.kind = .u8 ∨ data.kind = .f32 ∧ o.format ≠ .luminance := by grind
      split
      next ragged => exact iff_of_false nofun fun ⟨⟨_, whole, _⟩, _⟩ => ragged whole
      next whole =>
        split
        next unfit => exact iff_of_false nofun fun ⟨⟨_, _, filled⟩, _⟩ => unfit filled
        next filled =>
          rw [and_iff_right ⟨kind, not_not.mp whole, not_not.mp filled⟩, Except.ok.injEq]
          exact eq_comm

theorem isOk_textureLayout_iff : (textureLayout o data).isOk ↔
    (data.kind = .u8 ∨ data.kind = .f32 ∧ o.format ≠ .luminance) ∧
      o.format.components ∣ data.length ∧ o.Filled (data.length / o.format.components) := by
  have accepted : (textureLayout o data).isOk ↔ ∃ layout, textureLayout o data = .ok layout := by
    cases textureLayout o data <;> simp [Except.isOk, Except.toBool]
  simp only [accepted, textureLayout_eq_ok_iff, exists_and_left, exists_eq, and_true]

/-- No texels fill no rows. -/
example : textureLayout { height := some 0 } ⟨1, .u8, []⟩ = .ok ⟨0, 0, .rgba, .u8⟩ := by decide

/-- An accepted layout has an image, whose texels take exactly the bytes of the data. -/
theorem image_of_textureLayout (accepted : textureLayout o data = .ok layout) : ∃ image,
    layout.image? = some image ∧ image.width = layout.width ∧ image.height = layout.height ∧
      image.format = layout.format ∧ image.byteCount = data.bytes.length := by
  obtain ⟨image, found⟩ := exists_pixelImage (by rw [accepted]; rfl : (textureLayout o data).isOk)
  unfold pixelImage? at found
  rw [accepted] at found
  obtain ⟨width, height⟩ := TextureLayout.size_of_image found
  obtain ⟨format, size⟩ := TextureLayout.byteSize_of_image found
  refine ⟨image, found, width, height, format, ?_⟩
  obtain ⟨⟨_, whole, filled⟩, rfl⟩ := textureLayout_eq_ok_iff.mp accepted
  rw [← columns_mul_rows_iff] at filled
  calc image.byteCount
      = (o.columns (data.length / o.format.components)).toNat * o.rows.toNat * o.format.components *
          data.kind.byteSize := by rw [TextureImage.byteCount, width, height, format, size]
    _ = data.length * data.kind.byteSize := by rw [filled, Nat.div_mul_cancel whole]
    _ = data.bytes.length := by rw [HostArray.length_bytes, Nat.mul_comm]

end SamplerOptions

/-- Pixels that are uploaded have as many bytes as the device reads. -/
def Event.Covers (e : Event) : Prop :=
  ∀ image pixels, e = .command (.textureImage image (some pixels)) → pixels.length = image.byteCount

variable {δ : Type} {w w' : World δ}

theorem Event.eq_command_of_upload? {e : Event} {c : Command} (sent : e.upload? = some c) : e = .command c := by
  cases e with
  | command d =>
    have same : d = c := by
      unfold upload? at sent
      split at sent <;> simp_all
    rw [same]
  | _ => exact nomatch sent

theorem Event.covers_of_isFilling {e : Event} (none : e.isFilling = false) : e.Covers := by
  rintro image pixels rfl
  exact nomatch none

/-- Arrays go to buffers. -/
theorem ArrayBinding.image_not_mem_commands {b : ArrayBinding} {last data : HostArray} {image : TextureImage}
    {pixels : Option (List UInt8)} : .textureImage image pixels ∉ b.commands last data := by
  unfold commands
  split
  · split <;> simp
  · exact List.not_mem_nil

theorem TextureBinding.covers_of_mem_upload {b : TextureBinding} {source : TextureSource} {c : Command}
    (member : c ∈ b.upload source) : (Event.command c).Covers := by
  cases source with
  | surface id => exact absurd member List.not_mem_nil
  | pixels data =>
    obtain ⟨image, found, rfl⟩ := Option.map_eq_some_iff.mp (Option.mem_toList.mp member)
    obtain ⟨layout, accepted, stored⟩ := Option.bind_eq_some_iff.mp found
    have accepted : textureLayout b.options data = .ok layout := by
      cases answer : textureLayout b.options data <;> simp_all [Except.toOption]
    obtain ⟨image', stored', -, -, -, size⟩ := SamplerOptions.image_of_textureLayout accepted
    obtain rfl : image' = image := Option.some.inj (stored'.symm.trans stored)
    rintro _ _ ⟨⟩
    exact size.symm

theorem Update.covers_of_mem_commands {u : Update} {c : Command} (sent : c ∈ u.commands w) :
    (Event.command c).Covers := by
  cases u with
  | sampler u =>
    rw [commands, SamplerUpdate.commands_eq, TextureBinding.commands] at sent
    simp only [List.mem_append, List.mem_cons, List.not_mem_nil, or_false, List.mem_ite_nil_right] at sent
    rcases sent with ((rfl | rfl) | ⟨-, member⟩) | rfl
    · exact Event.covers_of_isFilling rfl
    · exact Event.covers_of_isFilling rfl
    · exact TextureBinding.covers_of_mem_upload member
    · exact Event.covers_of_isFilling rfl
  | attributes u =>
    rintro image pixels ⟨⟩
    rw [commands, AttributeUpdate.commands_eq] at sent
    exact absurd sent ArrayBinding.image_not_mem_commands
  | elements u =>
    rintro image pixels ⟨⟩
    rw [commands, ElementsUpdate.commands_eq] at sent
    exact absurd sent ArrayBinding.image_not_mem_commands
  | uniform u =>
    rintro image pixels ⟨⟩
    simp [commands, UniformUpdate.commands] at sent

namespace World

theorem Sends.covers {cs : List Command} (sends : Sends cs w w') (all : ∀ c ∈ cs, (Event.command c).Covers) :
    Emits Event.Covers w w' := by
  obtain ⟨es, split, rfl⟩ := sends
  refine ⟨es, split, ?_⟩
  rintro _ member image pixels rfl
  exact all _ (List.mem_filterMap.mpr ⟨_, member, rfl⟩) image pixels rfl

end World

variable [GraphicsDevice δ]

namespace Session

variable {s : Session δ}

theorem covers_perform (step : SessionStep) : Emits Event.Covers s.world (s.perform step).world := by
  by_cases compiles : ∃ i vertex fragment config, step = .compile i vertex fragment config
  · obtain ⟨i, vertex, fragment, config, rfl⟩ := compiles
    refine world_compile (Emits Event.Covers s.world) (Emits.refl _) fun _ _ => ?_
    exact ProgramCache.equips_compile.events.mono fun _ equipping => Event.covers_of_isFilling
      (Event.isFilling_of_isEquipping equipping)
  · have sends := sends_perform (s := s) step fun i vertex fragment config same =>
      compiles ⟨i, vertex, fragment, config, same⟩
    refine sends.covers fun c sent => ?_
    obtain ⟨f, -, sent⟩ := List.mem_flatMap.mp sent
    obtain ⟨turn, -, sent⟩ := List.mem_flatMap.mp sent
    exact Update.covers_of_mem_commands (List.mem_filter.mp sent).1

theorem covers_run (steps : List SessionStep) : Emits Event.Covers s.world (run steps s).world := by
  induction steps generalizing s with
  | nil => exact Emits.refl _
  | cons step steps ih => exact (covers_perform step).trans ih

/-- A layout is accepted exactly if bytes, or floats of another format than luminance, make up whole texels
that fill the rows. Then it has an image, which takes all bytes of the data and no more; so does whatever is
uploaded in a session. -/
theorem layouts_cover_pixels (options : SamplerOptions) (data : HostArray) (device : δ) (host : Host)
    (steps : List SessionStep) :
    ((textureLayout options data).isOk ↔
      (data.kind = .u8 ∨ data.kind = .f32 ∧ options.format ≠ .luminance) ∧
        options.format.components ∣ data.length ∧
        options.Filled (data.length / options.format.components)) ∧
    (∀ layout, textureLayout options data = .ok layout →
      layout = ⟨options.columns (data.length / options.format.components), options.rows, options.format,
          data.kind⟩ ∧
        ∃ image, layout.image? = some image ∧ image.width = layout.width ∧ image.height = layout.height ∧
          image.format = layout.format ∧ image.byteCount = data.bytes.length) ∧
    ∀ image pixels, .command (.textureImage image (some pixels)) ∈
        (run steps (fresh device host)).world.events → pixels.length = image.byteCount := by
  refine ⟨SamplerOptions.isOk_textureLayout_iff, fun layout accepted => ?_, fun image pixels uploaded => ?_⟩
  · exact ⟨(SamplerOptions.textureLayout_eq_ok_iff.mp accepted).2,
      SamplerOptions.image_of_textureLayout accepted⟩
  · obtain ⟨es, split, all⟩ := covers_run (s := fresh device host) steps
    have whole : (run steps (fresh device host)).world.events = es := split
    exact all _ (whole ▸ uploaded) image pixels rfl

/-- Two rows of two texels. -/
def tiles : HostArray := ⟨8, .u8, [0, 1, 2, 3, 4, 5, 6, 7, 8, 9, 10, 11]⟩

def tiled : SamplerOptions := { height := some 2, format := .rgb }

def tiling : List SessionStep :=
  let value : Accessor TextureSource := pure (.pixels tiles)
  let vertex : CompiledShader := ⟨1, "void main", []⟩
  let fragment : CompiledShader :=
    ⟨2, "uniform sampler2D tiles;\nvoid main tiles", [⟨"tiles", 7, .sampler ⟨value, tiled⟩⟩]⟩
  [.makeStack true 8 8 {}, .compile 0 vertex fragment { draw := .arrays 0 3 }, .addToStack 0 0, .render 0]

theorem tiling_covers_pixels :
    let image : TextureImage := ⟨.rgb8, 2, 2, .rgb, .unsignedByte⟩
    (textureLayout tiled tiles).isOk ∧ textureLayout tiled tiles = .ok ⟨2, 2, .rgb, .u8⟩ ∧
      (∃ image, TextureLayout.image? ⟨2, 2, .rgb, .u8⟩ = some image ∧ image.byteCount = tiles.bytes.length) ∧
      .command (.textureImage image (some tiles.bytes)) ∈ (rehearsed tiling).world.events ∧
      tiles.bytes.length = image.byteCount := by
  obtain ⟨accepts, covers, uploads⟩ := layouts_cover_pixels tiled tiles ({} : RecordingDevice)
    { buffers := [("shape", ⟨1, .u8, [7]⟩)], values := [("tint", .ofInt32 1)] } tiling
  have accepted : textureLayout tiled tiles = .ok ⟨2, 2, .rgb, .u8⟩ := by decide +kernel
  obtain ⟨-, image, found, -, -, -, size⟩ := covers _ accepted
  have sent : .textureImage ⟨.rgb8, 2, 2, .rgb, .unsignedByte⟩ (some tiles.bytes) ∈
      (rehearsed tiling).world.events.filterMap Event.upload? := by decide +kernel
  obtain ⟨e, uploaded, same⟩ := List.mem_filterMap.mp sent
  obtain rfl := Event.eq_command_of_upload? same
  exact ⟨accepts.mpr (by decide), accepted, ⟨image, found, size⟩, uploaded, uploads _ _ uploaded⟩

end Session
end ShaderStack

import ShaderStack.Proofs.Acceptance
import ShaderStack.Proofs.TargetReuse

/-! What a readback asks its device for.

A region of pixels is read from the image that the readback has drawn, into a buffer of its own. The buffer's
length is counted in machine words, and the image has the size of the region but starts at the origin. So
the buffer is as long as the region as long as a word can count it, and the region is part of the image
as long as it has no offset. -/
namespace ShaderStack

open World (Emits)

/-- The texels that are read. -/
def PixelRead.region (r : PixelRead) : Set (ℤ × ℤ) :=
  {p | (r.x.toInt ≤ p.1 ∧ p.1 < r.x.toInt + r.width.toNat) ∧
    r.y.toInt ≤ p.2 ∧ p.2 < r.y.toInt + r.height.toNat}

/-- The texels of an image. -/
def Storage.area (image : Storage) : Set (ℤ × ℤ) :=
  {p | (0 ≤ p.1 ∧ p.1 < image.width.toNat) ∧ 0 ≤ p.2 ∧ p.2 < image.height.toNat}

theorem PixelType.byteSize_pos (type : PixelType) : 0 < type.byteSize := by
  cases type <;> decide

namespace ReadConfig

variable {c : ReadConfig} {width height : UInt32}

/-- Values in a region, however many a word counts. -/
def values (c : ReadConfig) (width height : UInt32) : Nat :=
  width.toNat * height.toNat * c.format.components

theorem bufferLength_eq : c.bufferLength width height = c.values width height % UInt64.size := by
  rw [bufferLength, UInt64.toNat_mul, UInt64.toNat_mul, UInt32.toNat_toUInt64, UInt32.toNat_toUInt64,
    UInt64.toNat_ofNat']
  exact (Nat.mul_mod _ _ _).symm

theorem bufferLength_eq_values_iff :
    c.bufferLength width height = c.values width height ↔ c.values width height < UInt64.size := by
  rw [bufferLength_eq]
  exact Nat.mod_eq_iff_lt (by decide)

/-- Sides of 31 bits are short enough for every format. -/
theorem values_lt_of_short (wide : width < 0x80000000) (tall : height < 0x80000000) :
    c.values width height < UInt64.size := by
  have wide : width.toNat ≤ 0x7fffffff := Nat.le_of_lt_succ wide
  have tall : height.toNat ≤ 0x7fffffff := Nat.le_of_lt_succ tall
  have few : c.format.components ≤ 4 := by cases c.format <;> decide
  exact lt_of_le_of_lt (Nat.mul_le_mul (Nat.mul_le_mul wide tall) few) (by decide)

example : ReadConfig.bufferLength {} 100 100 = 100 * 100 * 4 := by decide

end ReadConfig

/-- A region that is not empty is part of an image of its size exactly if it has no offset. -/
theorem PixelRead.region_subset_area_iff {r : PixelRead} {image : Storage} (width : image.width = r.width)
    (height : image.height = r.height) (wide : r.width ≠ 0) (tall : r.height ≠ 0) :
    r.region ⊆ image.area ↔ r.x = 0 ∧ r.y = 0 := by
  have columns : 0 < r.width.toNat := UInt32.pos_iff_ne_zero.mpr wide
  have rows : 0 < r.height.toNat := UInt32.pos_iff_ne_zero.mpr tall
  unfold Storage.area
  rw [width, height]
  have origin : r.x = 0 ∧ r.y = 0 ↔ r.x.toInt = 0 ∧ r.y.toInt = 0 :=
    and_congr Int32.toInt_inj.symm Int32.toInt_inj.symm
  rw [origin]
  constructor
  · intro inside
    have first : (r.x.toInt, r.y.toInt) ∈ r.region := ⟨⟨by omega, by omega⟩, by omega, by omega⟩
    have last : (r.x.toInt + r.width.toNat - 1, r.y.toInt + r.height.toNat - 1) ∈ r.region :=
      ⟨⟨by omega, by omega⟩, by omega, by omega⟩
    obtain ⟨⟨left, _⟩, bottom, _⟩ := inside first
    obtain ⟨⟨_, right⟩, _, top⟩ := inside last
    exact ⟨by omega, by omega⟩
  · rintro ⟨x, y⟩ p ⟨⟨left, right⟩, bottom, top⟩
    exact ⟨⟨by omega, by omega⟩, by omega, by omega⟩

variable {δ : Type} {w w₁ w' : World δ}

namespace World

/-- The reads from one world to a later one. -/
def reads (w w' : World δ) : List PixelRead := (w'.events.drop w.events.length).filterMap Event.read?

theorem reads_eq_nil (run : Emits (·.read? = none) w w') : w.reads w' = [] := by
  obtain ⟨es, split, all⟩ := run
  rw [reads, split, List.drop_left]
  exact List.filterMap_eq_nil_iff.mpr all

/-- A read with others neither before nor after it. -/
theorem reads_eq_singleton [GraphicsDevice δ] {r : PixelRead} (before : Emits (·.read? = none) w w₁)
    (after : Emits (·.read? = none) (w₁.readBack r) w') : w.reads w' = [r] := by
  obtain ⟨es, split, earlier⟩ := before
  obtain ⟨fs, split', later⟩ := after
  have whole : w'.events = w.events ++ (es ++ .read r :: fs) := by
    rw [split', readBack, emit_events, split]
    simp
  rw [reads, whole, List.drop_left, List.filterMap_append, List.filterMap_eq_nil_iff.mpr earlier,
    List.filterMap_cons_some (rfl : Event.read? (.read r) = some r), List.filterMap_eq_nil_iff.mpr later]
  rfl

end World

variable [GraphicsDevice δ]

namespace Stack

variable {s : Stack} {c : ReadConfig}

/-- A readback that passes its check reads once, after everything that can fail. -/
theorem pixels_read :
    (s.read c).Ends w
      (fun answer w' => c.validate (c.width.getD s.width) (c.height.getD s.height) = .ok () ∧
        answer.1.type = c.dataType ∧
        answer.1.length = c.bufferLength (c.width.getD s.width) (c.height.getD s.height) ∧
        w.reads w' = [pixelRead c (c.width.getD s.width) (c.height.getD s.height)])
      fun _ w' => w.reads w' = [] := by
  rw [ends_read]
  dsimp only
  split
  · exact World.reads_eq_nil (Emits.refl w)
  next valid =>
    refine setup_bindTarget.imp ?_ fun _ w' setup => World.reads_eq_nil
      (setup.mono fun _ => Event.read?_of_isSetup)
    rintro ⟨framebuffer, bound⟩ w₁ ⟨-, setup⟩
    refine ⟨valid, rfl, rfl, World.reads_eq_singleton ?_ (Emits.performAll (by simp [Event.read?]))⟩
    have cleared : Emits (·.isFrame) w₁ (w₁.perform (.clear .opaqueBlack .one)) := Emits.emit rfl
    exact (setup.mono fun _ => Event.read?_of_isSetup).trans
      ((cleared.trans extends_renderTo.events).mono fun _ => Event.read?_of_isFrame)

/-- A configuration that fails its check reaches no device. Any other reads once or is refused by the
device, and the buffer has the number of values modulo the word size. So it has the values and the bytes of
its region exactly if a word counts the values, as it does if no side has more than 31 bits. -/
theorem buffer_fits_iff_countable (s : Stack) (c : ReadConfig) (w : World δ) :
    let width := c.width.getD s.width
    let height := c.height.getD s.height
    match c.validate width height with
    | .error e => (s.read c).Ends w (fun _ _ => False) fun e' w' => e' = e ∧ w' = w
    | .ok () =>
      (s.read c).Ends w
        (fun (pixels, _) w' => ∃ bytes,
          w.reads w' = [⟨c.x, c.y, width, height, c.format, c.dataType, bytes⟩] ∧
          pixels.type = c.dataType ∧
          pixels.length = c.values width height % UInt64.size ∧
          bytes = pixels.length * c.dataType.byteSize ∧
          (pixels.length = c.values width height ↔ c.values width height < UInt64.size) ∧
          (bytes = c.values width height * c.dataType.byteSize ↔ c.values width height < UInt64.size) ∧
          (width < 0x80000000 ∧ height < 0x80000000 → c.values width height < UInt64.size))
        fun e w' => w.reads w' = [] ∧
          (e = .resource (.incompleteReadback c.internalFormat) ∨
            ∃ a, Event.allocation a (.error e) ∈ w'.events.drop w.events.length) := by
  intro width height
  split
  next e invalid =>
    rw [ends_read]
    simp only [width, height] at invalid
    simp only [invalid, and_self]
  next valid =>
    refine (pixels_read.and (Settings.readable_read valid)).imp ?_ fun _ _ failed => failed
    rintro ⟨pixels, s'⟩ w' ⟨⟨-, type, length, reads⟩, -⟩
    refine ⟨_, reads, type, length.trans ReadConfig.bufferLength_eq, by rw [length], ?_, ?_, ?_⟩
    · rw [length]
      exact ReadConfig.bufferLength_eq_values_iff
    · rw [← ReadConfig.bufferLength_eq_values_iff]
      exact Nat.mul_left_inj c.dataType.byteSize_pos.ne'
    · exact fun short => ReadConfig.values_lt_of_short short.1 short.2

end Stack

namespace Session

/-- A stack of ten by ten, and nothing else. -/
def lone : Session RecordingDevice := run [.makeStack true 10 10 {}] (fresh {} {})

/-- The sides are accepted, and the buffer is empty although their region has as many values as there are
words. -/
theorem vast_region_overruns_buffer :
    let c : ReadConfig := { width := some 0x80000000, height := some 0x80000000 }
    lone.liveStacks.map (fun stack => (c.validate (c.width.getD stack.width) (c.height.getD stack.height),
        ((stack.read c).run.run lone.world).1.map fun answer => answer.1.length)) = [(.ok (), .ok 0)] ∧
      lone.world.reads (lone.perform (.read 0 c)).world =
        [⟨0, 0, 0x80000000, 0x80000000, .rgba, .unsignedByte, 0⟩] ∧
      c.values 0x80000000 0x80000000 * PixelType.unsignedByte.byteSize = UInt64.size := by
  decide +kernel

variable {s : Session δ} {i : Nat} {c : ReadConfig} {stack : Stack}

/-- A readback reads one region or fails. The region is read from the target that the stack keeps for the
configuration and draws into, which has its size, so that it is part of the target exactly if it has no
offset. -/
theorem region_inside_target_iff (reached : s.Reached) (found : s.liveStacks[i]? = some stack)
    (minting : Minting (s.perform (.read i c)).world.events) :
    if ((stack.read c).run.run s.world).1.isOk then
      ∃ stack' target r image, (s.perform (.read i c)).liveStacks[i]? = some stack' ∧
        stack'.targets.lookup (stack.resolved c) = some target ∧
        s.world.reads (s.perform (.read i c)).world = [r] ∧
        r.x = c.x ∧ r.y = c.y ∧ r.width = c.width.getD stack.width ∧ r.height = c.height.getD stack.height ∧
        s.world.sources (s.perform (.read i c)).world = [(some target.framebuffer, some image)] ∧
        (∀ m ∈ s.course (.read i c), m.2.draw?.isSome → ∀ p ∈ stack.programs,
          m.1.graphics.vertexArray = some p.bindings.vertexArray →
            m.1.graphics.framebuffer = some target.framebuffer ∧ m.1.image = some image) ∧
        (r.region ⊆ image.area ↔ c.x = 0 ∧ c.y = 0)
    else s.world.reads (s.perform (.read i c)).world = [] := by
  have cases := read_cases found (Stack.pixels_read (c := c) (w := s.world))
  split
  next done =>
    rw [if_pos done] at cases
    obtain ⟨pixels, _, ⟨valid, -, -, reads⟩, -⟩ := cases
    obtain ⟨stack', target, found', into, back⟩ := exists_readsBack reached found minting done
    obtain ⟨⟨wide, tall⟩, -⟩ := ReadConfig.validate_eq_ok_iff.mp valid
    exact ⟨stack', target, _, _, found', into.grows.lookup, reads, rfl, rfl, rfl, rfl, back.taken, back.drawn,
      PixelRead.region_subset_area_iff rfl rfl wide tall⟩
  next failed =>
    rw [if_neg failed] at cases
    exact cases.choose_spec.1

theorem lone_region_inside_target : ∃ r image,
    lone.world.reads (lone.perform (.read 0 {})).world = [r] ∧ r.width = 10 ∧ r.height = 10 ∧
      (lone.world.sources (lone.perform (.read 0 {})).world).map Prod.snd = [some image] ∧
      r.region ⊆ image.area := by
  have reached : lone.Reached := ⟨_, _, _, rfl⟩
  have shown : (lone.liveStacks[0]?.map fun stack =>
      (stack.width, stack.height, ((stack.read {}).run.run lone.world).1.isOk)) = some (10, 10, true) := by
    decide +kernel
  obtain ⟨stack, found, size⟩ := Option.map_eq_some_iff.mp shown
  obtain ⟨width, height, done⟩ : stack.width = 10 ∧ stack.height = 10 ∧ _ = true := by simpa using size
  have inside := region_inside_target_iff (c := {}) reached found (by decide +kernel)
  rw [if_pos done] at inside
  obtain ⟨_, _, r, image, -, -, reads, -, -, wide, tall, sources, -, origin⟩ := inside
  exact ⟨r, image, reads, wide.trans width, tall.trans height, by rw [sources]; rfl, origin.mpr ⟨rfl, rfl⟩⟩

/-- One texel to the right, the last column is not in the target. -/
theorem shifted_region_leaves_target :
    let c : ReadConfig := { x := 1 }
    let r : PixelRead := ⟨1, 0, 10, 10, .rgba, .unsignedByte, 400⟩
    let image : Storage := ⟨.rgba8, 10, 10⟩
    lone.liveStacks.map (fun stack => (c.validate (c.width.getD stack.width) (c.height.getD stack.height),
        ((stack.read c).run.run lone.world).1.isOk)) = [(.ok (), true)] ∧
      lone.world.reads (lone.perform (.read 0 c)).world = [r] ∧
      (lone.world.sources (lone.perform (.read 0 c)).world).map Prod.snd = [some image] ∧
      (10, 0) ∈ r.region ∧ (10, 0) ∉ image.area := by
  intro c r image
  refine ⟨by decide +kernel, by decide +kernel, by decide +kernel, ?_, ?_⟩
  · exact ⟨⟨by decide, by decide⟩, by decide, by decide⟩
  · exact fun inside => absurd inside.1.2 (by decide)

end Session
end ShaderStack

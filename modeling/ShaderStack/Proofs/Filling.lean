import ShaderStack.Proofs.Slots
import ShaderStack.Proofs.Ownership
import Mathlib.Order.Interval.Finset.Nat

/-! What binding puts on the device, and what it leaves alone.

A new buffer or texture is no object that was there before, so that everything others have stored
stays where it is. -/
namespace ShaderStack

open World (Extends Emits Kept Spares)

variable {δ : Type} {w w' : World δ}

namespace Update

variable {u v : Update} {program vertexArray : Handle}

/-- The object that was allocated for an update. -/
def object? : Update → Option Object
  | attributes u => some ⟨.buffer, u.buffer⟩
  | elements u => some ⟨.buffer, u.buffer⟩
  | uniform _ => none
  | sampler u => some ⟨.texture, u.texture⟩

def unit? : Update → Option UInt32
  | sampler u => some u.unit
  | _ => none

/-- Updates of different slots with objects and units of their own write to different cells. -/
theorem disjoint_cells (slots : u.slot ≠ v.slot) (objects : ∀ o ∈ v.object?, o ∉ u.object?)
    (units : ∀ n ∈ v.unit?, n ∉ u.unit?) :
    (u.cells program vertexArray).Disjoint (v.cells program vertexArray) := by
  cases u <;> cases v <;> simp_all [cells, stores, pushes, slot, object?, unit?, List.Disjoint]

/-- What an update stores is part of its object or of the vertex array. -/
theorem object_of_stores {c : Cell} (stored : c ∈ u.stores vertexArray) :
    c.object? = some ⟨.vertexArray, vertexArray⟩ ∨ ∃ o ∈ u.object?, c.object? = some o := by
  cases u <;> simp_all [stores, object?] <;> rcases stored with rfl | rfl <;> simp [Cell.object?]

end Update

/-- Nothing is minted that the longer trace would not allow. -/
theorem World.Emits.minting {allowed : Event → Prop} (run : Emits allowed w w')
    (minting : Minting w'.events) : Minting w.events := by
  obtain ⟨es, split, _⟩ := run
  rw [split] at minting
  exact minting_append minting

section Names

/-- The names of objects are words other than zero. -/
def WordNames (es : List Event) : Prop :=
  ∀ e ∈ es, ∀ o ∈ e.creates?, 0 < o.handle ∧ o.handle < 2 ^ 32

instance (es : List Event) : Decidable (WordNames es) :=
  inferInstanceAs (Decidable (∀ e ∈ es, ∀ o ∈ e.creates?, _))

theorem WordNames.of_append {es fs : List Event} (words : WordNames (es ++ fs)) : WordNames es :=
  fun e member => words e (List.mem_append_left _ member)

theorem World.Emits.words {allowed : Event → Prop} (run : Emits allowed w w')
    (words : WordNames w'.events) : WordNames w.events := by
  obtain ⟨es, split, _⟩ := run
  rw [split] at words
  exact words.of_append

theorem WordNames.live {es : List Event} (words : WordNames es) :
    ∀ o ∈ live es, 0 < o.handle ∧ o.handle < 2 ^ 32 := by
  induction es using List.reverseRecOn with
  | nil => simp [ShaderStack.live]
  | append_singleton es e ih =>
    intro o member
    rw [live_snoc] at member
    have early := ih words.of_append
    rcases liveAfter_cases (ShaderStack.live es) e with ⟨new, creates, after⟩ | ⟨old, _, after⟩ |
      ⟨_, _, after⟩
    · rw [after] at member
      rcases Multiset.mem_add.mp member with here | there
      · rw [Multiset.mem_singleton.mp here]
        exact words e (by simp) new creates
      · exact early o there
    · rw [after] at member
      exact early o (Multiset.mem_of_mem_erase member)
    · rw [after] at member
      exact early o member

/-- There are fewer textures than words. -/
theorem length_textures_lt {es : List Event} {objects : List Object} (minting : Minting es)
    (words : WordNames es) (there : (objects : Multiset Object) ≤ live es)
    (textures : ∀ o ∈ objects, o.kind = .texture) : objects.length < 2 ^ 32 := by
  have distinct : objects.Nodup := Multiset.coe_nodup.mp (Multiset.nodup_of_le there (nodup_live minting))
  have names : (objects.map Object.handle).Nodup := by
    refine distinct.map_on ?_
    rintro ⟨kind, h⟩ here ⟨kind', h'⟩ here' rfl
    obtain rfl : kind = .texture := textures _ here
    obtain rfl : kind' = .texture := textures _ here'
    rfl
  have range : (objects.map Object.handle).toFinset ⊆ Finset.Ico 1 (2 ^ 32) := by
    intro h member
    obtain ⟨o, mine, rfl⟩ := List.mem_map.mp (List.mem_toFinset.mp member)
    obtain ⟨positive, small⟩ := words.live o (Multiset.mem_of_le there mine)
    exact Finset.mem_Ico.mpr ⟨positive, small⟩
  have card := Finset.card_le_card range
  rw [List.toFinset_card_of_nodup names, List.length_map, Nat.card_Ico] at card
  omega

end Names

section Fill

variable {g : GraphicsState} {vertexArray buffer : Handle} {target : BufferTarget} {data : List UInt8}

/-- The commands that fill a buffer, with pointers into it. -/
abbrev filled (vertexArray : Handle) (target : BufferTarget) (buffer : Handle) (data : List UInt8)
    (pointers : List (Location × VertexLayout)) : List Command :=
  Binder.fill vertexArray target buffer data (pointers.map fun p => .vertexPointer p.1 p.2)

/-- Pointers are all that is set after the data. -/
theorem same_pointers {pointers : List (Location × VertexLayout)} {c : Cell}
    (bound : g.vertexArray = some vertexArray)
    (others : ∀ p ∈ pointers, c ≠ .pointer (some vertexArray) p.1) :
    c.Same g (g.afterAll (pointers.map (fun p => .vertexPointer p.1 p.2) ++ [.bindVertexArray none])) := by
  induction pointers generalizing g with
  | nil => cases c <;> rfl
  | cons p rest ih =>
    apply GraphicsState.same_cons
    · simpa [GraphicsState.writes, bound] using others p List.mem_cons_self
    · apply ih
      · exact bound
      · exact fun q member => others q (List.mem_cons_of_mem p member)

/-- Filling a buffer writes to the buffer and the vertex array. -/
theorem same_filled {pointers : List (Location × VertexLayout)} {c : Cell}
    (other : c ≠ .buffer buffer)
    (indices : target = .elementArray → c ≠ .elementArray (some vertexArray))
    (others : ∀ p ∈ pointers, c ≠ .pointer (some vertexArray) p.1) :
    c.Same g (g.afterAll (filled vertexArray target buffer data pointers)) := by
  unfold filled Binder.fill
  simp only [List.cons_append, List.nil_append]
  apply GraphicsState.same_cons (by simp [GraphicsState.writes, Command.deletes?])
  cases target with
  | array =>
    apply GraphicsState.same_cons (by simp [GraphicsState.writes, Command.deletes?])
    apply GraphicsState.same_cons (by
      simpa [GraphicsState.writes, GraphicsState.afterCommand, GraphicsState.bound] using other)
    apply same_pointers _ others
    simp [GraphicsState.afterCommand, GraphicsState.bound]
  | elementArray =>
    apply GraphicsState.same_cons (by
      simpa [GraphicsState.writes, GraphicsState.afterCommand] using indices rfl)
    apply GraphicsState.same_cons (by
      simpa [GraphicsState.writes, GraphicsState.afterCommand, GraphicsState.bound] using other)
    apply same_pointers _ others
    simp [GraphicsState.afterCommand, GraphicsState.bound]

theorem vertexArray_filled {pointers : List (Location × VertexLayout)} :
    (g.afterAll (filled vertexArray target buffer data pointers)).vertexArray = none := by
  unfold filled Binder.fill
  rw [← List.append_assoc, GraphicsState.afterAll, List.foldl_append]
  rfl

/-- What an attribute's update finds later. -/
theorem graphics_filled_array {location : Location} {layout : VertexLayout} :
    (g.afterAll (filled vertexArray .array buffer data [(location, layout)])).pointers
        (some vertexArray) location = some (some buffer, layout) ∧
      (g.afterAll (filled vertexArray .array buffer data [(location, layout)])).buffers buffer =
        data := by
  simp [Binder.fill, GraphicsState.afterAll, GraphicsState.afterCommand, GraphicsState.bound]

theorem graphics_filled_elements :
    (g.afterAll (filled vertexArray .elementArray buffer data [])).elementArrays
        (some vertexArray) = some buffer ∧
      (g.afterAll (filled vertexArray .elementArray buffer data [])).buffers buffer = data := by
  simp [Binder.fill, GraphicsState.afterAll, GraphicsState.afterCommand, GraphicsState.bound]

/-- Seating a texture writes to its unit only. -/
theorem same_seated {unit : UInt32} {texture : Handle} {parameters : TextureParameters} {c : Cell}
    (other : c ≠ .unit unit) :
    c.Same g (g.afterAll (Binder.seat unit texture parameters)) := by
  unfold Binder.seat
  apply GraphicsState.same_cons (by simp [GraphicsState.writes, Command.deletes?])
  apply GraphicsState.same_cons (by
    simpa [GraphicsState.writes, GraphicsState.afterCommand] using other)
  apply GraphicsState.same_cons (by simp [GraphicsState.writes, Command.deletes?])
  exact Cell.Same.refl c _

end Fill

namespace World

variable [GraphicsDevice δ] {rest : Multiset Object} {holds : Multiset Nat} {a : Allocation} {h : Handle}

/-- What the context grants was not there. -/
theorem Kept.fresh (kept : Kept rest holds w) (granted : w.granted a = .ok h)
    (minting : Minting (w.allocated a).events) : (⟨a.kind, h⟩ : Object) ∉ w.owns + rest := by
  rw [emit_events, minting_snoc, granted] at minting
  rw [← kept.accounted.2]
  exact minting.2 _ rfl

/-- Only the new object is written to when it is made. -/
theorem same_allocated {c : Cell} (granted : w.granted a = .ok h)
    (other : c.object? ≠ some ⟨a.kind, h⟩) : c.Same w.graphics (w.allocated a).graphics := by
  rw [graphics_emit, granted]
  exact GraphicsState.same_reset other

theorem vertexArray_allocated (free : w.graphics.vertexArray = none) :
    (w.allocated a).graphics.vertexArray = none := by
  rw [graphics_emit]
  exact GraphicsState.vertexArray_after free (by simp)

/-- An allocation spares all that was there. -/
theorem Kept.spares_allocated (kept : Kept rest holds w) (minting : Minting (w.allocated a).events) :
    Spares (· ∈ w.owns + rest) w (w.allocated a) := by
  apply Spares.allocated
  intro h granted there
  exact kept.fresh granted minting there

omit [GraphicsDevice δ] in
theorem mem_beside {hand : Multiset Object} {o : Object} (member : o ∈ w.owns + rest) :
    o ∈ w.owns + (hand + rest) := by
  rw [add_left_comm]
  exact Multiset.mem_add.mpr (.inr member)

/-- What is there beside the objects in hand is spared too. -/
theorem Kept.spares_granted {hand : Multiset Object} (kept : Kept (hand + rest) holds w)
    (minting : Minting (w.allocated a).events) : Spares (· ∈ w.owns + rest) w (w.allocated a) :=
  (kept.spares_allocated minting).mono fun _ => mem_beside

omit [GraphicsDevice δ] in
/-- What is in hand is none of the others' objects. -/
theorem Kept.not_mem_of_hand {hand : Multiset Object} (kept : Kept (hand + rest) holds w)
    (minting : Minting w.events) {o : Object} (mine : o ∈ hand) : o ∉ w.owns + rest := by
  have distinct := nodup_live minting
  rw [kept.accounted.2, add_left_comm, Multiset.nodup_add] at distinct
  exact Multiset.disjoint_left.mp distinct.2.2 mine

theorem Spares.filled {kept : Object → Prop} {vertexArray buffer : Handle} {target : BufferTarget}
    {data : List UInt8} {pointers : List (Location × VertexLayout)} (new : ¬ kept ⟨.buffer, buffer⟩)
    (mine : ¬ kept ⟨.vertexArray, vertexArray⟩) :
    Spares kept w (w.performAll (filled vertexArray target buffer data pointers)) := by
  constructor
  · intro _
    rw [graphics_performAll]
    exact vertexArray_filled
  · intro _ c o part keep
    rw [graphics_performAll]
    apply same_filled
    · rintro rfl
      obtain rfl : ⟨.buffer, buffer⟩ = o := Option.some.inj part
      exact new keep
    · rintro _ rfl
      obtain rfl : ⟨.vertexArray, vertexArray⟩ = o := Option.some.inj part
      exact mine keep
    · rintro p _ rfl
      obtain rfl : ⟨.vertexArray, vertexArray⟩ = o := Option.some.inj part
      exact mine keep

theorem Spares.seated {kept : Object → Prop} {unit : UInt32} {texture : Handle}
    {parameters : TextureParameters} :
    Spares kept w (w.performAll (Binder.seat unit texture parameters)) := by
  have run : Emits (·.isPlain) w (w.performAll (Binder.seat unit texture parameters)) := by
    refine Emits.performAll ?_
    simp [Binder.seat, Event.isPlain, Command.isPlain]
  exact run.spares_of_isPlain

/-- A step of binding spares everything that is not the program's. -/
theorem Kept.spares_step {p q : Bindings × World δ} (kept : Kept (p.1.owns + rest) holds p.2)
    (step : Binder.Step p q) (minting : Minting q.2.events) : Spares (· ∈ p.2.owns + rest) p.2 q.2 := by
  cases step with
  | note _ _ _ => exact Spares.refl _
  | @lookup b w l =>
    have run : Emits (·.isPlain) w (w.lookedUp l) := Emits.emit (by rfl)
    exact run.spares_of_isPlain
  | look value => exact Spares.silent rfl
  | listen id s _ => exact Spares.silent listen_events
  | refused _ granted =>
    exact kept.spares_granted minting
  | @buffer b w buffer granted target data pointers =>
    have filling : Emits (fun _ => True) (w.allocated .buffer) ((w.allocated .buffer).performAll
        (filled b.vertexArray target buffer data pointers)) := Emits.performAll fun _ _ => trivial
    have minted := filling.minting minting
    have granting : Emits (fun _ => True) w (w.allocated .buffer) := Emits.emit trivial
    refine (Kept.spares_granted kept minted).trans (Spares.filled ?_ ?_)
    · intro there
      exact kept.fresh granted minted (mem_beside there)
    · exact kept.not_mem_of_hand (granting.minting minted) (by simp [Bindings.owns])
  | @texture b w texture granted unit parameters =>
    have seating : Emits (fun _ => True) (w.allocated .texture) ((w.allocated .texture).performAll
        (Binder.seat unit texture parameters)) := Emits.performAll fun _ _ => trivial
    exact (Kept.spares_granted kept (seating.minting minting)).trans Spares.seated

/-- Binding spares everything that is not the program's. -/
theorem Kept.spares_path {b b' : Bindings} (kept : Kept (b.owns + rest) holds w)
    (path : Binder.Path (b, w) (b', w')) (minting : Minting w'.events) :
    Spares (· ∈ w.owns + rest) w w' := by
  have walk (q : Bindings × World δ) (path : Binder.Path (b, w) q) (minting : Minting q.2.events) :
      Spares (· ∈ w.owns + rest) w q.2 := by
    induction path with
    | refl => exact Spares.refl w
    | @tail p q path step ih =>
      have owned : p.2.owns = w.owns := (Binder.extends_path path).coarsen.owns
      have early : Minting p.2.events :=
        (Binder.extends_path (Relation.ReflTransGen.single step)).events.minting minting
      have last := (kept.path path).1.spares_step step minting
      rw [owned] at last
      exact (ih early).trans last
  exact walk (b', w') path minting

end World
end ShaderStack

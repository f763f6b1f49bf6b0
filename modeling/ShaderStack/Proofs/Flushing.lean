import ShaderStack.Proofs.Rendering
import ShaderStack.Proofs.Uploads

/-! Flushing the queue of a program.

The updates of one queue write to different cells, so that what one of them has stored or shown is
still there when the program draws. -/
namespace ShaderStack

open World (Extends Emits Draws)

variable {δ : Type} [GraphicsDevice δ] {w : World δ} {m : Moment} {program vertexArray : Handle}
  {indices : Option IndexBuffer}

omit [GraphicsDevice δ] in
theorem World.Extends.textureOf? {allowed : Event → Prop} {w' : World δ}
    (run : Extends allowed RenderTexture.shell w w') : w'.textureOf? = w.textureOf? := by
  funext id
  cases id with
  | renderTexture key =>
    have same := congrArg (Option.map RenderTexture.texture) (run.texture? key)
    rw [Option.map_map, Option.map_map] at same
    exact same
  | external name => exact run.surfaces name

namespace Update

variable {u v : Update}

/-- Updates leave in use what is in use. -/
theorem inUse_ran (u : Update) (indices : Option IndexBuffer) (w : World δ) :
    (u.ran indices w).2.graphics.vertexArray = w.graphics.vertexArray ∧
    (u.ran indices w).2.graphics.program = w.graphics.program := by
  have run : Extends (·.isUpdate) RenderTexture.bare w (u.ran indices w).2 := extends_ran
  refine run.events.graphics_keeps
    (fun g => g.vertexArray = w.graphics.vertexArray ∧ g.program = w.graphics.program) ?_ ⟨rfl, rfl⟩
  rintro g e update ⟨array, used⟩
  obtain ⟨_, sameArray, sameProgram, _⟩ := GraphicsState.after_of_isUpdate (g := g) update
  exact ⟨sameArray.trans array, sameProgram.trans used⟩

/-- Updates that write to different cells are not both for the elements. -/
theorem slot_of_disjoint (apart : (u.cells program vertexArray).Disjoint (v.cells program vertexArray))
    (elements : u.slot = .elements) : v.slot ≠ .elements := by
  intro both
  have cell (u : Update) (elements : u.slot = .elements) :
      .elementArray (some vertexArray) ∈ u.cells program vertexArray := by
    cases u <;> simp_all [slot, cells, stores]
  exact apart (cell u elements) (cell v both)

end Update

namespace UpdateQueue

variable {entries rest : List (BindingSlot × Update)} {entry : BindingSlot × Update}
  {seen : List HostArray}

/-- The updates of a queue write to different cells. -/
def Apart (program vertexArray : Handle) (entries : List (BindingSlot × Update)) : Prop :=
  entries.Pairwise fun e f =>
    (e.2.cells program vertexArray).Disjoint (f.2.cells program vertexArray)

theorem apart_frozen : Apart program vertexArray (entries.map (Prod.map id Update.frozen)) ↔
    Apart program vertexArray entries := by
  simp [Apart, List.pairwise_map, Update.cells_frozen]

theorem frozen_ran : (ran entries indices w).1.1.map (Prod.map id Update.frozen) =
    entries.map (Prod.map id Update.frozen) := by
  induction entries generalizing indices w with
  | nil => rfl
  | cons entry rest ih =>
    obtain ⟨slot, u⟩ := entry
    rw [ran_cons, List.map_cons, List.map_cons, ih]
    simp [Update.frozen_ran]

/-- An update is found again after the run, up to what it remembers. -/
theorem exists_frozen {entries' : List (BindingSlot × Update)}
    (same : entries'.map (Prod.map id Update.frozen) = entries.map (Prod.map id Update.frozen)) :
    ∀ e' ∈ entries', ∃ e ∈ entries, e'.1 = e.1 ∧ e'.2.frozen = e.2.frozen := by
  intro e' member
  obtain ⟨e, there, equal⟩ := exists_of_map_eq same member
  obtain ⟨slot, update⟩ := Prod.mk.inj equal
  exact ⟨e, there, slot, update⟩

theorem inUse_ran (entries : List (BindingSlot × Update)) (indices : Option IndexBuffer)
    (w : World δ) : (ran entries indices w).2.graphics.vertexArray = w.graphics.vertexArray ∧
      (ran entries indices w).2.graphics.program = w.graphics.program := by
  induction entries generalizing indices w with
  | nil => exact ⟨rfl, rfl⟩
  | cons entry rest ih =>
    obtain ⟨slot, u⟩ := entry
    rw [ran_cons]
    obtain ⟨array, used⟩ := u.inUse_ran indices w
    obtain ⟨sameArray, sameProgram⟩ := ih (u.ran indices w).1.2 (u.ran indices w).2
    exact ⟨sameArray.trans array, sameProgram.trans used⟩

theorem same_ran (bound : w.graphics.vertexArray = some vertexArray)
    (used : w.graphics.program = some program) {c : Cell}
    (other : ∀ e ∈ entries, c ∉ e.2.cells program vertexArray) :
    c.Same w.graphics (ran entries indices w).2.graphics := by
  induction entries generalizing indices w with
  | nil => exact Cell.Same.refl c _
  | cons entry rest ih =>
    obtain ⟨slot, u⟩ := entry
    rw [ran_cons]
    obtain ⟨array, program⟩ := u.inUse_ran indices w
    have head : c.Same w.graphics (u.ran indices w).2.graphics :=
      Update.same_ran bound used (other _ List.mem_cons_self)
    exact head.trans (ih (array.trans bound) (program.trans used) fun e member =>
      other e (List.mem_cons_of_mem _ member))

theorem indices_ran (none : ∀ e ∈ entries, e.2.slot ≠ .elements) :
    (ran entries indices w).1.2 = indices := by
  induction entries generalizing indices w with
  | nil => rfl
  | cons entry rest ih =>
    obtain ⟨slot, u⟩ := entry
    rw [ran_cons, ih fun e member => none e (List.mem_cons_of_mem _ member)]
    exact Update.indices_ran (none _ List.mem_cons_self)

section Cons

variable {slot : BindingSlot} {u : Update}
  (apart : Apart program vertexArray ((slot, u) :: rest))
  (bound : w.graphics.vertexArray = some vertexArray) (used : w.graphics.program = some program)
include apart bound used

/-- The head of a queue leaves the cells of the others alone. -/
theorem same_head (indices : Option IndexBuffer) : ∀ e ∈ rest,
    (∀ c ∈ e.2.cells program vertexArray, c.Same w.graphics (u.ran indices w).2.graphics) ∧
      (e.2.slot = .elements → (u.ran indices w).1.2 = indices) := by
  obtain ⟨head, _⟩ := List.pairwise_cons.mp apart
  intro e member
  refine ⟨?_, ?_⟩
  · intro c there
    exact Update.same_ran bound used fun here => head e member here there
  · intro elements
    exact Update.indices_ran fun both => Update.slot_of_disjoint (head e member) both elements

/-- The others leave the cells of the head alone. -/
theorem same_tail (indices : Option IndexBuffer) :
    (∀ c ∈ (u.ran indices w).1.1.cells program vertexArray, c.Same (u.ran indices w).2.graphics
      (ran rest (u.ran indices w).1.2 (u.ran indices w).2).2.graphics) ∧
      ((u.ran indices w).1.1.slot = .elements →
        (ran rest (u.ran indices w).1.2 (u.ran indices w).2).1.2 = (u.ran indices w).1.2) := by
  obtain ⟨head, _⟩ := List.pairwise_cons.mp apart
  obtain ⟨sameArray, sameProgram⟩ := u.inUse_ran indices w
  have frozen : (u.ran indices w).1.1.frozen = u.frozen := Update.frozen_ran
  rw [Update.cells_of_frozen frozen, Update.slot_of_frozen frozen]
  refine ⟨?_, ?_⟩
  · intro c here
    exact same_ran (sameArray.trans bound) (sameProgram.trans used)
      fun e member there => head e member here there
  · intro elements
    exact indices_ran fun e member => Update.slot_of_disjoint (head e member) elements

/-- What is settled for the others stays settled while the head runs. -/
theorem settled_rest (settled : ∀ e ∈ rest, e.2.Settled vertexArray w.graphics indices) :
    ∀ e ∈ rest, e.2.Settled vertexArray (u.ran indices w).2.graphics (u.ran indices w).1.2 := by
  intro e member
  obtain ⟨same, drawn⟩ := same_head apart bound used indices e member
  exact (settled e member).keep (fun c stored => same c (List.mem_append_left _ stored)) drawn

end Cons

/-- What was settled before the queue ran is settled after it. -/
theorem settled_ran (apart : Apart program vertexArray entries)
    (bound : w.graphics.vertexArray = some vertexArray) (used : w.graphics.program = some program)
    (settled : ∀ e ∈ entries, e.2.Settled vertexArray w.graphics indices) :
    ∀ e ∈ (ran entries indices w).1.1,
      e.2.Settled vertexArray (ran entries indices w).2.graphics (ran entries indices w).1.2 := by
  induction entries generalizing indices w with
  | nil => simp [ran_nil]
  | cons entry rest ih =>
    obtain ⟨slot, u⟩ := entry
    obtain ⟨sameArray, sameProgram⟩ := u.inUse_ran indices w
    rw [ran_cons]
    have head := u.settled_ran bound (settled _ List.mem_cons_self)
    have waiting := settled_rest apart bound used fun e member =>
      settled e (List.mem_cons_of_mem _ member)
    intro e member
    rcases List.mem_cons.mp member with rfl | member
    · obtain ⟨same, drawn⟩ := same_tail apart bound used indices
      exact head.keep (fun c stored => same c (List.mem_append_left _ stored)) drawn
    · exact ih (List.pairwise_cons.mp apart).2 (sameArray.trans bound) (sameProgram.trans used)
        waiting e member

/-- Each update reads its token, and what it uploads is what it has read. -/
theorem reads_ran (indices : Option IndexBuffer) (reaches : m.Reaches seen w.host)
    (carries : ∀ e ∈ entries, ∃ t ∈ m.tokens, e.2.Carries t)
    (uploaded : ∀ e ∈ entries, ∀ a ∈ e.2.uploads, a ∈ seen) :
    ∃ seen', m.Reaches seen' (ran entries indices w).2.host ∧ (∀ a ∈ seen, a ∈ seen') ∧
      ∀ e ∈ (ran entries indices w).1.1, ∀ a ∈ e.2.uploads, a ∈ seen' := by
  induction entries generalizing indices w seen with
  | nil => exact ⟨seen, reaches, fun _ member => member, by simp [ran_nil]⟩
  | cons entry rest ih =>
    obtain ⟨slot, u⟩ := entry
    obtain ⟨t, member, carried⟩ := carries _ List.mem_cons_self
    have read : m.Reaches (t.arrays w.host ++ seen) (u.ran indices w).2.host := by
      rw [Update.host_ran, Update.asked_of_carries carried]
      exact .read reaches member
    obtain ⟨seen', reaches', more, uploaded'⟩ := ih (u.ran indices w).1.2 read
      (fun e member => carries e (List.mem_cons_of_mem _ member))
      (fun e member a upload =>
        List.mem_append_right _ (uploaded e (List.mem_cons_of_mem _ member) a upload))
    rw [ran_cons]
    refine ⟨seen', reaches', fun a member => more a (List.mem_append_right _ member), ?_⟩
    intro e member a upload
    rcases List.mem_cons.mp member with rfl | member
    · rcases List.mem_append.mp (Update.uploads_ran carried a upload) with new | old
      · exact more a (List.mem_append_left _ new)
      · exact more a (List.mem_append_right _ (uploaded _ List.mem_cons_self a old))
    · exact uploaded' e member a upload

/-- In a calm moment the queue shows everything that its updates bring. -/
theorem shown_ran (calm : m.Calm) (reaches : m.Reaches seen w.host)
    (carries : ∀ e ∈ entries, ∃ t ∈ m.tokens, e.2.Carries t)
    (uploaded : ∀ e ∈ entries, ∀ a ∈ e.2.uploads, a ∈ seen)
    (surfaces : w.textureOf? = m.surfaces) (apart : Apart program vertexArray entries)
    (bound : w.graphics.vertexArray = some vertexArray) (used : w.graphics.program = some program)
    (settled : ∀ e ∈ entries, e.2.Settled vertexArray w.graphics indices) :
    ∀ e ∈ (ran entries indices w).1.1, e.2.Shown m program vertexArray
      (ran entries indices w).2.graphics (ran entries indices w).1.2 := by
  induction entries generalizing indices w seen with
  | nil => simp [ran_nil]
  | cons entry rest ih =>
    obtain ⟨slot, u⟩ := entry
    obtain ⟨t, member, carried⟩ := carries _ List.mem_cons_self
    obtain ⟨sameArray, sameProgram⟩ := u.inUse_ran indices w
    have head := Update.shown_ran calm reaches member carried (uploaded _ List.mem_cons_self) surfaces
      bound used (settled _ List.mem_cons_self)
    have read : m.Reaches (t.arrays w.host ++ seen) (u.ran indices w).2.host := by
      rw [Update.host_ran, Update.asked_of_carries carried]
      exact .read reaches member
    have run : Extends (·.isUpdate) RenderTexture.bare w (u.ran indices w).2 := Update.extends_ran
    have waiting := settled_rest apart bound used fun e member =>
      settled e (List.mem_cons_of_mem _ member)
    rw [ran_cons]
    intro e member
    rcases List.mem_cons.mp member with rfl | member
    · obtain ⟨same, drawn⟩ := same_tail apart bound used indices
      exact head.keep same drawn
    · exact ih read (fun e member => carries e (List.mem_cons_of_mem _ member))
        (fun e member a upload =>
          List.mem_append_right _ (uploaded e (List.mem_cons_of_mem _ member) a upload))
        (run.coarsen.textureOf?.trans surfaces) (List.pairwise_cons.mp apart).2
        (sameArray.trans bound) (sameProgram.trans used) waiting e member

end UpdateQueue

end ShaderStack

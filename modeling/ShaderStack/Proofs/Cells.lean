import ShaderStack.Proofs.Graphics

/-! The cells that the graphics state is made of, and which of them an event writes.

Most cells are part of an object. What is done to one object leaves the cells of all others as they
are, as long as no vertex array is bound. -/
namespace ShaderStack

/-- One part of the graphics state. -/
inductive Cell
  | pointer (vertexArray : Option Handle) (location : Location)
  | elementArray (vertexArray : Option Handle)
  | buffer (handle : Handle)
  | texture (handle : Handle)
  | attachment (framebuffer : Handle)
  | uniform (program : Handle) (location : Location)
  | unit (number : UInt32)
  deriving DecidableEq

namespace Cell

/-- The object that a cell is part of. -/
def object? : Cell → Option Object
  | pointer vertexArray _ => vertexArray.map fun h => ⟨.vertexArray, h⟩
  | elementArray vertexArray => vertexArray.map fun h => ⟨.vertexArray, h⟩
  | buffer h => some ⟨.buffer, h⟩
  | texture h => some ⟨.texture, h⟩
  | attachment h => some ⟨.framebuffer, h⟩
  | uniform program _ => some ⟨.program, program⟩
  | unit _ => none

/-- Two states agree on a cell. -/
def Same (c : Cell) (g g' : GraphicsState) : Prop :=
  match c with
  | pointer vertexArray location => g'.pointers vertexArray location = g.pointers vertexArray location
  | elementArray vertexArray => g'.elementArrays vertexArray = g.elementArrays vertexArray
  | buffer h => g'.buffers h = g.buffers h
  | texture h => g'.textures h = g.textures h
  | attachment h => g'.attachments h = g.attachments h
  | uniform program location => g'.uniforms program location = g.uniforms program location
  | .unit n => g'.units n = g.units n

variable {c : Cell} {g g₁ g₂ : GraphicsState}

theorem Same.refl (c : Cell) (g : GraphicsState) : c.Same g g := by
  unfold Same
  cases c <;> rfl

theorem Same.trans (first : c.Same g g₁) (second : c.Same g₁ g₂) : c.Same g g₂ := by
  unfold Same at *
  cases c <;> exact second.trans first

end Cell

namespace GraphicsState

variable {g : GraphicsState} {c : Cell}

/-- An object comes or goes with its cells. A buffer also leaves the vertex array that is bound, and a
texture the units. -/
def erases (g : GraphicsState) (o : Object) (c : Cell) : Prop :=
  c.object? = some o ∨
    match o.kind with
    | .buffer => (∃ location, c = .pointer g.vertexArray location) ∨ c = .elementArray g.vertexArray
    | .texture => ∃ unit, c = .unit unit
    | _ => False

/-- The cells that an event may change. -/
def writes (g : GraphicsState) (e : Event) (c : Cell) : Prop :=
  match e with
  | .allocation a (.ok h) => c.object? = some ⟨a.kind, h⟩
  | .command (.bindBuffer .elementArray _) => c = .elementArray g.vertexArray
  | .command (.bufferData target _) => ∃ h, g.bound target = some h ∧ c = .buffer h
  | .command (.vertexPointer location _) => c = .pointer g.vertexArray location
  | .command (.uniform location _) => ∃ h, g.program = some h ∧ c = .uniform h location
  | .command (.bindTexture _) => c = .unit g.activeUnit
  | .command (.textureImage _ _) => ∃ h, g.units g.activeUnit = some h ∧ c = .texture h
  | .command (.framebufferTexture _) | .command (.framebufferRenderbuffer _) =>
    ∃ h, g.framebuffer = some h ∧ c = .attachment h
  | .command (.clear _ _) | .command (.drawArrays _ _ _) | .command (.drawElements _ _ _) =>
    ∃ h, g.target? = some h ∧ c = .texture h
  | .command d => ∃ o, d.deletes? = some o ∧ g.erases o c
  | _ => False

theorem same_reset {o : Object} (other : c.object? ≠ some o) : c.Same g (g.reset o) := by
  obtain ⟨kind, h⟩ := o
  cases kind <;> cases c with
  | pointer vertexArray location => cases vertexArray <;> simp_all [reset, Cell.Same, Cell.object?]
  | elementArray vertexArray => cases vertexArray <;> simp_all [reset, Cell.Same, Cell.object?]
  | _ => simp_all [reset, Cell.Same, Cell.object?]

theorem same_unbind {o : Object} (other : ¬ g.erases o c) : c.Same g (g.unbind o) := by
  obtain ⟨kind, h⟩ := o
  cases kind <;> cases c <;> simp_all [unbind, erases, Cell.Same]

theorem same_delete {o : Object} (other : ¬ g.erases o c) : c.Same g (g.delete o) := by
  have apart : c.object? ≠ some o := fun part => other (.inl part)
  exact (same_unbind other).trans (same_reset apart)

theorem same_drawInto (other : ∀ h, g.target? = some h → c ≠ .texture h) : c.Same g g.drawInto := by
  unfold drawInto
  cases target : g.target? with
  | none => exact Cell.Same.refl c g
  | some h =>
    have apart := other h target
    cases c <;> simp_all [Cell.Same]

/-- An event leaves every cell that it does not write as it is. -/
theorem same_after {e : Event} (silent : ¬ g.writes e c) : c.Same g (g.after e) := by
  cases e with
  | allocation a answer =>
    cases answer with
    | ok h => exact same_reset silent
    | error e => exact Cell.Same.refl c g
  | command d =>
    cases d with
    | bindBuffer target buffer =>
      cases target <;> cases c <;> simp_all [after, afterCommand, writes, Cell.Same]
    | bufferData target data =>
      cases bound : g.bound target <;> cases c <;>
        simp_all [after, afterCommand, writes, Cell.Same]
    | vertexPointer location layout =>
      cases c with
      | pointer vertexArray other =>
        simp only [writes, Cell.pointer.injEq] at silent
        by_cases same : vertexArray = g.vertexArray
        · have apart : other ≠ location := fun equal => silent ⟨same, equal⟩
          simp [after, afterCommand, Cell.Same, same, apart]
        · simp [after, afterCommand, Cell.Same, same]
      | _ => simp [after, afterCommand, Cell.Same]
    | uniform location push =>
      cases used : g.program with
      | none => simpa [after, afterCommand, used] using Cell.Same.refl c g
      | some program =>
        cases c with
        | uniform other place =>
          by_cases same : other = program
          · have apart : place ≠ location := by
              rintro rfl
              exact silent ⟨program, used, by rw [same]⟩
            simp [after, afterCommand, used, Cell.Same, same, apart]
          · simp [after, afterCommand, used, Cell.Same, same]
        | _ => simp [after, afterCommand, used, Cell.Same]
    | bindTexture texture => cases c <;> simp_all [after, afterCommand, writes, Cell.Same]
    | textureImage image pixels =>
      cases bound : g.units g.activeUnit <;> cases c <;>
        simp_all [after, afterCommand, writes, Cell.Same]
    | framebufferTexture _ | framebufferRenderbuffer _ =>
      cases bound : g.framebuffer <;> cases c <;> simp_all [after, afterCommand, writes, Cell.Same]
    | clear _ _ | drawArrays _ _ _ | drawElements _ _ _ =>
      exact same_drawInto fun h target equal => silent ⟨h, target, equal⟩
    | deleteProgram _ | deleteVertexArray _ | deleteBuffer _ | deleteTexture _ | deleteFramebuffer _
    | deleteRenderbuffer _ =>
      exact same_delete fun erased => silent ⟨_, rfl, erased⟩
    | useProgram _ | bindVertexArray _ | activeTexture _ | textureParameters _ | bindFramebuffer _
    | renderbufferStorage _ _ _ _ | viewport _ _ _ _ =>
      cases c <;> rfl
  | _ => exact Cell.Same.refl c g

/-- Only binding one leaves a vertex array bound. -/
theorem vertexArray_after {e : Event} (free : g.vertexArray = none)
    (unbinding : ∀ h, e ≠ .command (.bindVertexArray (some h))) : (g.after e).vertexArray = none := by
  have reset (o : Object) (g : GraphicsState) : (g.reset o).vertexArray = g.vertexArray := by
    unfold GraphicsState.reset
    split <;> rfl
  have delete (o : Object) : (g.delete o).vertexArray = none := by
    unfold GraphicsState.delete
    rw [reset]
    unfold unbind
    split <;> simp [free, without]
  cases e with
  | allocation a answer =>
    cases answer with
    | ok h => exact (reset _ g).trans free
    | error e => exact free
  | command d =>
    cases d with
    | bindVertexArray vertexArray =>
      cases vertexArray with
      | none => rfl
      | some h => exact absurd rfl (unbinding h)
    | bindBuffer target buffer => cases target <;> exact free
    | deleteProgram _ | deleteVertexArray _ | deleteBuffer _ | deleteTexture _ | deleteFramebuffer _
    | deleteRenderbuffer _ =>
      exact delete _
    | bufferData _ _ | uniform _ _ | textureImage _ _ | framebufferTexture _
    | framebufferRenderbuffer _ =>
      simp only [after, afterCommand]
      split <;> exact free
    | clear _ _ | drawArrays _ _ _ | drawElements _ _ _ =>
      simp only [after, afterCommand, drawInto]
      split <;> exact free
    | _ => exact free
  | _ => exact free

end GraphicsState

/-- The commands that write to no object. -/
def Command.isPlain : Command → Bool
  | useProgram _ | bindVertexArray none | bindBuffer .array _ | activeTexture _ | bindTexture _
  | textureParameters _ | bindFramebuffer _ | renderbufferStorage _ _ _ _ | viewport _ _ _ _ => true
  | _ => false

def Event.isPlain : Event → Bool
  | allocation _ (.ok _) => false
  | command c => c.isPlain
  | _ => true

/-- What is done with no vertex array bound to other objects than those that are kept. -/
def Event.Spares (kept : Object → Prop) (g : GraphicsState) (e : Event) : Prop :=
  (∀ h, e ≠ .command (.bindVertexArray (some h))) ∧
    ∀ (c : Cell) (o : Object), c.object? = some o → kept o → ¬ g.writes e c

namespace World

variable {δ : Type} {w w' w₁ : World δ} {kept : Object → Prop}

/-- With no vertex array bound, the cells of all objects that are kept come through, and no vertex
array is bound afterwards. -/
structure Spares (kept : Object → Prop) (w w' : World δ) : Prop where
  free : w.graphics.vertexArray = none → w'.graphics.vertexArray = none
  same : w.graphics.vertexArray = none →
    ∀ (c : Cell) (o : Object), c.object? = some o → kept o → c.Same w.graphics w'.graphics

namespace Spares

theorem silent (events : w'.events = w.events) : Spares kept w w' := by
  have same := graphics_of_events events
  constructor
  · intro free
    rw [same, free]
  · intro _ c o _ _
    rw [same]
    exact Cell.Same.refl c _

theorem refl (w : World δ) : Spares kept w w := silent rfl

theorem trans (first : Spares kept w w₁) (second : Spares kept w₁ w') : Spares kept w w' where
  free free := second.free (first.free free)
  same free c o part keep :=
    (first.same free c o part keep).trans (second.same (first.free free) c o part keep)

theorem mono {fewer : Object → Prop} (run : Spares kept w w') (less : ∀ o, fewer o → kept o) :
    Spares fewer w w' where
  free := run.free
  same free c o part keep := run.same free c o part (less o keep)

end Spares

theorem Emits.spares {allowed : Event → Prop} (run : Emits allowed w w')
    (each : ∀ g e, allowed e → g.vertexArray = none → e.Spares kept g) : Spares kept w w' := by
  have both : w.graphics.vertexArray = none → w'.graphics.vertexArray = none ∧
      ∀ (c : Cell) (o : Object), c.object? = some o → kept o →
        c.Same w.graphics w'.graphics := by
    intro free
    refine run.graphics_keeps (fun g => g.vertexArray = none ∧
      ∀ (c : Cell) (o : Object), c.object? = some o → kept o → c.Same w.graphics g) ?_
        ⟨free, fun c _ _ _ => Cell.Same.refl c _⟩
    rintro g e fits ⟨free, same⟩
    obtain ⟨unbinding, silent⟩ := each g e fits free
    refine ⟨GraphicsState.vertexArray_after free unbinding, ?_⟩
    intro c o part keep
    exact (same c o part keep).trans (GraphicsState.same_after (silent c o part keep))
  exact ⟨fun free => (both free).1, fun free => (both free).2⟩

/-- Plain events write to no object. -/
theorem Emits.spares_of_isPlain (run : Emits (·.isPlain) w w') : Spares kept w w' := by
  refine run.spares ?_
  intro g e plain _
  refine ⟨?_, ?_⟩
  · rintro h rfl
    simp [Event.isPlain, Command.isPlain] at plain
  · intro c o part _ written
    cases e with
    | allocation a answer =>
      cases answer with
      | ok h => simp [Event.isPlain] at plain
      | error e => exact written
    | command d =>
      cases d with
      | bindBuffer target buffer =>
        cases target with
        | array => simp [GraphicsState.writes, Command.deletes?] at written
        | elementArray => simp [Event.isPlain, Command.isPlain] at plain
      | bindTexture texture =>
        obtain rfl : c = .unit g.activeUnit := written
        simp [Cell.object?] at part
      | _ => simp_all [Event.isPlain, Command.isPlain, GraphicsState.writes, Command.deletes?]
    | _ => exact written

/-- A deletion writes to the object that it deletes. -/
theorem spares_deletes {g : GraphicsState} {d : Command} {o : Object} (deletes : d.deletes? = some o)
    (gone : ¬ kept o) (free : g.vertexArray = none) : Event.Spares kept g (.command d) := by
  refine ⟨?_, ?_⟩
  · rintro h same
    obtain rfl := Event.command.inj same
    simp [Command.deletes?] at deletes
  · intro c o' part keep written
    have erased : g.erases o c := by
      cases d <;> simp_all [GraphicsState.writes, Command.deletes?]
    rcases erased with same | beside
    · rw [part] at same
      exact gone (Option.some.inj same ▸ keep)
    · obtain ⟨kind, h⟩ := o
      cases kind <;> simp only at beside
      · rcases beside with ⟨location, rfl⟩ | rfl <;> simp [Cell.object?, free] at part
      · obtain ⟨unit, rfl⟩ := beside
        simp [Cell.object?] at part

theorem Spares.allocated [GraphicsDevice δ] {a : Allocation}
    (unused : ∀ h, w.granted a = .ok h → ¬ kept ⟨a.kind, h⟩) : Spares kept w (w.allocated a) := by
  have run : Emits (· = Event.allocation a (w.granted a)) w (w.allocated a) := Emits.emit rfl
  refine run.spares ?_
  rintro g e rfl _
  refine ⟨by simp, ?_⟩
  intro c o part keep written
  cases granted : w.granted a with
  | error e => simp [granted, GraphicsState.writes] at written
  | ok h =>
    rw [granted] at written
    have same : some o = some ⟨a.kind, h⟩ := part.symm.trans written
    exact unused h granted (Option.some.inj same ▸ keep)

theorem Spares.deleteAll [GraphicsDevice δ] {cs : List Command}
    (gone : ∀ d ∈ cs, ∃ o, d.deletes? = some o ∧ ¬ kept o) : Spares kept w (w.performAll cs) := by
  have run : Emits (fun e => ∃ d o, e = .command d ∧ d.deletes? = some o ∧ ¬ kept o) w
      (w.performAll cs) := by
    refine Emits.performAll ?_
    intro d member
    obtain ⟨o, deletes, gone⟩ := gone d member
    exact ⟨d, o, rfl, deletes, gone⟩
  refine run.spares ?_
  rintro g e ⟨d, o, rfl, deletes, gone⟩ free
  exact spares_deletes deletes gone free

end World

/-- Objects that are only deleted become fewer. -/
theorem foldl_liveAfter_le {objects : Multiset Object} {es : List Event}
    (erasing : ∀ e ∈ es, e.isErasure) : es.foldl liveAfter objects ≤ objects := by
  induction es generalizing objects with
  | nil => exact le_refl _
  | cons e es ih =>
    have rest : es.foldl liveAfter (liveAfter objects e) ≤ liveAfter objects e :=
      ih fun f member => erasing f (List.mem_cons_of_mem e member)
    obtain ⟨o, deletes⟩ := Option.isSome_iff_exists.mp (erasing e List.mem_cons_self)
    rw [liveAfter_deletes deletes] at rest
    rw [List.foldl_cons, liveAfter_deletes deletes]
    exact rest.trans (Multiset.erase_le o objects)

/-- What is deleted and not created anew is gone. -/
theorem not_mem_of_deletes {objects : Multiset Object} {es : List Event} {e : Event} {o : Object}
    (distinct : objects.Nodup) (erasing : ∀ e ∈ es, e.isErasure) (member : e ∈ es)
    (deletes : e.deletes? = some o) : o ∉ es.foldl liveAfter objects := by
  induction es generalizing objects with
  | nil => simp at member
  | cons f es ih =>
    have later : ∀ e ∈ es, e.isErasure := fun e member => erasing e (List.mem_cons_of_mem f member)
    obtain ⟨o', deletes'⟩ := Option.isSome_iff_exists.mp (erasing f List.mem_cons_self)
    rw [List.foldl_cons, liveAfter_deletes deletes']
    rcases List.mem_cons.mp member with rfl | member
    · obtain rfl : o = o' := Option.some.inj (deletes.symm.trans deletes')
      intro there
      have here := Multiset.mem_of_le (foldl_liveAfter_le later) there
      exact Multiset.Nodup.notMem_erase distinct here
    · exact ih (distinct.erase o') later member

/-- Deletions leave the objects that are there in the end as they were. -/
theorem World.Emits.spares_of_isErasure {w w' : World δ} (minting : Minting w.events)
    (run : World.Emits (·.isErasure) w w') : World.Spares (· ∈ live w'.events) w w' := by
  obtain ⟨es, split, erasing⟩ := run
  have run' : World.Emits (fun e => ∃ o, e.deletes? = some o ∧ o ∉ live w'.events) w w' := by
    refine ⟨es, split, ?_⟩
    intro e member
    obtain ⟨o, deletes⟩ := Option.isSome_iff_exists.mp (erasing e member)
    refine ⟨o, deletes, ?_⟩
    rw [split, live_append]
    exact not_mem_of_deletes (nodup_live minting) erasing member deletes
  refine run'.spares ?_
  rintro g e ⟨o, deletes, gone⟩ free
  cases e with
  | command d => exact World.spares_deletes deletes gone free
  | _ => simp [Event.deletes?] at deletes

end ShaderStack

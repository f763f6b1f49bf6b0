import ShaderStack.Proofs.Mounts

/-! The objects that calls put to use.

A call may name what is there when it is made and what comes from outside of the library. Drawing
names the objects of the programs and of the targets that are drawn, and whatever is made on the way
is named only once it is there. -/
namespace ShaderStack

open World (Extends Emits Kept)

variable {δ : Type} {w w' w₁ w₂ : World δ} {known stray : Object → Prop}

/-- The object that a command asks the context to use. -/
def Command.names? : Command → Option Object
  | useProgram program => program.map (⟨.program, ·⟩)
  | bindVertexArray vertexArray => vertexArray.map (⟨.vertexArray, ·⟩)
  | bindBuffer _ buffer => buffer.map (⟨.buffer, ·⟩)
  | bindTexture texture => texture.map (⟨.texture, ·⟩)
  | bindFramebuffer framebuffer => framebuffer.map (⟨.framebuffer, ·⟩)
  | framebufferTexture texture => some ⟨.texture, texture⟩
  | renderbufferStorage renderbuffer _ _ _ => some ⟨.renderbuffer, renderbuffer⟩
  | framebufferRenderbuffer renderbuffer => some ⟨.renderbuffer, renderbuffer⟩
  | _ => none

namespace Event

def names? : Event → Option Object
  | command c => c.names?
  | _ => none

/-- Everything that the event names is known. -/
def Names (known : Object → Prop) (e : Event) : Prop := ∀ o ∈ e.names?, known o

theorem names?_of_isErasure {e : Event} (erasure : e.isErasure) : e.names? = none := by
  cases e with
  | command c => cases c <;> first | rfl | simp [isErasure, deletes?, Command.deletes?] at erasure
  | _ => rfl

end Event

section Throughout

variable {fits : Multiset Object → Event → Prop} {objects : Multiset Object} {es : List Event}

theorem throughout_of_forall (each : ∀ e ∈ es, ∀ objects, fits objects e) :
    Throughout fits objects es := by
  induction es generalizing objects with
  | nil => trivial
  | cons e es ih =>
    exact ⟨each e List.mem_cons_self objects, ih fun f member => each f (List.mem_cons_of_mem e member)⟩

/-- As long as nothing is made or deleted, the same objects are there. -/
theorem throughout_of_untouched (untouched : ∀ e ∈ es, e.creates? = none ∧ e.deletes? = none)
    (each : ∀ e ∈ es, fits objects e) : Throughout fits objects es := by
  induction es with
  | nil => trivial
  | cons e es ih =>
    obtain ⟨creates, deletes⟩ := untouched e List.mem_cons_self
    refine ⟨each e List.mem_cons_self, ?_⟩
    rw [liveAfter_other creates deletes]
    exact ih (fun f member => untouched f (List.mem_cons_of_mem e member))
      fun f member => each f (List.mem_cons_of_mem e member)

/-- What holds throughout holds of each event and the objects before it. -/
theorem Throughout.at {before after : List Event} {e : Event}
    (all : Throughout fits objects (before ++ e :: after)) : fits (before.foldl liveAfter objects) e :=
  (throughout_append.mp all).2.1

end Throughout

namespace World

/-- Each new event names objects that are there, or strays. -/
def Mentions (stray : Object → Prop) (w w' : World δ) : Prop :=
  ∃ es, w'.events = w.events ++ es ∧
    Throughout (fun objects e => e.Names fun o => o ∈ objects ∨ stray o) (live w.events) es

namespace Mentions

/-- Events that name nothing at all. -/
theorem nameless (run : Emits (fun e => e.names? = none) w w') : Mentions stray w w' := by
  obtain ⟨es, split, none⟩ := run
  refine ⟨es, split, throughout_of_forall fun e member objects o named => ?_⟩
  rw [none e member] at named
  simp at named

theorem silent (events : w'.events = w.events) : Mentions stray w w' := nameless (Emits.silent events)

theorem refl (w : World δ) : Mentions stray w w := silent rfl

theorem erasing (run : Emits (·.isErasure) w w') : Mentions stray w w' :=
  nameless (run.mono fun _ => Event.names?_of_isErasure)

theorem emit {act : δ → δ} {e : Event} (none : e.names? = none) : Mentions stray w (w.emit act e) :=
  nameless (Emits.emit none)

theorem trans (first : Mentions stray w w₁) (second : Mentions stray w₁ w₂) : Mentions stray w w₂ := by
  obtain ⟨es, split, early⟩ := first
  obtain ⟨fs, split', late⟩ := second
  refine ⟨es ++ fs, by rw [split', split, List.append_assoc], throughout_append.mpr ⟨early, ?_⟩⟩
  rwa [split, live_append] at late

theorem push {act : δ → δ} {e : Event} (run : Mentions stray w w₁) (none : e.names? = none) :
    Mentions stray w (w₁.emit act e) := run.trans (emit none)

theorem allocated [GraphicsDevice δ] (run : Mentions stray w w₁) (a : Allocation) :
    Mentions stray w (w₁.allocated a) := run.push rfl

/-- Events that neither make nor delete anything, and name what is there before them. -/
theorem steady (run : Emits (fun e => e.creates? = none ∧ e.deletes? = none) w w')
    (names : Emits (Event.Names fun o => o ∈ live w.events ∨ stray o) w w') : Mentions stray w w' := by
  obtain ⟨es, split, untouched⟩ := run
  obtain ⟨fs, split', named⟩ := names
  obtain rfl : es = fs := List.append_cancel_left (split.symm.trans split')
  exact ⟨es, split, throughout_of_untouched untouched named⟩

/-- Frames that name what is there before them. -/
theorem frame (run : Emits (·.isFrame) w w')
    (names : Emits (Event.Names fun o => o ∈ live w.events ∨ stray o) w w') : Mentions stray w w' :=
  steady (run.mono fun _ => Event.untouched_of_isFrame) names

theorem performAll [GraphicsDevice δ] {cs : List Command} (keep : ∀ c ∈ cs, c.deletes? = none)
    (named : ∀ c ∈ cs, ∀ o ∈ c.names?, o ∈ live w.events ∨ stray o) :
    Mentions stray w (w.performAll cs) :=
  steady (Emits.performAll fun c member => ⟨rfl, keep c member⟩) (Emits.performAll named)

end Mentions

theorem Kept.mem_live {rest : Multiset Object} {holds : Multiset Nat} (kept : Kept rest holds w)
    {o : Object} (mine : o ∈ rest) : o ∈ live w.events := by
  rw [kept.accounted.2]
  exact Multiset.mem_add.mpr (.inr mine)

end World

/-- The objects that a draw of the program names are known. -/
structure Program.Known (known : Object → Prop) (p : Program) : Prop where
  program : known ⟨.program, p.handle⟩
  vertexArray : known ⟨.vertexArray, p.bindings.vertexArray⟩
  updates : ∀ e ∈ p.bindings.queue.entries, ∀ o ∈ e.2.object?, known o

/-- The objects that draws into the render textures name are known, and the textures that surfaces
show. -/
structure World.Known (known : Object → Prop) (w : World δ) : Prop where
  framebuffers : ∀ t ∈ w.textures, known ⟨.framebuffer, t.2.framebuffer⟩
  programs : ∀ p ∈ w.programs, p.Known known
  sources : ∀ id h, w.textureOf? id = some h → known ⟨.texture, h⟩

section Known

variable {wider : Object → Prop}

theorem Program.Known.mono {p : Program} (fit : p.Known known) (widen : ∀ o, known o → wider o) :
    p.Known wider where
  program := widen _ fit.program
  vertexArray := widen _ fit.vertexArray
  updates := fun e member o mine => widen o (fit.updates e member o mine)

theorem World.Known.mono (fit : w.Known known) (widen : ∀ o, known o → wider o) : w.Known wider where
  framebuffers := fun t member => widen _ (fit.framebuffers t member)
  programs := fun p member => (fit.programs p member).mono widen
  sources := fun id h source => widen _ (fit.sources id h source)

theorem World.Known.tables (fit : w.Known known) (same : w.SameTables w') : w'.Known known := by
  obtain ⟨_, textures, surfaces⟩ := same
  constructor
  · rw [textures]
    exact fit.framebuffers
  · rw [World.programs, textures]
    exact fit.programs
  · intro id h source
    refine fit.sources id h ?_
    rw [← source]
    cases id <;> simp [World.textureOf?, World.texture?, World.surface, textures, surfaces]

end Known

namespace Update

theorem object?_frozen {u : Update} : u.frozen.object? = u.object? := by cases u <;> rfl

theorem object?_of_frozen {u v : Update} (same : u.frozen = v.frozen) : u.object? = v.object? := by
  rw [← object?_frozen, same, object?_frozen]

end Update

section Updates

variable [GraphicsDevice δ]

theorem AttributeUpdate.names_run {u : AttributeUpdate} (own : known ⟨.buffer, u.buffer⟩) :
    Emits (Event.Names known) w (u.run.run w).2 := by
  have looked : Emits (Event.Names known) w (w.looked u.value) := Emits.silent rfl
  rw [run_eq]
  refine looked.pushAll fun c member => ?_
  unfold commands at member
  split at member
  · split at member <;> simp at member <;> rcases member with rfl | rfl | rfl <;>
      simp [Event.Names, Event.names?, Command.names?, own]
  · simp at member

theorem ElementsUpdate.names_run {u : ElementsUpdate} (own : known ⟨.buffer, u.buffer⟩) :
    Emits (Event.Names known) w (u.run.run w).2 := by
  have looked : Emits (Event.Names known) w (w.looked u.value) := Emits.silent rfl
  rw [run_eq]
  refine looked.pushAll fun c member => ?_
  unfold commands at member
  split at member
  · simp at member
    rcases member with rfl | rfl <;> simp [Event.Names, Event.names?, Command.names?, own]
  · simp at member

theorem UniformUpdate.names_run {u : UniformUpdate} :
    Emits (Event.Names known) w (u.run.run w).2 := by
  have looked : Emits (Event.Names known) w (w.looked u.value) := Emits.silent rfl
  rw [run_eq]
  refine looked.pushAll fun c member => ?_
  simp only [commands, Option.mem_toList, Option.map_eq_some_iff] at member
  obtain ⟨push, _, rfl⟩ := member
  simp [Event.Names, Event.names?, Command.names?]

theorem SamplerUpdate.names_upload {u : SamplerUpdate} {data : HostArray} {c : Command}
    (member : c ∈ u.upload data) : c.names? = none := by
  unfold upload at member
  split at member
  · simp at member
  · split at member
    · simp at member
    · simp only [Option.mem_toList, Option.map_eq_some_iff] at member
      obtain ⟨image, _, rfl⟩ := member
      rfl

/-- A sampler names its own texture, or the one that its surface shows. -/
theorem SamplerUpdate.names_run {u : SamplerUpdate} (own : known ⟨.texture, u.texture⟩)
    (sources : ∀ id h, w.textureOf? id = some h → known ⟨.texture, h⟩) :
    Emits (Event.Names known) w (u.run.run w).2 := by
  have push : Event.Names known (.command u.unitPush) := by
    simp [Event.Names, Event.names?, Command.names?, unitPush]
  have start : Emits (Event.Names known) w ((w.perform (.activeTexture u.unit)).looked u.value) :=
    (Emits.emit (by simp [Event.Names, Event.names?, Command.names?])).trans (Emits.silent rfl)
  cases current : (w.perform (.activeTexture u.unit)).see u.value with
  | pixels data =>
    rw [run_pixels current]
    refine start.pushAll fun c member => ?_
    rcases List.mem_cons.mp member with rfl | member
    · simp [Event.Names, Event.names?, Command.names?, own]
    · rcases List.mem_append.mp member with upload | pushed
      · simp [Event.Names, Event.names?, names_upload upload]
      · rw [List.mem_singleton.mp pushed]
        exact push
  | surface id =>
    have shown : known ⟨.texture, (w.textureOf? id).getD u.texture⟩ := by
      cases source : w.textureOf? id with
      | none => exact own
      | some h => exact sources id h source
    have bound : Emits (Event.Names known) w
        (((w.perform (.activeTexture u.unit)).looked u.value).perform
          (.bindTexture (some ((w.textureOf? id).getD u.texture)))) :=
      start.push (by simp [Event.Names, Event.names?, Command.names?, shown])
    obtain ⟨handles, w', run, rfl | ⟨s, _, rfl⟩⟩ := run_surface current
    · rw [run]
      exact bound.push push
    · rw [run]
      exact (bound.trans (Emits.silent World.listen_events)).push push

theorem Update.names_ran {u : Update} {indices : Option IndexBuffer} (mine : ∀ o ∈ u.object?, known o)
    (sources : ∀ id h, w.textureOf? id = some h → known ⟨.texture, h⟩) :
    Emits (Event.Names known) w (u.ran indices w).2 := by
  cases u with
  | attributes u => exact AttributeUpdate.names_run (mine _ rfl)
  | elements u =>
    rw [ran_elements]
    exact ElementsUpdate.names_run (mine _ rfl)
  | uniform u => exact UniformUpdate.names_run
  | sampler u => exact SamplerUpdate.names_run (mine _ rfl) sources

theorem UpdateQueue.names_ran {entries : List (BindingSlot × Update)} {indices : Option IndexBuffer}
    (mine : ∀ e ∈ entries, ∀ o ∈ e.2.object?, known o)
    (sources : ∀ id h, w.textureOf? id = some h → known ⟨.texture, h⟩) :
    Emits (Event.Names known) w (UpdateQueue.ran entries indices w).2 := by
  induction entries generalizing indices w with
  | nil => exact Emits.refl w
  | cons entry rest ih =>
    have run : Extends (·.isUpdate) RenderTexture.bare w (entry.2.ran indices w).2 :=
      Update.extends_ran
    rw [UpdateQueue.ran_cons]
    refine (Update.names_ran (mine entry List.mem_cons_self) sources).trans (ih ?_ ?_)
    · exact fun e member => mine e (List.mem_cons_of_mem entry member)
    · rw [run.coarsen.textureOf?]
      exact sources

end Updates

namespace Program

variable {p : Program}

/-- What a program names does not depend on what its updates remember. -/
theorem Known.of_frozen {p' : Program} (same : p'.frozen = p.frozen) (fit : p.Known known) :
    p'.Known known := by
  obtain ⟨handle, vertexArray⟩ := handles_of_frozen same
  constructor
  · rw [handle]
    exact fit.program
  · rw [vertexArray]
    exact fit.vertexArray
  · intro e' member o mine
    obtain ⟨e, there, _, update⟩ := UpdateQueue.exists_frozen (entries_of_frozen same) e' member
    rw [Update.object?_of_frozen update] at mine
    exact fit.updates e there o mine

variable [GraphicsDevice δ]

theorem names_render (fit : p.Known known)
    (sources : ∀ id h, w.textureOf? id = some h → known ⟨.texture, h⟩) :
    Emits (Event.Names known) w (p.render.run w).2 := by
  have readied : Emits (Event.Names known) w (p.readied w) := by
    refine (Emits.emit ?_).push ?_
    · simp [Event.Names, Event.names?, Command.names?, fit.program]
    · simp [Event.Names, Event.names?, Command.names?, fit.vertexArray]
  have updated : Emits (Event.Names known) (p.readied w) (p.bindings.flush.run (p.readied w)).2 := by
    rw [Bindings.run_flush]
    exact UpdateQueue.names_ran fit.updates sources
  have hooked : Emits (Event.Names known) w (p.before w) := by
    refine (readied.trans updated).trans ?_
    unfold before World.hooked
    split
    · exact Emits.emit (by simp [Event.Names, Event.names?])
    · exact Emits.refl _
  have drawn : ∀ c ∈ p.drawCommands (p.flushed w).bindings.elements, c.names? = none := by
    unfold drawCommands
    split <;> simp [Command.names?]
  rw [run_render]
  refine (hooked.pushAll fun c member => ?_).push ?_
  · simp [Event.Names, Event.names?, drawn c member]
  · simp [Event.Names, Event.names?, Command.names?]

theorem names_renderAll {ps : List Program} (fit : ∀ p ∈ ps, p.Known known)
    (sources : ∀ id h, w.textureOf? id = some h → known ⟨.texture, h⟩) :
    Emits (Event.Names known) w ((renderAll ps).run w).2 := by
  induction ps generalizing w with
  | nil => exact Emits.refl w
  | cons p ps ih =>
    have run : Extends (·.isFrame) RenderTexture.bare w (p.render.run w).2 := extends_render
    rw [renderAll_cons]
    refine (names_render (fit p List.mem_cons_self) sources).trans (ih ?_ ?_)
    · exact fun q member => fit q (List.mem_cons_of_mem p member)
    · rw [run.coarsen.textureOf?]
      exact sources

theorem frozen_render : (p.render.run w).1.frozen = p.frozen := by
  rw [run_render]
  exact frozen_flushed

theorem frozen_renderAll {ps : List Program} :
    ((renderAll ps).run w).1.map frozen = ps.map frozen := by
  induction ps generalizing w with
  | nil => rfl
  | cons p ps ih =>
    rw [renderAll_cons, List.map_cons, List.map_cons, ih, frozen_render]

end Program

/-- A target without what frames count, and its programs without what their updates remember. -/
def RenderTexture.frozen (t : RenderTexture) : RenderTexture :=
  { t with programs := t.programs.map Program.frozen, generation := 0, listeners := [] }

namespace World

namespace Extends

variable {allowed : Event → Prop}

theorem freeze (run : Extends allowed RenderTexture.bare w w') :
    Extends allowed RenderTexture.frozen w w' := by
  refine ⟨run.events, ?_, run.surfaces, run.nextKey⟩
  have views := congrArg (List.map (Prod.map id RenderTexture.frozen)) run.textures
  have hidden : (Prod.map id RenderTexture.frozen ∘ Prod.map id RenderTexture.bare :
      Nat × RenderTexture → Nat × RenderTexture) = Prod.map id RenderTexture.frozen := rfl
  rwa [List.map_map, List.map_map, hidden] at views

/-- A program of a target is found again after the run, up to what its updates remember. -/
theorem exists_program (run : Extends allowed RenderTexture.frozen w w') {p' : Program}
    (member : p' ∈ w'.programs) : ∃ p ∈ w.programs, p'.frozen = p.frozen := by
  obtain ⟨t', here, mine⟩ := List.mem_flatMap.mp member
  obtain ⟨t, there, same⟩ := run.exists_entry here
  have programs : t'.2.programs.map Program.frozen = t.2.programs.map Program.frozen :=
    congrArg RenderTexture.programs same
  obtain ⟨p, own, frozen⟩ := exists_of_map_eq programs mine
  exact ⟨p, List.mem_flatMap.mpr ⟨t, there, own⟩, frozen⟩

end Extends

/-- What is known of the targets is known of them after a frame. -/
theorem Known.extend {allowed : Event → Prop} (fit : w.Known known)
    (run : Extends allowed RenderTexture.frozen w w') : w'.Known known := by
  constructor
  · intro t' here
    obtain ⟨t, there, same⟩ := run.exists_entry here
    have framebuffer := congrArg RenderTexture.framebuffer same
    change t'.2.framebuffer = t.2.framebuffer at framebuffer
    rw [framebuffer]
    exact fit.framebuffers t there
  · intro p' member
    obtain ⟨p, there, same⟩ := run.exists_program member
    exact (fit.programs p there).of_frozen same
  · intro id h source
    refine fit.sources id h ?_
    rw [← source]
    cases id with
    | renderTexture key =>
      have same := congrArg (Option.map RenderTexture.texture) (run.texture? key)
      rw [Option.map_map, Option.map_map] at same
      exact same.symm
    | external name => exact (run.surfaces name).symm

end World

variable [GraphicsDevice δ]

namespace RenderTexture

theorem freeze_drawnInto {key : Nat} {t : RenderTexture} (present : w.texture? key = some t) :
    Extends (·.isFrame) frozen w (drawnInto key t w) := by
  have drawn : Extends (·.isFrame) bare w ((Program.renderAll t.programs).run (t.opened w)).2 :=
    extends_drawn
  refine drawn.freeze.trans (Extends.altered fun t' present' => ?_)
  obtain ⟨found, present'', same⟩ := drawn.exists_texture present
  rw [present'] at present''
  obtain rfl := Option.some.inj present''
  have programs : t'.bare.programs = t.bare.programs := congrArg RenderTexture.programs same
  change t'.programs = t.programs at programs
  simp only [frozen, Program.frozen_renderAll, programs]

theorem freeze_renderInto {key : Nat} {restore : Option Handle} {width height : UInt32} :
    Extends (·.isFrame) frozen w ((renderInto key restore width height).run w).2 := by
  cases present : w.texture? key with
  | none =>
    rw [run_renderInto_missing present]
    exact Extends.refl w
  | some t =>
    have closed (w : World δ) : Extends (·.isFrame) frozen w (closed key restore width height w) := by
      refine (Extends.performAll ?_).trans (Extends.altered fun _ _ => rfl)
      simp [Event.isFrame, Command.isFrame]
    rw [run_renderInto present]
    exact ((freeze_drawnInto present).trans (closed _)).trans Extends.notify

/-- Drawing into a target names its framebuffer, the one to go back to, and what its programs name. -/
theorem names_renderInto {key : Nat} {restore : Option Handle} {width height : UInt32}
    (fit : w.Known known) (back : ∀ h ∈ restore, known ⟨.framebuffer, h⟩) :
    Emits (Event.Names known) w ((renderInto key restore width height).run w).2 := by
  cases present : w.texture? key with
  | none =>
    rw [run_renderInto_missing present]
    exact Emits.refl w
  | some t =>
    have there := mem_of_lookup present
    have target : known ⟨.framebuffer, t.framebuffer⟩ := fit.framebuffers _ there
    have opened : Emits (Event.Names known) w (t.opened w) :=
      Emits.performAll (by simp [Event.Names, Event.names?, Command.names?, target])
    have ready : Extends (·.isFrame) frozen w (t.opened w) := extends_opened
    have drawn : Emits (Event.Names known) (t.opened w)
        ((Program.renderAll t.programs).run (t.opened w)).2 := by
      refine Program.names_renderAll (fun p member => ?_) (fit.extend ready).sources
      exact fit.programs p (List.mem_flatMap.mpr ⟨_, there, member⟩)
    have closed (w : World δ) : Emits (Event.Names known) w (closed key restore width height w) := by
      refine (Emits.performAll fun c member => ?_).trans (Emits.silent World.events_altered)
      rcases List.mem_pair.mp member with rfl | rfl
      · intro o named
        obtain ⟨h, same, rfl⟩ := Option.map_eq_some_iff.mp named
        exact back h same
      · simp [Event.Names, Event.names?, Command.names?]
    have returned : Emits (Event.Names known) w (drawnInto key t w) :=
      (opened.trans drawn).trans (Emits.silent World.events_altered)
    rw [run_renderInto present]
    exact (returned.trans (closed _)).trans (Emits.silent World.events_notify)

theorem names_render {key : Nat} (fit : w.Known known) :
    Emits (Event.Names known) w ((render key).run w).2 := by
  cases present : w.texture? key with
  | none =>
    rw [run_render_missing present]
    exact Emits.refl w
  | some t =>
    rw [run_render present]
    exact names_renderInto fit (by simp)

theorem freeze_render {key : Nat} : Extends (·.isFrame) frozen w ((render key).run w).2 := by
  cases present : w.texture? key with
  | none =>
    rw [run_render_missing present]
    exact Extends.refl w
  | some t =>
    rw [run_render present]
    exact freeze_renderInto

end RenderTexture

namespace Stack

variable {framebuffer : Option Handle} {width height : UInt32}

theorem freeze_layered {layers : List Nat} :
    Extends (·.isFrame) RenderTexture.frozen w (layered framebuffer width height layers w) := by
  induction layers generalizing w with
  | nil => exact Extends.refl w
  | cons key rest ih => exact RenderTexture.freeze_renderInto.trans ih

theorem names_layered {layers : List Nat} (fit : w.Known known)
    (target : ∀ h ∈ framebuffer, known ⟨.framebuffer, h⟩) :
    Emits (Event.Names known) w (layered framebuffer width height layers w) := by
  induction layers generalizing w with
  | nil => exact Emits.refl w
  | cons key rest ih =>
    have run : Extends (·.isFrame) RenderTexture.frozen w
        ((RenderTexture.renderInto key framebuffer width height).run w).2 :=
      RenderTexture.freeze_renderInto
    exact (RenderTexture.names_renderInto fit target).trans (ih (fit.extend run))

theorem freeze_renderTo {s : Stack} :
    Extends (·.isFrame) RenderTexture.frozen w ((s.renderTo framebuffer width height).run w).2 := by
  rw [run_renderTo]
  exact ((extends_targeted.trans freeze_layered).trans Program.extends_renderAll.freeze).trans
    Extends.setRequests

theorem frozen_renderTo {s : Stack} :
    ((s.renderTo framebuffer width height).run w).1.programs.map Program.frozen =
      s.programs.map Program.frozen := by
  rw [run_renderTo]
  exact Program.frozen_renderAll

/-- A frame names its target, the targets of the layers and what the programs name. -/
theorem names_renderTo {s : Stack} (width height : UInt32) (fit : w.Known known)
    (own : ∀ p ∈ s.programs, p.Known known)
    (target : ∀ h ∈ framebuffer, known ⟨.framebuffer, h⟩) :
    Emits (Event.Names known) w ((s.renderTo framebuffer width height).run w).2 := by
  have aimed : Emits (Event.Names known) w (targeted framebuffer width height w) := by
    unfold targeted
    split
    · refine Emits.performAll fun c member => ?_
      rcases List.mem_pair.mp member with rfl | rfl
      · intro o named
        obtain ⟨h, same, rfl⟩ := Option.map_eq_some_iff.mp named
        exact target h same
      · simp [Event.Names, Event.names?, Command.names?]
    · exact Emits.refl w
  have ready : Extends (·.isFrame) RenderTexture.frozen w (targeted framebuffer width height w) :=
    extends_targeted
  have fit' := fit.extend ready
  have layers : Extends (·.isFrame) RenderTexture.frozen (targeted framebuffer width height w)
      (layered framebuffer width height s.layers (targeted framebuffer width height w)) :=
    freeze_layered
  rw [run_renderTo]
  exact ((aimed.trans (names_layered fit' target)).trans
    (Program.names_renderAll own (fit'.extend layers).sources)).trans (Emits.silent rfl)

end Stack

section Making

open World (Mentions)

variable {rest : Multiset Object} {holds : Multiset Nat}

/-- Commands that name what one has at hand. -/
theorem World.Kept.mentions (cs : List Command) (kept : Kept rest holds w)
    (keep : ∀ c ∈ cs, c.deletes? = none) (mine : ∀ c ∈ cs, ∀ o ∈ c.names?, o ∈ rest) :
    Mentions stray w (w.performAll cs) :=
  Mentions.performAll keep fun c member o named => .inl (kept.mem_live (mine c member o named))

theorem RenderTexture.mentions_make {width height : UInt32} (stray : Object → Prop) (kept : Kept rest holds w) :
    (make width height : Attempt δ Nat).Ends w (fun _ w' => Mentions stray w w')
      (fun _ w' => Mentions stray w w') := by
  rw [ends_make]
  split
  · exact Mentions.refl w
  · have asked : Mentions stray w (w.allocated .texture) := (Mentions.refl w).allocated .texture
    refine ⟨fun texture granted => ?_, fun e _ => asked⟩
    have plain : ∀ c ∈ storage texture width height, c.deletes? = none := by
      simp [storage, Command.deletes?]
    have made := kept.allocated granted
    have stored := asked.trans (made.mentions _ plain
      (by simp [storage, Command.names?, Allocation.kind]))
    refine ⟨fun framebuffer granted' => ?_, fun e _ => (stored.allocated .framebuffer).push rfl⟩
    have whole := (made.performAll _ plain).allocated granted'
    have attached := (stored.allocated .framebuffer).trans (whole.mentions
      [.bindFramebuffer (some framebuffer), .framebufferTexture texture]
      (by simp [Command.deletes?]) (by simp [Command.names?, Allocation.kind]))
    dsimp only
    split
    · refine Mentions.trans ?_ (Mentions.erasing (Emits.performAll ?_))
      · exact (attached.push rfl).push rfl
      · simp [Event.isErasure, Event.deletes?, Command.deletes?]
    · exact ((attached.push rfl).push rfl).trans (Mentions.silent rfl)

/-- A readback target is made in names that are given out for it. -/
theorem Stack.mentions_makeTarget {internal : InternalFormat} {width height : UInt32}
    (stray : Object → Prop) (kept : Kept rest holds w) :
    (makeTarget internal width height).Ends w (fun _ w' => Mentions stray w w')
      (fun _ w' => Mentions stray w w') := by
  rw [ends_makeTarget]
  have asked : Mentions stray w (w.allocated .renderbuffer) :=
    (Mentions.refl w).allocated .renderbuffer
  refine ⟨fun renderbuffer granted => ?_, fun e _ => asked⟩
  have made := kept.allocated granted
  have stored := asked.trans (made.mentions
    [.renderbufferStorage renderbuffer internal width height]
    (by simp [Command.deletes?]) (by simp [Command.names?, Allocation.kind]))
  refine ⟨fun framebuffer granted' => ?_, fun e _ => (stored.allocated .framebuffer).push rfl⟩
  have whole := (made.performed (c := .renderbufferStorage renderbuffer internal width height)
    rfl).allocated granted'
  have attached := (stored.allocated .framebuffer).trans (whole.mentions
    [.bindFramebuffer (some framebuffer), .framebufferRenderbuffer renderbuffer]
    (by simp [Command.deletes?]) (by simp [Command.names?, Allocation.kind]))
  dsimp only
  split
  · refine (attached.push rfl).trans (Mentions.nameless (Emits.performAll ?_))
    simp [Event.names?, Command.names?]
  · exact attached.push rfl

/-- A readback is drawn into a target of the stack, and draws the programs that were there. -/
theorem Stack.tables_bindTarget {s : Stack} {c : ReadConfig} {width height : UInt32}
    (kept : Kept rest holds w) :
    (bindTarget c width height s).Ends w
      (fun answer w' => w.SameTables w' ∧ answer.2.programs = s.programs ∧
        s.owns ≤ answer.2.owns ∧ ⟨.framebuffer, answer.1⟩ ∈ answer.2.owns)
      (fun _ w' => w.SameTables w') := by
  rw [ends_bindTarget]
  cases found : s.targets.lookup (c.resolve width height) with
  | some target =>
    refine ⟨⟨rfl, rfl, rfl⟩, rfl, le_refl _, ?_⟩
    apply Multiset.mem_add.mpr
    left
    apply Multiset.mem_add.mpr
    right
    exact mem_sum_owned (mem_of_lookup found) (by simp [ReadTarget.owns])
  | none =>
    refine (mounted_makeTarget kept).imp ?_ fun _ _ failed => failed.1
    rintro target w' ⟨tables, _⟩
    refine ⟨tables, rfl, ?_, ?_⟩
    · rw [owns_targets_append]
      exact Multiset.le_add_left _ _
    · rw [owns_targets_append]
      simp [ReadTarget.owns]

theorem Stack.mentions_bindTarget {s : Stack} {c : ReadConfig} {width height : UInt32}
    (stray : Object → Prop) (kept : Kept (s.owns + rest) holds w) :
    (bindTarget c width height s).Ends w (fun _ w' => Mentions stray w w')
      (fun _ w' => Mentions stray w w') := by
  rw [ends_bindTarget]
  cases found : s.targets.lookup (c.resolve width height) with
  | some target =>
    have mine : ⟨.framebuffer, target.framebuffer⟩ ∈ (s.targets.map fun t => t.2.owns).sum :=
      mem_sum_owned (mem_of_lookup found) (by simp [ReadTarget.owns])
    refine kept.mentions [.bindFramebuffer (some target.framebuffer)] ?_ ?_
    · simp [Command.deletes?]
    · simp [Command.names?, Stack.owns, mine]
  | none => exact mentions_makeTarget stray kept

/-- What a readback leaves of the programs. -/
theorem Stack.freeze_read {s : Stack} {c : ReadConfig} (kept : Kept rest holds w) :
    (s.read c).Ends w
      (fun answer w' => answer.2.programs.map Program.frozen = s.programs.map Program.frozen ∧
        ∃ w₁, w.SameTables w₁ ∧ Extends (fun _ => True) RenderTexture.frozen w₁ w')
      (fun _ w' => w.SameTables w') := by
  rw [ends_read]
  dsimp only
  split
  · exact ⟨rfl, rfl, rfl⟩
  · refine (tables_bindTarget kept).imp ?_ fun _ _ failed => failed
    rintro ⟨framebuffer, bound⟩ w' ⟨tables, programs, _⟩
    dsimp only at programs ⊢
    have drawing : Extends (·.isFrame) RenderTexture.frozen (w'.perform (.clear .opaqueBlack .one))
        ((bound.renderTo (some framebuffer) (c.width.getD s.width) (c.height.getD s.height)).run
          (w'.perform (.clear .opaqueBlack .one))).2 := freeze_renderTo
    have shown := drawing.mono fun _ _ => trivial
    refine ⟨by rw [frozen_renderTo, programs], w', tables, ?_⟩
    exact ((Extends.step.trans shown).trans Extends.step).trans (Extends.performAll fun _ _ => trivial)

/-- A readback names what a frame names, and its target. -/
theorem Stack.mentions_read {s : Stack} {c : ReadConfig} (kept : Kept (s.owns + rest) holds w)
    (fit : w.Known fun o => o ∈ live w.events ∨ stray o)
    (own : ∀ p ∈ s.programs, p.Known fun o => o ∈ live w.events ∨ stray o) :
    (s.read c).Ends w (fun _ w' => Mentions stray w w') (fun _ w' => Mentions stray w w') := by
  rw [ends_read]
  dsimp only
  split
  · exact Mentions.refl w
  · refine (((mentions_bindTarget stray kept).and (tables_bindTarget kept)).and
      (kept_bindTarget kept)).imp ?_ fun _ _ failed => failed.1.1
    rintro ⟨framebuffer, bound⟩ w' ⟨⟨mentions, tables, programs, grown, mine⟩, kept', _⟩
    dsimp only at programs grown mine kept' ⊢
    have cleared := kept'.performed (c := .clear .opaqueBlack .one) rfl
    generalize start : w'.perform (.clear .opaqueBlack .one) = w₁ at cleared
    have same : w.SameTables w₁ := by
      rw [← start]
      exact tables
    have widen (o : Object) (there : o ∈ live w.events ∨ stray o) : o ∈ live w₁.events ∨ stray o := by
      refine there.imp_left fun early => ?_
      have owned : w₁.owns = w.owns := by rw [World.owns, same.2.1, World.owns]
      rw [cleared.accounted.2, owned]
      rw [kept.accounted.2] at early
      exact Multiset.mem_of_le (add_le_add_right (add_le_add_left grown rest) w.owns) early
    have target : ∀ h ∈ some framebuffer, ⟨.framebuffer, h⟩ ∈ live w₁.events ∨ stray ⟨.framebuffer, h⟩ := by
      intro h same
      obtain rfl := Option.some.inj same
      exact .inl (cleared.mem_live (Multiset.mem_add.mpr (.inl mine)))
    have named := names_renderTo (c.width.getD s.width) (c.height.getD s.height)
      ((fit.mono widen).tables same) (fun p member => (own p (programs ▸ member)).mono widen) target
    have drawing : Extends (·.isFrame) RenderTexture.frozen w₁
        ((bound.renderTo (some framebuffer) (c.width.getD s.width) (c.height.getD s.height)).run
          w₁).2 := freeze_renderTo
    have opened : Mentions stray w w₁ := start ▸ mentions.push rfl
    have drawn := opened.trans (Mentions.frame drawing.events named)
    refine (drawn.push rfl).trans (Mentions.nameless (Emits.performAll ?_))
    simp [Event.names?, Command.names?]

/-- Binding names the vertex array of the program and what is allocated on the way. -/
theorem World.Kept.mentions_path {b b' : Bindings} (kept : Kept (b.owns + rest) holds w)
    (path : Binder.Path (b, w) (b', w')) : Mentions stray w w' := by
  have walk (q : Bindings × World δ) (path : Binder.Path (b, w) q) : Mentions stray w q.2 := by
    induction path with
    | refl => exact Mentions.refl w
    | @tail q _ before step ih =>
      have here : Kept (q.1.owns + rest) holds q.2 := (kept.path before).1
      have array : ⟨.vertexArray, q.1.vertexArray⟩ ∈ q.1.owns := by simp [Bindings.owns]
      refine ih.trans ?_
      cases step with
      | note _ _ _ => exact Mentions.refl _
      | lookup l => exact Mentions.emit rfl
      | look value => exact Mentions.silent rfl
      | listen id s _ => exact Mentions.silent World.listen_events
      | refused _ _ => exact Mentions.emit rfl
      | buffer granted target data pointers =>
        refine ((Mentions.refl _).allocated .buffer).trans ((here.allocated granted).mentions _ ?_ ?_)
        all_goals
          intro c member
          simp only [Binder.fill, List.mem_append, List.mem_cons, List.mem_map, List.not_mem_nil,
            or_false] at member
          rcases member with (rfl | rfl | rfl) | ⟨pointer, _, rfl⟩ | rfl <;>
            simp [Command.deletes?, Command.names?, Allocation.kind, array]
      | texture granted unit parameters =>
        refine ((Mentions.refl _).allocated .texture).trans ((here.allocated granted).mentions _ ?_ ?_)
        · simp [Binder.seat, Command.deletes?]
        · simp [Binder.seat, Command.names?, Allocation.kind]
  exact walk (b', w') path

theorem ProgramCache.mentions_bind {handle : Handle} {owned : Bool} (stray : Object → Prop) (redraw : RedrawKey)
    (vertex fragment : CompiledShader) (config : ProgramConfig)
    (kept : Kept ((if owned then {⟨.program, handle⟩} else 0) + rest) holds w) :
    (bind handle owned redraw vertex fragment config).Ends w (fun _ w' => Mentions stray w w')
      (fun _ w' => Mentions stray w w') := by
  have asked : Mentions stray w (w.allocated .vertexArray) := (Mentions.refl w).allocated .vertexArray
  rw [ends_bind]
  refine ⟨fun vertexArray granted => ?_, fun e _ => ?_⟩
  · have start := kept.started handle granted
    refine (Binder.follows_bindAll _ _ _ .refl).imp ?_ ?_
    · exact fun _ b w' path => asked.trans (start.mentions_path path)
    · exact fun _ b w' path =>
        (asked.trans (start.mentions_path path)).trans (Mentions.erasing Program.erases_drop)
  · split
    · exact asked.push rfl
    · exact asked

theorem ProgramCache.mentions_compile {cache : ProgramCache} (redraw : RedrawKey)
    (vertex fragment : CompiledShader) (config : ProgramConfig)
    (kept : Kept (cache.owns + rest) holds w) :
    Mentions stray w ((cache.compile redraw vertex fragment config).run w).2 := by
  rw [run_compile]
  cases checkSharedNames vertex fragment with
  | error e => exact Mentions.refl w
  | ok fit =>
    have asked : Mentions stray w ((cache.link vertex fragment config.cached).run w).2 := by
      rw [run_link]
      split
      · exact Mentions.refl w
      · dsimp only
        split <;> exact (Mentions.refl w).allocated _
    have linked := kept_link vertex fragment config.cached kept
    dsimp only
    generalize (cache.link vertex fragment config.cached).run w = answer at asked linked
    obtain ⟨⟨e | ⟨handle, owned⟩, cache'⟩, w'⟩ := answer
    · exact asked
    · have built := mentions_bind stray redraw vertex fragment config linked
      unfold Attempt.Ends at built
      dsimp only at asked ⊢
      generalize (bind handle owned redraw vertex fragment config).run.run w' = answer at built
      obtain ⟨e | p, w''⟩ := answer <;> exact asked.trans built

end Making
end ShaderStack

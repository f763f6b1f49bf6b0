import ShaderStack.Proofs.Mounts

/-! What renderbuffers store, and which framebuffers draw into them.

The graphics state leaves this out, because no texture comes of it. A readback target is a framebuffer
with a renderbuffer of its own; what is done to other objects leaves the target as it is. -/
namespace ShaderStack

open World (Emits Kept)

variable {δ : Type} {w w' w₁ : World δ} {kept : Object → Prop} {t : ReadTarget} {key : ReadConfig}

/-- The format and the size of an image. -/
structure Storage where
  internal : InternalFormat
  width : UInt32
  height : UInt32
  deriving DecidableEq, Repr

/-- What a configuration with its size made explicit is read from. -/
def ReadConfig.storage (c : ReadConfig) : Option Storage := do
  return ⟨c.internalFormat, ← c.width, ← c.height⟩

/-- A graphics state together with its renderbuffers. -/
structure OffscreenState where
  graphics : GraphicsState := {}
  storages : Handle → Option Storage := fun _ => none
  /-- The renderbuffers that framebuffers draw into. -/
  carried : Handle → Option Handle := fun _ => none

namespace OffscreenState

open Function (update)

/-- The renderbuffer that draws go to. -/
def target? (o : OffscreenState) : Option Handle := o.graphics.framebuffer.bind o.carried

/-- The storage that draws go to and pixels are read from. -/
def image (o : OffscreenState) : Option Storage := o.target?.bind o.storages

/-- A framebuffer or a renderbuffer is as it is when it is new. -/
def reset (object : Object) (o : OffscreenState) : OffscreenState :=
  match object.kind with
  | .framebuffer => { o with carried := update o.carried object.handle none }
  | .renderbuffer => { o with storages := update o.storages object.handle none }
  | _ => o

/-- The framebuffer that is bound draws into a renderbuffer, or into none. -/
def carry (renderbuffer : Option Handle) (o : OffscreenState) : OffscreenState :=
  match o.graphics.framebuffer with
  | some framebuffer => { o with carried := update o.carried framebuffer renderbuffer }
  | none => o

/-- What becomes of the renderbuffers. One that is deleted also leaves the framebuffer that is
bound. -/
def rearranged (e : Event) (o : OffscreenState) : OffscreenState :=
  match e with
  | .allocation a (.ok h) => o.reset ⟨a.kind, h⟩
  | .command (.renderbufferStorage renderbuffer internal width height) =>
    { o with storages := update o.storages renderbuffer (some ⟨internal, width, height⟩) }
  | .command (.framebufferRenderbuffer renderbuffer) => o.carry (some renderbuffer)
  | .command (.framebufferTexture _) => o.carry none
  | .command (.deleteFramebuffer h) => o.reset ⟨.framebuffer, h⟩
  | .command (.deleteRenderbuffer h) =>
    (o.carry (GraphicsState.without h o.target?)).reset ⟨.renderbuffer, h⟩
  | _ => o

def after (o : OffscreenState) (e : Event) : OffscreenState :=
  { o.rearranged e with graphics := o.graphics.after e }

end OffscreenState

/-- The state that everything up to now has led to. -/
def World.offscreen (w : World δ) : OffscreenState := w.events.foldl OffscreenState.after {}

namespace World

theorem offscreen_append {es : List Event} (split : w'.events = w.events ++ es) :
    w'.offscreen = es.foldl OffscreenState.after w.offscreen := by
  rw [offscreen, split, List.foldl_append]
  rfl

@[simp] theorem offscreen_emit {act : δ → δ} {e : Event} :
    (w.emit act e).offscreen = w.offscreen.after e := by
  simp [offscreen]

theorem offscreen_of_events (events : w'.events = w.events) : w'.offscreen = w.offscreen := by
  rw [offscreen, events]
  rfl

@[simp] theorem offscreen_performAll [GraphicsDevice δ] {cs : List Command} :
    (w.performAll cs).offscreen = cs.foldl (fun o c => o.after (.command c)) w.offscreen := by
  induction cs generalizing w with
  | nil => rfl
  | cons c cs ih => simp [ih]

/-- Beside the renderbuffers, the state is the graphics state. -/
theorem graphics_offscreen (w : World δ) : w.offscreen.graphics = w.graphics := by
  have walk (es : List Event) (o : OffscreenState) :
      (es.foldl OffscreenState.after o).graphics = es.foldl GraphicsState.after o.graphics := by
    induction es generalizing o with
    | nil => rfl
    | cons e es ih => exact ih (o.after e)
  exact walk w.events {}

end World

/-- The target's framebuffer draws into its renderbuffer, which stores what the configuration asks
for. -/
structure ReadTarget.Fits (t : ReadTarget) (key : ReadConfig) (o : OffscreenState) : Prop where
  carried : o.carried t.framebuffer = some t.renderbuffer
  stored : o.storages t.renderbuffer = key.storage

/-- The event is about one of the target's objects. -/
def Event.Touches (e : Event) (t : ReadTarget) (o : OffscreenState) : Prop :=
  match e with
  | .allocation a (.ok h) => (⟨a.kind, h⟩ : Object) ∈ t.owns
  | .command (.renderbufferStorage h _ _ _) => h = t.renderbuffer
  | .command (.framebufferTexture _) | .command (.framebufferRenderbuffer _) =>
    o.graphics.framebuffer = some t.framebuffer
  | .command c => ∃ object, c.deletes? = some object ∧ object ∈ t.owns
  | _ => False

namespace ReadTarget

variable {o : OffscreenState}

theorem mem_owns {object : Object} : object ∈ t.owns ↔
    object = ⟨.framebuffer, t.framebuffer⟩ ∨ object = ⟨.renderbuffer, t.renderbuffer⟩ := by
  simp [owns]

theorem Fits.image (fits : t.Fits key o) (bound : o.graphics.framebuffer = some t.framebuffer) :
    o.image = key.storage := by
  simp [OffscreenState.image, OffscreenState.target?, bound, fits.carried, fits.stored]

theorem Fits.reset {object : Object} (fits : t.Fits key o) (other : object ∉ t.owns) :
    t.Fits key (o.reset object) := by
  obtain ⟨kind, h⟩ := object
  rw [mem_owns, not_or] at other
  constructor
  · have same := fits.carried
    cases kind <;> simp_all [OffscreenState.reset, eq_comm]
  · have same := fits.stored
    cases kind <;> simp_all [OffscreenState.reset, eq_comm]

theorem Fits.carry {renderbuffer : Option Handle} (fits : t.Fits key o)
    (other : o.graphics.framebuffer = some t.framebuffer → renderbuffer = some t.renderbuffer) :
    t.Fits key (o.carry renderbuffer) := by
  unfold OffscreenState.carry
  split
  · next framebuffer bound =>
    refine ⟨?_, fits.stored⟩
    by_cases same : t.framebuffer = framebuffer
    · subst same
      simpa using other bound
    · simpa [Function.update_apply, same] using fits.carried
  · exact fits

/-- What mounts nothing touches no target. -/
theorem not_touches {e : Event} (idle : e.isMounting = false) : ¬ e.Touches t o := by
  intro touched
  cases e with
  | allocation a answer =>
    cases answer with
    | ok h =>
      have mine := mem_owns.mp touched
      simp_all [Event.isMounting]
    | error e => exact touched
  | command c =>
    cases c with
    | renderbufferStorage _ _ _ _ | framebufferTexture _ | framebufferRenderbuffer _
    | deleteFramebuffer _ | deleteRenderbuffer _ => exact Bool.noConfusion idle
    | _ =>
      obtain ⟨object, deletes, mine⟩ := touched
      rcases mem_owns.mp mine with rfl | rfl <;> simp [Command.deletes?] at deletes
  | _ => exact touched

/-- A target fits as long as nothing touches it. -/
theorem Fits.after {e : Event} (fits : t.Fits key o) (apart : ¬ e.Touches t o) :
    t.Fits key (o.after e) := by
  suffices rearranged : t.Fits key (o.rearranged e) from ⟨rearranged.carried, rearranged.stored⟩
  cases e with
  | allocation a answer =>
    cases answer with
    | ok h => exact fits.reset apart
    | error e => exact fits
  | command c =>
    cases c with
    | renderbufferStorage h internal width height =>
      refine ⟨fits.carried, ?_⟩
      have other : t.renderbuffer ≠ h := fun same => apart same.symm
      simpa [OffscreenState.rearranged, Function.update_apply, other] using fits.stored
    | framebufferTexture _ | framebufferRenderbuffer _ =>
      exact fits.carry fun bound => absurd bound apart
    | deleteFramebuffer h => exact fits.reset fun mine => apart ⟨_, rfl, mine⟩
    | deleteRenderbuffer h =>
      have other : (⟨.renderbuffer, h⟩ : Object) ∉ t.owns := fun mine => apart ⟨_, rfl, mine⟩
      refine (fits.carry fun bound => ?_).reset other
      have mounted : o.target? = some t.renderbuffer := by
        simp [OffscreenState.target?, bound, fits.carried]
      rw [mounted]
      refine if_neg fun same => other (mem_owns.mpr (.inr ?_))
      rw [Option.some.inj same]
    | _ => exact fits
  | _ => exact fits

end ReadTarget

namespace World

/-- The targets whose objects are kept fit as before. -/
def Upholds (kept : Object → Prop) (w w' : World δ) : Prop :=
  ∀ (t : ReadTarget) (key : ReadConfig), (∀ o ∈ t.owns, kept o) → t.Fits key w.offscreen →
    t.Fits key w'.offscreen

theorem Emits.upholds {allowed : Event → Prop} (run : Emits allowed w w')
    (each : ∀ e o t, allowed e → (∀ x ∈ t.owns, kept x) → ¬ e.Touches t o) : Upholds kept w w' := by
  obtain ⟨es, split, all⟩ := run
  intro t key keep fits
  rw [offscreen_append split]
  clear split
  generalize w.offscreen = o at fits ⊢
  induction es generalizing o with
  | nil => exact fits
  | cons e es ih =>
    exact ih (fun e member => all e (List.mem_cons_of_mem _ member)) (o.after e)
      (fits.after (each e o t (all e List.mem_cons_self) keep))

namespace Upholds

theorem silent (events : w'.events = w.events) : Upholds kept w w' := by
  intro t key _ fits
  rwa [offscreen_of_events events]

theorem refl (w : World δ) : Upholds kept w w := silent rfl

theorem trans (first : Upholds kept w w₁) (second : Upholds kept w₁ w') : Upholds kept w w' :=
  fun t key keep fits => second t key keep (first t key keep fits)

theorem mono {fewer : Object → Prop} (run : Upholds kept w w') (less : ∀ o, fewer o → kept o) :
    Upholds fewer w w' :=
  fun t key keep => run t key fun o mine => less o (keep o mine)

/-- What mounts nothing upholds every target. -/
theorem unmounting (run : Emits (fun e => e.isMounting = false) w w') : Upholds kept w w' :=
  run.upholds fun _ _ _ idle _ => ReadTarget.not_touches idle

theorem deleting (run : Emits (fun e => ∃ d o, e = .command d ∧ d.deletes? = some o ∧ ¬ kept o) w w') :
    Upholds kept w w' := by
  refine run.upholds ?_
  rintro e o t ⟨d, object, rfl, deletes, gone⟩ keep touched
  cases d <;> simp_all [Event.Touches, Command.deletes?]

variable [GraphicsDevice δ]

theorem allocated {a : Allocation} (new : ∀ h, w.granted a = .ok h → ¬ kept ⟨a.kind, h⟩) :
    Upholds kept w (w.allocated a) := by
  have run : Emits (· = Event.allocation a (w.granted a)) w (w.allocated a) := Emits.emit rfl
  refine run.upholds ?_
  rintro e o t rfl keep touched
  cases granted : w.granted a with
  | ok h =>
    rw [granted] at touched
    exact new h granted (keep _ touched)
  | error e =>
    rw [granted] at touched
    exact touched

theorem sized {renderbuffer : Handle} {internal : InternalFormat} {width height : UInt32}
    (new : ¬ kept ⟨.renderbuffer, renderbuffer⟩) :
    Upholds kept w (w.perform (.renderbufferStorage renderbuffer internal width height)) := by
  have run : Emits (· = Event.command (.renderbufferStorage renderbuffer internal width height)) w
      (w.perform (.renderbufferStorage renderbuffer internal width height)) := Emits.emit rfl
  refine run.upholds ?_
  rintro e o t rfl keep rfl
  exact new (keep _ (ReadTarget.mem_owns.mpr (.inr rfl)))

theorem mounted {framebuffer : Handle} {attach : Command} (new : ¬ kept ⟨.framebuffer, framebuffer⟩)
    (attaches : (∃ t, attach = .framebufferTexture t) ∨ ∃ r, attach = .framebufferRenderbuffer r) :
    Upholds kept w (w.performAll [.bindFramebuffer (some framebuffer), attach]) := by
  intro t key keep fits
  have bound : t.Fits key (w.offscreen.after (.command (.bindFramebuffer (some framebuffer)))) :=
    fits.after (by simp [Event.Touches, Command.deletes?])
  rw [offscreen_performAll]
  refine bound.after fun touched => ?_
  have same : some framebuffer = some t.framebuffer := by
    rcases attaches with ⟨_, rfl⟩ | ⟨_, rfl⟩ <;> exact touched
  refine new (keep _ (ReadTarget.mem_owns.mpr (.inl ?_)))
  rw [Option.some.inj same]

end Upholds

/-- Targets that are made leave the others alone. -/
theorem Makes.upholds [GraphicsDevice δ] (makes : w.Makes kept w') : Upholds kept w w' := by
  induction makes with
  | start => exact Upholds.refl w
  | allocated _ new ih => exact ih.trans (Upholds.allocated new)
  | probed _ _ ih => exact ih.trans (Upholds.unmounting (Emits.emit rfl))
  | stored _ _ ih =>
    refine ih.trans (Upholds.unmounting (Emits.performAll ?_))
    simp [RenderTexture.storage, Event.isMounting, Command.isMounting]
  | sized _ new ih => exact ih.trans (Upholds.sized new)
  | mounted _ new attaches ih => exact ih.trans (Upholds.mounted new attaches)
  | unbound _ ih => exact ih.trans (Upholds.unmounting (Emits.emit rfl))
  | @deleted _ d o _ deletes gone ih =>
    exact ih.trans (Upholds.deleting (Emits.emit ⟨d, o, rfl, deletes, gone⟩))
  | noted _ events ih => exact ih.trans (Upholds.silent events)

/-- Deletions uphold the targets that are there in the end. -/
theorem Emits.upholds_of_isErasure (minting : Minting w.events) (run : Emits (·.isErasure) w w') :
    Upholds (· ∈ live w'.events) w w' := by
  obtain ⟨es, split, erasing⟩ := run
  refine Upholds.deleting ⟨es, split, fun e member => ?_⟩
  obtain ⟨o, deletes⟩ := Option.isSome_iff_exists.mp (erasing e member)
  cases e with
  | command d =>
    refine ⟨d, o, rfl, deletes, ?_⟩
    rw [split, live_append]
    exact not_mem_of_deletes (nodup_live minting) erasing member deletes
  | _ => simp [Event.deletes?] at deletes

end World
end ShaderStack

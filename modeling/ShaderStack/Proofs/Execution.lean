import ShaderStack.Render.Readback
import ShaderStack.Proofs.Association

/-! What single engine operations do to a world.

Every operation either puts one event on the trace, lets an accessor look at the host, or changes
the library's own tables. The equations below replace the monad by these world steps, and
`Extends` collects what a whole run leaves alone when its events are of one vocabulary. -/
namespace ShaderStack

variable {δ : Type}

namespace World

variable {w : World δ}

/-- Everything that happened, oldest first. -/
def events (w : World δ) : List Event := w.trace.toList

@[simp] theorem events_record (event : Event) : (w.record event).events = w.events ++ [event] := by
  simp [events, record]

/-- A step of the device and the event that it leaves. -/
def emit (act : δ → δ) (event : Event) (w : World δ) : World δ :=
  { w with device := act w.device }.record event

section Emit

variable {act : δ → δ} {event : Event}

@[simp] theorem emit_events : (w.emit act event).events = w.events ++ [event] := by
  simp [emit, events, record]

@[simp] theorem emit_host : (w.emit act event).host = w.host := rfl
@[simp] theorem emit_textures : (w.emit act event).textures = w.textures := rfl
@[simp] theorem emit_surfaces : (w.emit act event).surfaces = w.surfaces := rfl
@[simp] theorem emit_nextKey : (w.emit act event).nextKey = w.nextKey := rfl

end Emit

theorem events_notify {listeners : List Subscription} : (w.notify listeners).events = w.events := by
  induction listeners generalizing w with
  | nil => rfl
  | cons s rest ih => exact ih

theorem notify_host {listeners : List Subscription} : (w.notify listeners).host = w.host := by
  induction listeners generalizing w with
  | nil => rfl
  | cons s rest ih => exact ih

theorem listen_device {id : SurfaceId} {s : Subscription} : (w.listen id s).device = w.device := by
  unfold listen
  split
  · split <;> rfl
  · rfl

theorem listen_trace {id : SurfaceId} {s : Subscription} : (w.listen id s).trace = w.trace := by
  unfold listen
  split
  · split <;> rfl
  · rfl

theorem listen_events {id : SurfaceId} {s : Subscription} : (w.listen id s).events = w.events := by
  rw [events, events, listen_trace]

theorem listen_host {id : SurfaceId} {s : Subscription} : (w.listen id s).host = w.host := by
  unfold listen
  split
  · split <;> rfl
  · rfl

section Listen

variable {key : Nat} {t : RenderTexture} {s : Subscription}

theorem listen_present (present : w.texture? key = some t) : w.listen (.renderTexture key) s =
    w.setTexture key { t with listeners := t.listeners ++ [s] } := by
  simp [listen, present]

theorem listen_missing (missing : w.texture? key = none) : w.listen (.renderTexture key) s = w := by
  simp [listen, missing]

end Listen

theorem surface_setSurface {name other : String} {surface : HostSurface} :
    (w.setSurface name surface).surface other = if other = name then surface else w.surface other := by
  unfold World.surface setSurface
  by_cases same : other = name
  · rw [same, lookup_assign_same, if_pos rfl, Option.getD_some]
  · rw [lookup_assign_other same, if_neg same]

/-- What an accessor gives at the moment. -/
def see (value : Accessor α) (w : World δ) : α := (value.run w.host).1

/-- The world after an accessor was asked. -/
def looked (value : Accessor α) (w : World δ) : World δ := { w with host := (value.run w.host).2 }

section Looked

variable {value : Accessor α}

@[simp] theorem looked_events : (w.looked value).events = w.events := rfl
@[simp] theorem looked_host : (w.looked value).host = (value.run w.host).2 := rfl
@[simp] theorem looked_textures : (w.looked value).textures = w.textures := rfl
@[simp] theorem looked_surfaces : (w.looked value).surfaces = w.surfaces := rfl
@[simp] theorem looked_nextKey : (w.looked value).nextKey = w.nextKey := rfl

end Looked

variable [GraphicsDevice δ]

abbrev perform (c : Command) : World δ → World δ := emit (GraphicsDevice.command c) (.command c)

def performAll (cs : List Command) (w : World δ) : World δ := cs.foldl (fun w c => w.perform c) w

@[simp] theorem performAll_nil : w.performAll [] = w := rfl

@[simp] theorem performAll_cons (c : Command) (cs : List Command) :
    w.performAll (c :: cs) = (w.perform c).performAll cs := rfl

@[simp] theorem performAll_host {cs : List Command} : (w.performAll cs).host = w.host := by
  induction cs generalizing w with
  | nil => rfl
  | cons c cs ih => exact ih

theorem events_performAll {cs : List Command} : (w.performAll cs).events = w.events ++ cs.map .command := by
  induction cs generalizing w with
  | nil => simp
  | cons c cs ih => simp [ih]

theorem performAll_append (cs ds : List Command) :
    w.performAll (cs ++ ds) = (w.performAll cs).performAll ds := by
  simp [performAll]

/-- The answer that an allocation would get now. -/
def granted (a : Allocation) (w : World δ) : Except RenderError Handle :=
  (GraphicsDevice.allocate a w.device).1

abbrev allocated (a : Allocation) (w : World δ) : World δ :=
  w.emit (fun d => (GraphicsDevice.allocate a d).2) (.allocation a (w.granted a))

/-- The location that a lookup would find now. -/
def located (l : Lookup) (w : World δ) : Option Location :=
  (GraphicsDevice.lookup l w.device).1

abbrev lookedUp (l : Lookup) (w : World δ) : World δ :=
  w.emit (fun d => (GraphicsDevice.lookup l d).2) (.lookup l (w.located l))

/-- The answer that a probe would get now. -/
def confirmed (p : Probe) (w : World δ) : Bool := (GraphicsDevice.probe p w.device).1

abbrev probed (p : Probe) (w : World δ) : World δ :=
  w.emit (fun d => (GraphicsDevice.probe p d).2) (.probe p (w.confirmed p))

abbrev readBack (r : PixelRead) : World δ → World δ :=
  emit (fun d => (GraphicsDevice.read r d).2) (.read r)

omit [GraphicsDevice δ] in
/-- A callback leaves the device alone. -/
abbrev called (c : Callback) : World δ → World δ := emit id (.callback c)

end World

namespace Engine

variable {w : World δ}

/-- The result and the world after a sequence, by parts. -/
theorem run_bind {m : Engine δ α} {f : α → Engine δ β} :
    (m >>= f).run w = (f (m.run w).1).run (m.run w).2 := rfl

theorem run_pure {a : α} : (pure a : Engine δ α).run w = (a, w) := rfl

theorem run_get : (get : Engine δ (World δ)).run w = (w, w) := rfl

theorem run_modify {f : World δ → World δ} : (modify f : Engine δ PUnit).run w = (⟨⟩, f w) := rfl

theorem run_forM {f : β → Engine δ PUnit} {xs : List β} :
    (xs.forM f).run w = (⟨⟩, xs.foldl (fun w x => ((f x).run w).2) w) := by
  induction xs generalizing w with
  | nil => rfl
  | cons x xs ih => exact ih

theorem run_readHost {value : Accessor α} :
    (readHost value : Engine δ α).run w = (w.see value, w.looked value) := rfl

theorem run_callback {c : Callback} :
    (callback c : Engine δ Unit).run w = ((), w.called c) := rfl

theorem run_newKey :
    (newKey : Engine δ Nat).run w = (w.nextKey, { w with nextKey := w.nextKey + 1 }) := rfl

variable [GraphicsDevice δ]

theorem run_command {c : Command} :
    (command c : Engine δ Unit).run w = ((), w.perform c) := rfl

theorem run_commands {cs : List Command} :
    (commands cs : Engine δ Unit).run w = ((), w.performAll cs) := run_forM

theorem run_lookup {l : Lookup} :
    (lookup l : Engine δ (Option Location)).run w = (w.located l, w.lookedUp l) := rfl

theorem run_probe {p : Probe} :
    (probe p : Engine δ Bool).run w = (w.confirmed p, w.probed p) := rfl

end Engine

namespace Attempt

/-- Every way in which an attempt can end satisfies the one or the other condition. -/
def Ends (m : Attempt δ α) (w : World δ) (done : α → World δ → Prop)
    (failed : RenderError → World δ → Prop) : Prop :=
  match m.run.run w with
  | (.ok a, w') => done a w'
  | (.error e, w') => failed e w'

section Rules

variable {w : World δ} {done : α → World δ → Prop} {next : β → World δ → Prop}
  {failed : RenderError → World δ → Prop}

instance {m : Attempt δ α} [∀ a w', Decidable (done a w')] [∀ e w', Decidable (failed e w')] :
    Decidable (Ends m w done failed) :=
  match answer : m.run.run w with
  | (.ok a, w') => decidable_of_iff (done a w') (by rw [Ends, answer])
  | (.error e, w') => decidable_of_iff (failed e w') (by rw [Ends, answer])

theorem ends_bind {m : Attempt δ α} {f : α → Attempt δ β} :
    Ends (m >>= f) w next failed ↔ Ends m w (fun a w' => Ends (f a) w' next failed) failed := by
  unfold Ends
  simp only [ExceptT.run_bind, Engine.run_bind]
  rcases StateT.run m.run w with ⟨e | a, w'⟩ <;> rfl

theorem ends_lift {m : Engine δ α} :
    Ends (liftM m : Attempt δ α) w done failed ↔ done (m.run w).1 (m.run w).2 := Iff.rfl

theorem ends_except {answer : Except RenderError α} :
    Ends (liftM answer : Attempt δ α) w done failed ↔
      match answer with
      | .ok a => done a w
      | .error e => failed e w := by
  cases answer <;> rfl

theorem ends_pure {a : α} : Ends (pure a : Attempt δ α) w done failed ↔ done a w := Iff.rfl

theorem discard_eq {m : Attempt δ α} : discard m = m >>= fun _ => pure ⟨⟩ := by
  rw [bind_pure_comp]
  exact congrFun (congrFun (LawfulFunctor.map_const (f := Attempt δ)) PUnit.unit) m

theorem ends_discard {m : Attempt δ α} {done : PUnit → World δ → Prop} :
    Ends (discard m) w done failed ↔ Ends m w (fun _ => done ⟨⟩) failed := by
  rw [discard_eq, ends_bind]
  rfl

theorem ends_throw {e : RenderError} :
    Ends (throw e : Attempt δ α) w done failed ↔ failed e w := Iff.rfl

theorem ends_modify {f : World δ → World δ} {done : PUnit → World δ → Prop} :
    Ends (modify f : Attempt δ PUnit) w done failed ↔ done ⟨⟩ (f w) := Iff.rfl

theorem ends_ite {c : Prop} [Decidable c] {m m' : Attempt δ α} :
    Ends (if c then m else m') w done failed ↔
      if c then Ends m w done failed else Ends m' w done failed := by
  split <;> rfl

theorem run_tryCatch {m : Attempt δ α} {handler : RenderError → Attempt δ α} :
    StateT.run (tryCatch m handler).run w =
      match StateT.run m.run w with
      | (.ok a, w') => (.ok a, w')
      | (.error e, w') => StateT.run (handler e).run w' := by
  change StateT.run (m >>= fun answer => _ : Engine δ (Except RenderError α)) w = _
  rw [Engine.run_bind]
  rcases answer : StateT.run m.run w with ⟨e | a, w'⟩
  all_goals
    change m w = _ at answer
    simp only [StateT.run, answer]
    rfl

theorem ends_tryCatch {m : Attempt δ α} {handler : RenderError → Attempt δ α} :
    Ends (tryCatch m handler) w done failed ↔
      Ends m w done fun e w' => Ends (handler e) w' done failed := by
  unfold Ends
  rw [run_tryCatch]
  rcases StateT.run m.run w with ⟨e | a, w'⟩ <;> rfl

theorem ends_allocate [GraphicsDevice δ] {a : Allocation} {done : Handle → World δ → Prop} :
    Ends (Engine.allocate a) w done failed ↔
      (∀ h, w.granted a = .ok h → done h (w.allocated a)) ∧
        ∀ e, w.granted a = .error e → failed e (w.allocated a) := by
  have run : StateT.run (Engine.allocate a : Attempt δ Handle).run w =
    (w.granted a, w.allocated a) := rfl
  unfold Ends
  rw [run]
  cases w.granted a <;> simp

/-- What holds of the world in both cases holds of it. -/
theorem world_of_ends {fits : World δ → Prop} {m : Attempt δ α}
    (ends : Ends m w (fun _ => fits) fun _ => fits) : fits (m.run.run w).2 := by
  unfold Ends at ends
  generalize m.run.run w = answer at ends
  obtain ⟨e | a, w'⟩ := answer <;> exact ends

theorem Ends.imp {m : Attempt δ α} {done' : α → World δ → Prop}
    {failed' : RenderError → World δ → Prop} (ends : Ends m w done failed)
    (onDone : ∀ a w', done a w' → done' a w') (onFailed : ∀ e w', failed e w' → failed' e w') :
    Ends m w done' failed' := by
  unfold Ends at *
  rcases answer : StateT.run m.run w with ⟨e | a, w'⟩ <;> rw [answer] at ends
  · exact onFailed e w' ends
  · exact onDone a w' ends

theorem Ends.of_ok {m : Attempt δ α} {a : α} {w' : World δ} (ends : Ends m w done failed)
    (ran : m.run.run w = (.ok a, w')) : done a w' := by
  unfold Ends at ends
  rwa [ran] at ends

theorem Ends.of_error {m : Attempt δ α} {e : RenderError} {w' : World δ} (ends : Ends m w done failed)
    (ran : m.run.run w = (.error e, w')) : failed e w' := by
  unfold Ends at ends
  rwa [ran] at ends

/-- An attempt that cannot fail ends. -/
theorem Ends.exists_ok {m : Attempt δ α} (ends : Ends m w done fun _ _ => False) :
    ∃ a w', m.run.run w = (.ok a, w') ∧ done a w' := by
  unfold Ends at ends
  rcases answer : StateT.run m.run w with ⟨e | a, w'⟩ <;> rw [answer] at ends
  · exact ends.elim
  · exact ⟨a, w', rfl, ends⟩

theorem Ends.and {m : Attempt δ α} {done' : α → World δ → Prop} {failed' : RenderError → World δ → Prop}
    (ends : Ends m w done failed) (ends' : Ends m w done' failed') :
    Ends m w (fun a w' => done a w' ∧ done' a w') fun e w' => failed e w' ∧ failed' e w' := by
  unfold Ends at *
  rcases answer : StateT.run m.run w with ⟨e | a, w'⟩ <;> rw [answer] at ends ends' <;>
    exact ⟨ends, ends'⟩

end Rules
end Attempt
end ShaderStack

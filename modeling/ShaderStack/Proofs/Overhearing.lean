import ShaderStack.Proofs.Listeners

/-! Listeners that nobody knows of.

Two worlds may differ in who listens to their surfaces. Whatever is done in them then has the same
answers and the same calls, and the further listeners stay where they are: who listens shows in nothing
but the requests for redraws. -/
namespace ShaderStack

variable {δ : Type}

namespace RenderTexture

variable {t t' : RenderTexture}

theorem eq_of_bare (same : t'.bare = t.bare) : t' = { t with listeners := t'.listeners } := by
  obtain ⟨programs, texture, framebuffer, width, height, generation, listeners, holders⟩ := t
  obtain ⟨programs', texture', framebuffer', width', height', generation', listeners', holders'⟩ := t'
  simp only [bare, mk.injEq] at same ⊢
  simpa using same

/-- A change of a target that neither knows nor changes who listens. -/
def Deaf (change : RenderTexture → RenderTexture) : Prop :=
  ∀ t listeners, change { t with listeners } = { change t with listeners }

theorem Deaf.listeners {change : RenderTexture → RenderTexture} (deaf : Deaf change) :
    (change t).listeners = t.listeners := by
  have same : change t = { change t with listeners := t.listeners } := deaf t t.listeners
  rw [same]

theorem Deaf.bare {change : RenderTexture → RenderTexture} (deaf : Deaf change)
    (same : t'.bare = t.bare) : (change t').bare = (change t).bare := by
  rw [eq_of_bare same, deaf]
  rfl

end RenderTexture

namespace World

variable {extra : SurfaceId → Subscription → Prop} {w w' : World δ}

/-- The second world has further listeners, and differs in nothing else but requests. -/
structure Overheard (extra : SurfaceId → Subscription → Prop) (w w' : World δ) : Prop where
  device : w'.device = w.device
  trace : w'.trace = w.trace
  host : w'.host = w.host
  nextKey : w'.nextKey = w.nextKey
  textures : w'.textures.map (Prod.map id RenderTexture.bare) =
    w.textures.map (Prod.map id RenderTexture.bare)
  targets : ∀ key t t', w.texture? key = some t → w'.texture? key = some t' →
    ∀ s, s ∈ t'.listeners ↔ s ∈ t.listeners ∨ extra (.renderTexture key) s
  surfaces : ∀ name, (w'.surface name).texture = (w.surface name).texture
  others : ∀ name s, s ∈ (w'.surface name).listeners ↔
    s ∈ (w.surface name).listeners ∨ extra (.external name) s
  /-- Targets that are still to be made have no listeners. -/
  old : ∀ key s, extra (.renderTexture key) s → key < w.nextKey

namespace Overheard

theorem refl (w : World δ) : w.Overheard (fun _ _ => False) w where
  device := rfl
  trace := rfl
  host := rfl
  nextKey := rfl
  textures := rfl
  targets := by
    intro key t t' found found' s
    rw [Option.some.inj (found.symm.trans found'), or_false]
  surfaces _ := rfl
  others _ _ := (or_false _).symm.to_iff
  old := nofun

theorem congr {extra' : SurfaceId → Subscription → Prop} (alike : w.Overheard extra w')
    (same : ∀ id s, extra id s ↔ extra' id s) : w.Overheard extra' w' := by
  have equal : extra = extra' := funext fun id => funext fun s => propext (same id s)
  exact equal ▸ alike

variable (alike : w.Overheard extra w')
include alike

/-- A target is in both worlds, or in neither. -/
theorem target_cases (key : Nat) : (w.texture? key = none ∧ w'.texture? key = none) ∨
    ∃ t listeners, w.texture? key = some t ∧ w'.texture? key = some { t with listeners } := by
  have same : (w'.texture? key).map RenderTexture.bare = (w.texture? key).map RenderTexture.bare := by
    unfold World.texture?
    rw [← lookup_map, ← lookup_map, alike.textures]
  cases here : w.texture? key with
  | none =>
    rw [here] at same
    exact .inl ⟨rfl, Option.map_eq_none_iff.mp same⟩
  | some t =>
    rw [here] at same
    obtain ⟨t', there, bare⟩ := Option.map_eq_some_iff.mp same
    exact .inr ⟨t, t'.listeners, rfl, there.trans (congrArg some (RenderTexture.eq_of_bare bare))⟩

theorem textureOf? (id : SurfaceId) : w'.textureOf? id = w.textureOf? id := by
  cases id with
  | renderTexture key =>
    rcases alike.target_cases key with ⟨here, there⟩ | ⟨t, listeners, here, there⟩
    · simp [World.textureOf?, here, there]
    · simp [World.textureOf?, here, there]
  | external name => exact alike.surfaces name

theorem see (value : Accessor α) : w'.see value = w.see value := by
  unfold World.see
  rw [alike.host]

theorem looked (value : Accessor α) : (w.looked value).Overheard extra (w'.looked value) :=
  { alike with host := by simp [alike.host] }

theorem emit (act : δ → δ) (event : Event) : (w.emit act event).Overheard extra (w'.emit act event) :=
  { alike with
    device := congrArg act alike.device
    trace := congrArg (·.push event) alike.trace }

theorem performAll [GraphicsDevice δ] (cs : List Command) :
    (w.performAll cs).Overheard extra (w'.performAll cs) := by
  induction cs generalizing w w' with
  | nil => exact alike
  | cons c cs ih => exact ih (alike.emit _ _)

theorem changeHost (change : Host → Host) :
    { w with host := change w.host }.Overheard extra { w' with host := change w'.host } :=
  { alike with host := congrArg change alike.host }

/-- Requests are free. -/
theorem requests (redraws redraws' : List (RedrawKey × RedrawRequests)) :
    { w with redraws }.Overheard extra { w' with redraws := redraws' } := { alike with }

theorem newKey : { w with nextKey := w.nextKey + 1 }.Overheard extra
    { w' with nextKey := w'.nextKey + 1 } :=
  { alike with
    nextKey := congrArg (· + 1) alike.nextKey
    old := fun key s known => Nat.lt_succ_of_lt (alike.old key s known) }

theorem setSurface (name : String) {surface surface' : HostSurface}
    (texture : surface'.texture = surface.texture)
    (listeners : ∀ s, s ∈ surface'.listeners ↔ s ∈ surface.listeners ∨ extra (.external name) s) :
    (w.setSurface name surface).Overheard extra (w'.setSurface name surface') := by
  refine { alike with surfaces := fun other => ?_, others := fun other s => ?_ }
  · rw [World.surface_setSurface, World.surface_setSurface]
    split
    · exact texture
    · exact alike.surfaces other
  · rw [World.surface_setSurface, World.surface_setSurface]
    split
    · next same => exact same ▸ listeners s
    · exact alike.others other s

/-- A target may be put in both worlds, with the further listeners in the second. -/
theorem setTexture (key : Nat) {t t' : RenderTexture} (bare : t'.bare = t.bare)
    (listeners : ∀ s, s ∈ t'.listeners ↔ s ∈ t.listeners ∨ extra (.renderTexture key) s) :
    (w.setTexture key t).Overheard extra (w'.setTexture key t') := by
  have tables (entries entries' : List (Nat × RenderTexture))
      (same : entries'.map (Prod.map id RenderTexture.bare) = entries.map (Prod.map id RenderTexture.bare)) :
      (assign key t' entries').map (Prod.map id RenderTexture.bare) =
        (assign key t entries).map (Prod.map id RenderTexture.bare) := by
    rw [assign_map, assign_map, same, bare]
  refine { alike with textures := tables _ _ alike.textures, targets := fun other u u' here there s => ?_ }
  unfold World.texture? World.setTexture at here there
  by_cases same : other = key
  · subst same
    rw [lookup_assign_same] at here there
    obtain rfl := Option.some.inj here
    obtain rfl := Option.some.inj there
    exact listeners s
  · rw [lookup_assign_other same] at here there
    exact alike.targets other u u' here there s

/-- A change of a target that does not know who listens. -/
theorem altered (key : Nat) {change : RenderTexture → RenderTexture} (deaf : RenderTexture.Deaf change) :
    (w.altered key change).Overheard extra (w'.altered key change) := by
  unfold World.altered
  rcases alike.target_cases key with ⟨here, there⟩ | ⟨t, listeners, here, there⟩
  · rw [here, there]
    exact alike
  · rw [here, there]
    refine alike.setTexture key (deaf.bare rfl) fun s => ?_
    rw [deaf.listeners, deaf.listeners]
    exact alike.targets key _ _ here there s

/-- A target that is made has no listeners. -/
theorem make {t : RenderTexture} (silent : t.listeners = []) :
    World.Overheard extra (World.setTexture w.nextKey t { w with nextKey := w.nextKey + 1 })
      (World.setTexture w'.nextKey t { w' with nextKey := w'.nextKey + 1 }) := by
  have made : World.Overheard extra (World.setTexture w.nextKey t { w with nextKey := w.nextKey + 1 })
      (World.setTexture w.nextKey t { w' with nextKey := w'.nextKey + 1 }) := by
    refine alike.newKey.setTexture w.nextKey rfl fun s => ?_
    rw [silent]
    refine ⟨nofun, ?_⟩
    rintro (none | known)
    · exact none
    · exact absurd (alike.old _ s known) (Nat.lt_irrefl _)
  exact alike.nextKey ▸ made

theorem remove (key : Nat) : { w with textures := w.textures.filter (·.1 ≠ key) }.Overheard extra
    { w' with textures := w'.textures.filter (·.1 ≠ key) } := by
  have tables (entries : List (Nat × RenderTexture)) :
      (entries.filter (·.1 ≠ key)).map (Prod.map id RenderTexture.bare) =
        (entries.map (Prod.map id RenderTexture.bare)).filter (·.1 ≠ key) := by
    rw [List.filter_map]
    rfl
  refine { alike with textures := ?_, targets := fun other t t' here there => ?_ }
  · rw [tables, tables, alike.textures]
  · unfold World.texture? at here there
    rw [lookup_filter] at here there
    split at here
    · exact nomatch here
    · next apart =>
      rw [if_neg apart] at there
      exact alike.targets other t t' here there

theorem notify (listeners listeners' : List Subscription) :
    (w.notify listeners).Overheard extra (w'.notify listeners') := by
  have silent (w : World δ) (listeners : List Subscription) :
      ∃ redraws, w.notify listeners = { w with redraws } := by
    induction listeners generalizing w with
    | nil => exact ⟨w.redraws, rfl⟩
    | cons s rest ih => exact ih _
  obtain ⟨redraws, same⟩ := silent w listeners
  obtain ⟨redraws', same'⟩ := silent w' listeners'
  rw [same, same']
  exact alike.requests redraws redraws'

/-- Who listens is added in both worlds. -/
theorem listen (id : SurfaceId) (s : Subscription) :
    (w.listen id s).Overheard extra (w'.listen id s) := by
  cases id with
  | renderTexture key =>
    rcases alike.target_cases key with ⟨here, there⟩ | ⟨t, listeners, here, there⟩
    · rw [World.listen_missing here, World.listen_missing there]
      exact alike
    · rw [World.listen_present here, World.listen_present there]
      refine alike.setTexture key rfl fun other => ?_
      have known : other ∈ listeners ↔ _ := alike.targets key _ _ here there other
      simp only [List.mem_append, known, or_right_comm]
  | external name =>
    refine alike.setSurface name (alike.surfaces name) fun other => ?_
    simp only [List.mem_append, alike.others name other, or_right_comm]

/-- One more listener that the first world does not know of. -/
theorem join {id : SurfaceId} (s : Subscription) (old : ∀ key, id = .renderTexture key → key < w.nextKey) :
    w.Overheard (fun other t => extra other t ∨ other = id ∧ t = s) (w'.listen id s) := by
  have added : Extends (fun _ => False) RenderTexture.bare w' (w'.listen id s) := Extends.listen
  refine
    { device := World.listen_device.trans alike.device
      trace := World.listen_trace.trans alike.trace
      host := World.listen_host.trans alike.host
      nextKey := added.nextKey.trans alike.nextKey
      textures := added.textures.trans alike.textures
      surfaces := fun name => (added.surfaces name).trans (alike.surfaces name)
      targets := fun key t t' here there r => ?_
      others := fun name r => ?_
      old := ?_ }
  · cases id with
    | renderTexture other =>
      rcases alike.target_cases other with ⟨_, missing⟩ | ⟨u, listeners, _, present⟩
      · rw [World.listen_missing missing] at there
        have apart : key ≠ other := by
          rintro rfl
          exact nomatch missing.symm.trans there
        simpa [apart] using alike.targets key t t' here there r
      · rw [World.listen_present present] at there
        unfold World.texture? World.setTexture at there
        by_cases same : key = other
        · subst same
          rw [lookup_assign_same] at there
          obtain rfl := Option.some.inj there
          have known : r ∈ listeners ↔ _ := alike.targets key t _ here present r
          simp [known, or_assoc]
        · rw [lookup_assign_other same] at there
          simpa [same] using alike.targets key t t' here there r
    | external name => simpa using alike.targets key t t' here there r
  · cases id with
    | renderTexture other =>
      have same : ((w'.listen (.renderTexture other) s).surface name) = w'.surface name := by
        unfold World.listen
        dsimp only
        split <;> rfl
      simpa [same] using alike.others name r
    | external other =>
      unfold World.listen
      rw [World.surface_setSurface]
      by_cases same : name = other
      · subst same
        simp [alike.others, or_assoc]
      · rw [if_neg same]
        simpa [same] using alike.others name r
  · rintro key r (known | ⟨here, _⟩)
    · exact alike.old key r known
    · exact old key here.symm

end Overheard
end World

/-- What is done does not depend on who listens. -/
def Engine.Heedless (extra : SurfaceId → Subscription → Prop) (m : Engine δ α) : Prop :=
  ∀ w w', World.Overheard extra w w' →
    (m.run w').1 = (m.run w).1 ∧ World.Overheard extra (m.run w).2 (m.run w').2

/-- Whether an attempt fails does not depend on it either. -/
def Attempt.Heedless (extra : SurfaceId → Subscription → Prop) (m : Attempt δ α) : Prop :=
  Engine.Heedless extra m.run

variable {extra : SurfaceId → Subscription → Prop} {w w' : World δ}

namespace Engine

theorem heedless_pure {a : α} : Heedless extra (pure a : Engine δ α) := fun _ _ alike => ⟨rfl, alike⟩

theorem Heedless.bind {m : Engine δ α} {f : α → Engine δ β} (first : Heedless extra m)
    (second : ∀ a, Heedless extra (f a)) : Heedless extra (m >>= f) := by
  intro w w' alike
  obtain ⟨same, after⟩ := first w w' alike
  rw [run_bind, run_bind, same]
  exact second _ _ _ after

theorem Heedless.forM {f : β → Engine δ PUnit} {xs : List β} (each : ∀ x ∈ xs, Heedless extra (f x)) :
    Heedless extra (xs.forM f) := by
  induction xs with
  | nil => exact heedless_pure
  | cons x xs ih =>
    exact (each x List.mem_cons_self).bind fun _ => ih fun y member => each y (List.mem_cons_of_mem x member)

theorem heedless_modify {f : World δ → World δ}
    (keeps : ∀ w w', w.Overheard extra w' → (f w).Overheard extra (f w')) :
    Heedless extra (modify f : Engine δ PUnit) := fun w w' alike => ⟨rfl, keeps w w' alike⟩

/-- What is read of the world must be what both worlds have. -/
theorem heedless_get {next : World δ → Engine δ α}
    (same : ∀ w w', w.Overheard extra w' → next w' = next w) (each : ∀ w, Heedless extra (next w)) :
    Heedless extra (get >>= next) := by
  intro w w' alike
  rw [run_bind, run_bind, run_get, run_get]
  dsimp only
  rw [same w w' alike]
  exact each w _ _ alike

theorem heedless_readHost {value : Accessor α} : Heedless extra (readHost value : Engine δ α) :=
  fun _ _ alike => ⟨alike.see value, alike.looked value⟩

/-- What is recorded may depend on the device, which is the same in both worlds. -/
theorem heedless_emit {m : Engine δ α} (answer : δ → α) (act : δ → δ) (event : α → Event)
    (run : ∀ w, m.run w = (answer w.device, w.emit act (event (answer w.device)))) : Heedless extra m := by
  intro w w' alike
  have same : answer w'.device = answer w.device := congrArg answer alike.device
  rw [run, run, same]
  exact ⟨rfl, alike.emit act _⟩

theorem heedless_callback {c : Callback} : Heedless extra (callback c : Engine δ Unit) :=
  heedless_emit (fun _ => ()) id (fun _ => .callback c) fun _ => rfl

theorem heedless_newKey : Heedless extra (newKey : Engine δ Nat) :=
  fun _ _ alike => ⟨alike.nextKey, alike.newKey⟩

/-- Subscribing looks at the textures that are subscribed to, not at the listeners. -/
theorem heedless_subscribe {redraw : RedrawKey} {id : SurfaceId} {subscribed : List Handle} :
    Heedless extra (subscribe redraw id subscribed : Engine δ (List Handle)) := by
  unfold subscribe
  refine heedless_get (fun w w' alike => by rw [alike.textureOf?]) fun w => ?_
  split
  · exact heedless_pure
  · split
    · exact heedless_pure
    · exact (heedless_modify fun _ _ alike => alike.listen id _).bind fun _ => heedless_pure

variable [GraphicsDevice δ]

theorem heedless_command {c : Command} : Heedless extra (command c : Engine δ Unit) :=
  heedless_emit (fun _ => ()) (GraphicsDevice.command c) (fun _ => .command c) fun _ => rfl

theorem heedless_commands {cs : List Command} : Heedless extra (commands cs : Engine δ Unit) :=
  Heedless.forM fun _ _ => heedless_command

theorem heedless_allocate {a : Allocation} : Attempt.Heedless extra (allocate a : Attempt δ Handle) :=
  heedless_emit (fun d => (GraphicsDevice.allocate a d).1) (fun d => (GraphicsDevice.allocate a d).2)
    (.allocation a) fun _ => rfl

theorem heedless_lookup {l : Lookup} : Heedless extra (lookup l : Engine δ (Option Location)) :=
  heedless_emit (fun d => (GraphicsDevice.lookup l d).1) (fun d => (GraphicsDevice.lookup l d).2)
    (.lookup l) fun _ => rfl

theorem heedless_probe {p : Probe} : Heedless extra (probe p : Engine δ Bool) :=
  heedless_emit (fun d => (GraphicsDevice.probe p d).1) (fun d => (GraphicsDevice.probe p d).2)
    (.probe p) fun _ => rfl

theorem heedless_readPixels {r : PixelRead} : Heedless extra (readPixels r : Engine δ Readback) :=
  heedless_emit (fun d => (GraphicsDevice.read r d).1) (fun d => (GraphicsDevice.read r d).2)
    (fun _ => .read r) fun _ => rfl

end Engine

namespace Attempt

theorem heedless_pure {a : α} : Heedless extra (pure a : Attempt δ α) := Engine.heedless_pure

theorem heedless_throw {e : RenderError} : Heedless extra (throw e : Attempt δ α) := Engine.heedless_pure

/-- Nothing is done after a failure. -/
theorem heedless_quit {e : RenderError} {f : α → Attempt δ β} :
    Heedless extra ((throw e : Attempt δ α) >>= f) := Engine.heedless_pure

theorem heedless_lift {m : Engine δ α} (heedless : m.Heedless extra) :
    Heedless extra (liftM m : Attempt δ α) := heedless.bind fun _ => Engine.heedless_pure

theorem heedless_except {answer : Except RenderError α} :
    Heedless extra (liftM answer : Attempt δ α) := by
  cases answer <;> exact Engine.heedless_pure

theorem Heedless.bind {m : Attempt δ α} {f : α → Attempt δ β} (first : m.Heedless extra)
    (second : ∀ a, (f a).Heedless extra) : Heedless extra (m >>= f) := by
  unfold Heedless
  rw [ExceptT.run_bind]
  refine Engine.Heedless.bind first fun answer => ?_
  cases answer with
  | ok a => exact second a
  | error e => exact Engine.heedless_pure

theorem Heedless.discard {m : Attempt δ α} (heedless : m.Heedless extra) :
    Heedless extra (discard m) := by
  rw [discard_eq]
  exact heedless.bind fun _ => heedless_pure

theorem Heedless.tryCatch {m : Attempt δ α} {handler : RenderError → Attempt δ α}
    (first : m.Heedless extra) (second : ∀ e, (handler e).Heedless extra) :
    Heedless extra (tryCatch m handler) := by
  intro w w' alike
  obtain ⟨same, after⟩ := first w w' alike
  rw [run_tryCatch, run_tryCatch]
  generalize m.run.run w = answer at same after
  generalize m.run.run w' = answer' at same after
  obtain ⟨e | a, v⟩ := answer <;> obtain ⟨_, v'⟩ := answer' <;> obtain rfl := same
  · exact second e v v' after
  · exact ⟨rfl, after⟩

end Attempt

/-- A binding step does not depend on who listens. -/
def Binder.Heedless (extra : SurfaceId → Subscription → Prop) (m : Binder δ α) : Prop :=
  ∀ b, Engine.Heedless extra (m.run.run b)

namespace Binder

theorem heedless_pure {a : α} : Heedless extra (pure a : Binder δ α) := fun _ => Engine.heedless_pure

theorem heedless_throw {e : RenderError} : Heedless extra (throw e : Binder δ α) :=
  fun _ => Engine.heedless_pure

theorem heedless_get : Heedless extra (get : Binder δ Bindings) := fun _ => Engine.heedless_pure

theorem heedless_modify {f : Bindings → Bindings} : Heedless extra (modify f : Binder δ PUnit) :=
  fun _ => Engine.heedless_pure

theorem heedless_engine {m : Engine δ α} (heedless : m.Heedless extra) : Heedless extra (engine m) :=
  fun b w w' alike => (heedless w w' alike).imp_left (congrArg fun a => ((.ok a : Except RenderError α), b))

theorem heedless_attempt {m : Attempt δ α} (heedless : m.Heedless extra) : Heedless extra (attempt m) :=
  fun b w w' alike => (heedless w w' alike).imp_left (congrArg fun answer => (answer, b))

theorem Heedless.bind {m : Binder δ α} {f : α → Binder δ β} (first : m.Heedless extra)
    (second : ∀ a, (f a).Heedless extra) : Heedless extra (m >>= f) := by
  intro b
  rw [ExceptT.run_bind, StateT.run_bind]
  refine (first b).bind fun answer => ?_
  obtain ⟨e | a, b'⟩ := answer
  · exact Engine.heedless_pure
  · exact second a b'

theorem Heedless.forM {f : β → Binder δ PUnit} {xs : List β} (each : ∀ x, (f x).Heedless extra) :
    Heedless extra (xs.forM f) := by
  induction xs with
  | nil => exact heedless_pure
  | cons x xs ih => exact (each x).bind fun _ => ih

end Binder
end ShaderStack

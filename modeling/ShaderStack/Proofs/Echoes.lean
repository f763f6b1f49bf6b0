import ShaderStack.Proofs.Twins
import ShaderStack.Proofs.Rendering

/-! Two runs in step on the recording device.

Commands of the one run are answered by the same commands of the other, so that the traces grow alike. The
device gives out the next name of its counter; the counters may differ, as long as the first one is ahead.
Names are new until the counter comes to its end. -/
namespace ShaderStack

open Correspondence

namespace RecordingDevice

/-- What most calls leave alone. -/
structure Keeps (d d' : RecordingDevice) : Prop where
  nextHandle : d'.nextHandle = d.nextHandle
  programs : d'.programs = d.programs
  extensions : d'.extensions = d.extensions

/-- Only a deletion takes a program away. -/
theorem keeps_command {c : Command} (keep : ∀ h, c ≠ .deleteProgram h) (d : RecordingDevice) :
    d.Keeps (d.command c) := by
  unfold command
  cases c with
  | deleteProgram h => exact absurd rfl (keep h)
  | _ =>
    simp only [count, record]
    split <;> exact ⟨rfl, rfl, rfl⟩

theorem counter_command (c : Command) (d : RecordingDevice) :
    (d.command c).nextHandle = d.nextHandle ∧ (d.command c).extensions = d.extensions := by
  unfold command
  cases c <;> simp only [count, record] <;> split <;> exact ⟨rfl, rfl⟩

theorem counter_mint {d : RecordingDevice} (room : d.nextHandle < lastHandle) :
    d.mint.2.nextHandle = d.nextHandle + 1 := if_pos room

end RecordingDevice

/-- The counter has not come to its end: every name that was given out is below the last one. -/
def Unspent (es : List Event) : Prop :=
  ∀ e ∈ es, ∀ o ∈ e.creates?, o.handle < RecordingDevice.lastHandle

instance (es : List Event) : Decidable (Unspent es) :=
  inferInstanceAs (Decidable (∀ e ∈ es, ∀ o ∈ e.creates?, _))

section Room

variable {δ : Type} {w w' : World δ}

/-- A counter that has come to its end stays there. -/
theorem World.Emits.unspent {allowed : Event → Prop} (run : Emits allowed w w')
    (room : Unspent w'.events) : Unspent w.events := by
  obtain ⟨es, split, _⟩ := run
  rw [split] at room
  exact fun e member => room e (List.mem_append_left _ member)

theorem Unspent.of_emit {act : δ → δ} {e : Event} (room : Unspent (w.emit act e).events) :
    Unspent w.events := by
  have run : w.Emits (fun _ => True) (w.emit act e) := .emit trivial
  exact run.unspent room

variable [GraphicsDevice δ]

theorem Unspent.of_performAll {cs : List Command} (room : Unspent (w.performAll cs).events) :
    Unspent w.events := by
  have run : w.Emits (fun _ => True) (w.performAll cs) := .performAll fun _ _ => trivial
  exact run.unspent room

/-- A name that was given out is below the last one. -/
theorem Unspent.granted_lt {a : Allocation} {h : Handle} (room : Unspent (w.allocated a).events)
    (granted : w.granted a = .ok h) : h < RecordingDevice.lastHandle := by
  refine room (.allocation a (w.granted a)) (by simp) ⟨a.kind, h⟩ ?_
  rw [granted]
  rfl

end Room

namespace World

variable {R R' R'' : Correspondence} {w w' v v' u u' : World RecordingDevice}

/-- Two contexts that are the same but for the names of their objects. -/
structure Twin (R : Correspondence) (w w' : World RecordingDevice) : Prop extends w.Alike R w' where
  proper : R.IsRenaming
  /-- What corresponds was given out. -/
  known : ∀ k h h', R k h h' → h < w.device.nextHandle ∧ h' < w'.device.nextHandle
  /-- The first run gives out more names, so that it is the first to run out of them. -/
  ahead : w'.device.nextHandle ≤ w.device.nextHandle
  extensions : w'.device.extensions = w.device.extensions

/-- Two runs have come from `w` to `v` and from `w'` to `v'`, and the one did what the other did. -/
structure Echo (R : Correspondence) (w w' : World RecordingDevice) (R' : Correspondence)
    (v v' : World RecordingDevice) : Prop where
  grow : R ≤ R'
  twin : v.Twin R' v'
  events : ∃ es es', v.events = w.events ++ es ∧ v'.events = w'.events ++ es' ∧
    List.Forall₂ (Event.Twin R') es es'
  programs : v.device.programs = w.device.programs
  programs' : v'.device.programs = w'.device.programs

theorem Echo.refl (twin : w.Twin R w') : Echo R w w' R w w' :=
  ⟨le_rfl, twin, ⟨[], [], by simp, by simp, .nil⟩, rfl, rfl⟩

theorem Echo.trans (first : Echo R w w' R' v v') (second : Echo R' v v' R'' u u') :
    Echo R w w' R'' u u' := by
  obtain ⟨es, es', split, split', same⟩ := first.events
  obtain ⟨fs, fs', later, later', same'⟩ := second.events
  refine ⟨first.grow.trans second.grow, second.twin, ?_, second.programs.trans first.programs,
    second.programs'.trans first.programs'⟩
  refine ⟨es ++ fs, es' ++ fs', by rw [later, split, List.append_assoc],
    by rw [later', split', List.append_assoc], List.rel_append ?_ same'⟩
  exact same.imp fun _ _ event => event.mono second.grow

/-- One step more. -/
theorem Echo.next (run : Echo R w w' R' v v') (step : v.Twin R' v' → Echo R' v v' R'' u u') :
    Echo R w w' R'' u u' := run.trans (step run.twin)

namespace Twin

variable (twin : w.Twin R w')
include twin

/-- Only tables change. -/
theorem silent (alike : v.Alike R v') (trace : v.trace = w.trace) (trace' : v'.trace = w'.trace)
    (device : v.device = w.device) (device' : v'.device = w'.device) : Echo R w w' R v v' := by
  have events : v.events = w.events ++ [] := by simp [World.events, trace]
  have events' : v'.events = w'.events ++ [] := by simp [World.events, trace']
  refine ⟨le_rfl, ⟨alike, twin.proper, ?_, ?_, ?_⟩, ⟨[], [], events, events', .nil⟩, by rw [device],
    by rw [device']⟩
  all_goals rw [device, device']
  · exact twin.known
  · exact twin.ahead
  · exact twin.extensions

theorem emit {act act' : RecordingDevice → RecordingDevice} {e e' : Event}
    (keeps : w.device.Keeps (act w.device)) (keeps' : w'.device.Keeps (act' w'.device))
    (same : e.Twin R e') : Echo R w w' R (w.emit act e) (w'.emit act' e') := by
  refine ⟨le_rfl, ⟨{ twin.toAlike with }, twin.proper, ?_, ?_, ?_⟩,
    ⟨[e], [e'], by simp, by simp, .cons same .nil⟩, keeps.programs, keeps'.programs⟩
  · change ∀ k h h', R k h h' →
      h < (act w.device).nextHandle ∧ h' < (act' w'.device).nextHandle
    rw [keeps.nextHandle, keeps'.nextHandle]
    exact twin.known
  · change (act' w'.device).nextHandle ≤ (act w.device).nextHandle
    rw [keeps.nextHandle, keeps'.nextHandle]
    exact twin.ahead
  · exact keeps'.extensions.trans (twin.extensions.trans keeps.extensions.symm)

theorem perform {c c' : Command} (same : c.Twin R c') :
    Echo R w w' R (w.perform c) (w'.perform c') :=
  twin.emit (RecordingDevice.keeps_command (fun h => (same.keeps h).1) _)
    (RecordingDevice.keeps_command (fun h => (same.keeps h).2) _) (.command same)

theorem performAll {cs cs' : List Command} (same : List.Forall₂ (Command.Twin R) cs cs') :
    Echo R w w' R (w.performAll cs) (w'.performAll cs') := by
  induction same generalizing w w' with
  | nil => exact Echo.refl twin
  | cons head _ ih => exact (twin.perform head).next fun twin => ih twin

theorem called {c : Callback} : Echo R w w' R (w.called c) (w'.called c) :=
  twin.emit ⟨rfl, rfl, rfl⟩ ⟨rfl, rfl, rfl⟩ .callback

theorem probed (p : Probe) : Echo R w w' R (w.probed p) (w'.probed p) := by
  have same : w'.confirmed p = w.confirmed p := by
    cases p with
    | framebufferComplete => rfl
    | enableExtension name => exact congrArg (List.contains · name) twin.extensions
  refine twin.emit ⟨rfl, rfl, rfl⟩ ⟨rfl, rfl, rfl⟩ ?_
  rw [same]
  exact .probe

theorem readBack (r : PixelRead) : Echo R w w' R (w.readBack r) (w'.readBack r) :=
  twin.emit ⟨rfl, rfl, rfl⟩ ⟨rfl, rfl, rfl⟩ .read

theorem lookedUp {l l' : Lookup} (same : l.Twin R l') (answer : w'.located l' = w.located l) :
    Echo R w w' R (w.lookedUp l) (w'.lookedUp l') := by
  refine twin.emit ⟨rfl, rfl, rfl⟩ ⟨rfl, rfl, rfl⟩ ?_
  rw [answer]
  exact .lookup same

/-- Both hosts give the same. -/
theorem see (value : Accessor α) : w'.see value = w.see value := by
  unfold World.see
  rw [twin.host]

theorem looked (value : Accessor α) : Echo R w w' R (w.looked value) (w'.looked value) := by
  refine twin.silent { twin.toAlike with host := ?_ } rfl rfl rfl rfl
  rw [looked_host, looked_host, twin.host]

theorem listen (id : SurfaceId) {s s' : Subscription} (same : s.Twin R s') :
    Echo R w w' R (w.listen id s) (w'.listen id s') := by
  have trace (w : World RecordingDevice) (s : Subscription) :
      (w.listen id s).trace = w.trace ∧ (w.listen id s).device = w.device := by
    unfold World.listen
    split
    · split <;> exact ⟨rfl, rfl⟩
    · exact ⟨rfl, rfl⟩
  exact twin.silent (twin.toAlike.listen id same) (trace w s).1 (trace w' s').1 (trace w s).2
    (trace w' s').2

theorem notify {listeners listeners' : List Subscription}
    (twins : List.Forall₂ (Subscription.Twin R) listeners listeners') :
    Echo R w w' R (w.notify listeners) (w'.notify listeners') := by
  have trace (w : World RecordingDevice) (listeners : List Subscription) :
      (w.notify listeners).trace = w.trace ∧ (w.notify listeners).device = w.device := by
    induction listeners generalizing w with
    | nil => exact ⟨rfl, rfl⟩
    | cons s rest ih => exact ih _
  exact twin.silent (twin.toAlike.notify twin.proper twins) (trace w _).1 (trace w' _).1 (trace w _).2
    (trace w' _).2

theorem setRequests (key : RedrawKey) {r r' : RedrawRequests} (same : r.Twin R r') :
    Echo R w w' R (w.setRequests key r) (w'.setRequests key r') :=
  twin.silent (twin.toAlike.setRequests key same) rfl rfl rfl rfl

theorem setTexture {key key' : Nat} (same : key' = key) {t t' : RenderTexture} (new : t.Twin R t') :
    Echo R w w' R (w.setTexture key t) (w'.setTexture key' t') :=
  twin.silent (same ▸ twin.toAlike.setTexture key new) rfl rfl rfl rfl

theorem altered (key : Nat) {change change' : RenderTexture → RenderTexture}
    (same : ∀ t t', t.Twin R t' → (change t).Twin R (change' t')) :
    Echo R w w' R (w.altered key change) (w'.altered key change') := by
  have found := twin.texture? key
  unfold World.altered
  generalize w.texture? key = a, w'.texture? key = b at found
  cases found with
  | some known => exact twin.setTexture rfl (same _ _ known)
  | none => exact Echo.refl twin

theorem newKey : Echo R w w' R { w with nextKey := w.nextKey + 1 }
    { w' with nextKey := w'.nextKey + 1 } :=
  twin.silent { twin.toAlike with nextKey := by rw [twin.nextKey] } rfl rfl rfl rfl

/-- Steps over a list of the same things. -/
theorem foldl {β : Type} {step step' : World RecordingDevice → β → World RecordingDevice}
    {xs : List β} (each : ∀ w w', w.Twin R w' → ∀ x, Echo R w w' R (step w x) (step' w' x)) :
    Echo R w w' R (xs.foldl step w) (xs.foldl step' w') := by
  induction xs generalizing w w' with
  | nil => exact Echo.refl twin
  | cons x xs ih => exact (each w w' twin x).next fun twin => ih twin

end Twin

section Allocation

variable {a : Allocation}

/-- Anything but a program is to be had. -/
theorem granted_recording (w : World RecordingDevice) (resource : a.kind ≠ .program) :
    w.granted a = .ok w.device.nextHandle := by
  cases a with
  | program vertex fragment => exact absurd rfl resource
  | _ => rfl

/-- A new pair of objects corresponds. -/
theorem Twin.allocated (twin : w.Twin R w') (resource : a.kind ≠ .program)
    (room : Unspent (w.allocated a).events) :
    Echo R w w' (R.add a.kind w.device.nextHandle w'.device.nextHandle) (w.allocated a)
      (w'.allocated a) := by
  have device (w : World RecordingDevice) :
      (w.allocated a).device.nextHandle = w.device.mint.2.nextHandle ∧
        (w.allocated a).device.programs = w.device.programs ∧
        (w.allocated a).device.extensions = w.device.extensions := by
    cases a with
    | program vertex fragment => exact absurd rfl resource
    | _ => exact ⟨rfl, rfl, rfl⟩
  obtain ⟨counter, programs, extensions⟩ := device w
  obtain ⟨counter', programs', extensions'⟩ := device w'
  have below := room.granted_lt (granted_recording w resource)
  rw [RecordingDevice.counter_mint below] at counter
  rw [RecordingDevice.counter_mint (twin.ahead.trans_lt below)] at counter'
  refine ⟨le_add, ⟨{ twin.toAlike.mono le_add with }, ?_, ?_, ?_, ?_⟩, ?_, programs, programs'⟩
  · refine twin.proper.add (fun h' old => ?_) fun _ h old => ?_
    · exact Nat.lt_irrefl _ (twin.known _ _ _ old).1
    · exact Nat.lt_irrefl _ (twin.known _ _ _ old).2
  · rw [counter, counter']
    rintro k h h' (old | ⟨_, rfl, rfl⟩)
    · have bound := twin.known k h h' old
      exact ⟨Nat.lt_succ_of_lt bound.1, Nat.lt_succ_of_lt bound.2⟩
    · exact ⟨Nat.lt_succ_self _, Nat.lt_succ_self _⟩
  · rw [counter, counter']
    exact Nat.succ_le_succ twin.ahead
  · exact extensions'.trans (twin.extensions.trans extensions.symm)
  · refine ⟨[_], [_], emit_events, emit_events, .cons ?_ .nil⟩
    rw [granted_recording w resource, granted_recording w' resource]
    exact .allocation add_self

end Allocation
end World
end ShaderStack

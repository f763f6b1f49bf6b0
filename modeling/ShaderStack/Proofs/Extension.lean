import ShaderStack.Proofs.Execution
import ShaderStack.Proofs.Association

/-! What a run that only draws leaves alone.

Updates and frames use few kinds of commands, none of which allocates or deletes anything. Of the
library's tables they change queues, listeners and counters, which `bare` and `shell` take away. -/
namespace ShaderStack

variable {δ : Type}

/-- The commands of updates. -/
def Command.isUpdate : Command → Bool
  | bindBuffer _ _ | bufferData _ _ | vertexPointer _ _ | uniform _ _ | activeTexture _
  | bindTexture _ | textureImage _ _ => true
  | _ => false

/-- The commands of frames, updates included. -/
def Command.isFrame : Command → Bool
  | useProgram _ | bindVertexArray _ | bindFramebuffer _ | viewport _ _ _ _ | clear _ _
  | drawArrays _ _ _ | drawElements _ _ _ => true
  | c => c.isUpdate

def Event.isUpdate : Event → Bool
  | command c => c.isUpdate
  | _ => false

def Event.isFrame : Event → Bool
  | command c => c.isFrame
  | callback _ => true
  | _ => false

theorem Event.isFrame_of_isUpdate {e : Event} (update : e.isUpdate) : e.isFrame := by
  cases e with
  | command c => cases c <;> simp_all [isUpdate, isFrame, Command.isUpdate, Command.isFrame]
  | _ => simp [isUpdate] at update

/-- The commands that neither draw nor choose where and at what size draws go. -/
def Command.isQuiet : Command → Bool
  | bindFramebuffer _ | viewport _ _ _ _ | drawArrays _ _ _ | drawElements _ _ _ => false
  | _ => true

def Event.isQuiet : Event → Bool
  | command c => c.isQuiet
  | _ => true

/-- The commands that neither draw nor choose a size. -/
def Command.isSteady : Command → Bool
  | bindFramebuffer _ => true
  | c => c.isQuiet

def Event.isSteady : Event → Bool
  | command c => c.isSteady
  | _ => true

theorem Event.isSteady_of_isQuiet {e : Event} (quiet : e.isQuiet) : e.isSteady := by
  cases e with
  | command c => cases c <;> first | rfl | simp [isQuiet, Command.isQuiet] at quiet
  | _ => rfl

theorem Event.isQuiet_of_isUpdate {e : Event} (update : e.isUpdate) : e.isQuiet := by
  cases e with
  | command c => cases c <;> simp_all [isUpdate, isQuiet, Command.isUpdate, Command.isQuiet]
  | _ => rfl

/-- A program without what its updates change. -/
def Program.shell (p : Program) : Program :=
  { p with bindings := { p.bindings with queue := {}, elements := none } }

namespace RenderTexture

/-- A target without its listeners. -/
def bare (t : RenderTexture) : RenderTexture := { t with listeners := [] }

/-- A target without anything that a frame changes. -/
def shell (t : RenderTexture) : RenderTexture :=
  { t with programs := t.programs.map Program.shell, generation := 0, listeners := [] }

end RenderTexture

namespace World

/-- The world grew by allowed events only. -/
def Emits (allowed : Event → Prop) (w w' : World δ) : Prop :=
  ∃ es, w'.events = w.events ++ es ∧ ∀ e ∈ es, allowed e

namespace Emits

variable {allowed wider : Event → Prop} {w w₁ w₂ : World δ}

theorem silent (events : w₁.events = w.events) : Emits allowed w w₁ := ⟨[], by simp [events], by simp⟩

theorem refl (w : World δ) : Emits allowed w w := silent rfl

theorem trans (first : Emits allowed w w₁) (second : Emits allowed w₁ w₂) : Emits allowed w w₂ := by
  obtain ⟨es, split, all⟩ := first
  obtain ⟨fs, split', all'⟩ := second
  refine ⟨es ++ fs, by rw [split', split, List.append_assoc], ?_⟩
  intro e member
  rcases List.mem_append.mp member with early | late
  · exact all e early
  · exact all' e late

theorem mono (run : Emits allowed w w₁) (wide : ∀ e, allowed e → wider e) : Emits wider w w₁ := by
  obtain ⟨es, split, all⟩ := run
  exact ⟨es, split, fun e member => wide e (all e member)⟩

theorem emit {act : δ → δ} {event : Event} (fits : allowed event) :
    Emits allowed w (w.emit act event) :=
  ⟨[event], by simp, by simpa using fits⟩

theorem performAll [GraphicsDevice δ] {cs : List Command} (fits : ∀ c ∈ cs, allowed (.command c)) :
    Emits allowed w (w.performAll cs) := by
  induction cs generalizing w with
  | nil => exact refl w
  | cons c cs ih =>
    have head : Emits allowed w (w.perform c) := emit (fits c List.mem_cons_self)
    exact head.trans (ih fun d member => fits d (List.mem_cons_of_mem c member))

theorem push {act : δ → δ} {event : Event} (run : Emits allowed w w₁) (fits : allowed event) :
    Emits allowed w (w₁.emit act event) := run.trans (emit fits)

theorem pushAll [GraphicsDevice δ] {cs : List Command} (run : Emits allowed w w₁)
    (fits : ∀ c ∈ cs, allowed (.command c)) : Emits allowed w (w₁.performAll cs) :=
  run.trans (performAll fits)

/-- Runs one after another. -/
theorem foldl {step : World δ → β → World δ} {xs : List β}
    (each : ∀ w, ∀ x ∈ xs, Emits allowed w (step w x)) : Emits allowed w (xs.foldl step w) := by
  induction xs generalizing w with
  | nil => exact refl w
  | cons x xs ih =>
    exact (each w x List.mem_cons_self).trans (ih fun w y member => each w y (List.mem_cons_of_mem x member))

end Emits

/-- The world grew by allowed events only, and its tables look the same through `view`. -/
structure Extends (allowed : Event → Prop) (view : RenderTexture → RenderTexture)
    (w w' : World δ) : Prop where
  events : Emits allowed w w'
  textures : w'.textures.map (Prod.map id view) = w.textures.map (Prod.map id view)
  surfaces : ∀ name, (w'.surface name).texture = (w.surface name).texture
  nextKey : w'.nextKey = w.nextKey

namespace Extends

variable {allowed wider : Event → Prop} {view : RenderTexture → RenderTexture}
  {w w₁ w₂ : World δ}

/-- Only tables changed, none of which shows. -/
theorem silent (trace : w₁.trace = w.trace)
    (textures : w₁.textures.map (Prod.map id view) = w.textures.map (Prod.map id view))
    (surfaces : ∀ name, (w₁.surface name).texture = (w.surface name).texture)
    (nextKey : w₁.nextKey = w.nextKey) : Extends allowed view w w₁ :=
  ⟨Emits.silent (by simp [World.events, trace]), textures, surfaces, nextKey⟩

theorem refl (w : World δ) : Extends allowed view w w :=
  silent rfl rfl (fun _ => rfl) rfl

theorem trans (first : Extends allowed view w w₁) (second : Extends allowed view w₁ w₂) :
    Extends allowed view w w₂ :=
  ⟨first.events.trans second.events, second.textures.trans first.textures,
    fun name => (second.surfaces name).trans (first.surfaces name),
    second.nextKey.trans first.nextKey⟩

theorem mono (run : Extends allowed view w w₁) (wide : ∀ e, allowed e → wider e) :
    Extends wider view w w₁ :=
  ⟨run.events.mono wide, run.textures, run.surfaces, run.nextKey⟩

theorem emit {act : δ → δ} {event : Event} (fits : allowed event) :
    Extends allowed view w (w.emit act event) :=
  ⟨Emits.emit fits, rfl, fun _ => rfl, rfl⟩

/-- Whatever happens, it happens to the device. -/
theorem step {act : δ → δ} {event : Event} : Extends (fun _ => True) view w (w.emit act event) :=
  emit trivial

theorem looked {value : Accessor α} : Extends allowed view w (w.looked value) :=
  silent rfl rfl (fun _ => rfl) rfl

theorem performAll [GraphicsDevice δ] {cs : List Command} (fits : ∀ c ∈ cs, allowed (.command c)) :
    Extends allowed view w (w.performAll cs) := by
  induction cs generalizing w with
  | nil => exact refl w
  | cons c cs ih =>
    have head : Extends allowed view w (w.perform c) := emit (fits c List.mem_cons_self)
    exact head.trans (ih fun d member => fits d (List.mem_cons_of_mem c member))

theorem setRequests {key : RedrawKey} {r : RedrawRequests} :
    Extends allowed view w (w.setRequests key r) :=
  silent rfl rfl (fun _ => rfl) rfl

theorem notify {listeners : List Subscription} :
    Extends allowed view w (w.notify listeners) := by
  induction listeners generalizing w with
  | nil => exact refl w
  | cons s rest ih => exact setRequests.trans ih

/-- Changing a target in a way that the view does not show. -/
theorem setTexture {key : Nat} {t t' : RenderTexture} (present : w.texture? key = some t)
    (hidden : view t' = view t) : Extends allowed view w (w.setTexture key t') := by
  refine silent rfl ?_ (fun _ => rfl) rfl
  exact map_assign present (by simp [hidden])

theorem listen {id : SurfaceId} {s : Subscription} :
    Extends allowed RenderTexture.bare w (w.listen id s) := by
  cases id with
  | renderTexture key =>
    cases present : w.texture? key with
    | none =>
      rw [World.listen_missing present]
      exact refl w
    | some t =>
      rw [World.listen_present present]
      exact setTexture present rfl
  | external name =>
    refine silent rfl rfl ?_ rfl
    intro other
    unfold World.listen
    rw [World.surface_setSurface]
    by_cases same : other = name
    · rw [if_pos same, same]
    · rw [if_neg same]

/-- What shows without listeners also shows less. -/
theorem coarsen (run : Extends allowed RenderTexture.bare w w₁) :
    Extends allowed RenderTexture.shell w w₁ := by
  refine ⟨run.events, ?_, run.surfaces, run.nextKey⟩
  have views := congrArg (List.map (Prod.map id RenderTexture.shell)) run.textures
  have hidden : (Prod.map id RenderTexture.shell ∘ Prod.map id RenderTexture.bare :
      Nat × RenderTexture → Nat × RenderTexture) = Prod.map id RenderTexture.shell := rfl
  rwa [List.map_map, List.map_map, hidden] at views

/-- A target looks the same through the view wherever it is looked up. -/
theorem texture? (run : Extends allowed view w w₁) (key : Nat) :
    (w₁.texture? key).map view = (w.texture? key).map view := by
  unfold World.texture?
  rw [← lookup_map, ← lookup_map, run.textures]

/-- A target is found again after the run, up to what the view hides. -/
theorem exists_entry (run : Extends allowed view w w₁) {e' : Nat × RenderTexture}
    (member : e' ∈ w₁.textures) : ∃ e ∈ w.textures, view e'.2 = view e.2 := by
  obtain ⟨e, there, same⟩ := exists_of_map_eq run.textures member
  exact ⟨e, there, congrArg Prod.snd same⟩

theorem exists_texture (run : Extends allowed view w w₁) {key : Nat} {t : RenderTexture}
    (present : w.texture? key = some t) :
    ∃ t₁, w₁.texture? key = some t₁ ∧ view t₁ = view t := by
  have same := run.texture? key
  rw [present] at same
  exact Option.map_eq_some_iff.mp same

theorem present (run : Extends allowed view w w₁) {keys : List Nat}
    (present : ∀ key ∈ keys, ∃ t, w.texture? key = some t) :
    ∀ key ∈ keys, ∃ t, w₁.texture? key = some t := by
  intro key member
  obtain ⟨t, found⟩ := present key member
  obtain ⟨t₁, found₁, _⟩ := run.exists_texture found
  exact ⟨t₁, found₁⟩

end Extends
end World
end ShaderStack

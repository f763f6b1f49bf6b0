import ShaderStack.Proofs.Objects
import Mathlib.Logic.Function.Basic

/-! The graphics state that a trace leaves behind, as far as a draw depends on it.

Sampling parameters, blending and depth are left out: nothing that the library decides depends on
them. -/
namespace ShaderStack

/-- What was put into a texture last. Draws and clears put in what only the device knows. -/
inductive TextureContent
  | blank
  | image (layout : TextureImage) (pixels : Option (List UInt8))
  | drawn
  deriving DecidableEq, Repr

/-- Bindings and contents of one context. The vertex array of no name is the default one. -/
structure GraphicsState where
  program : Option Handle := none
  vertexArray : Option Handle := none
  arrayBuffer : Option Handle := none
  framebuffer : Option Handle := none
  /-- Corner and size that were set last. -/
  viewport : Option (Int32 × Int32 × UInt32 × UInt32) := none
  activeUnit : UInt32 := 0
  uniforms : Handle → Location → Option UniformPush := fun _ _ => none
  pointers : Option Handle → Location → Option (Option Handle × VertexLayout) := fun _ _ => none
  elementArrays : Option Handle → Option Handle := fun _ => none
  buffers : Handle → List UInt8 := fun _ => []
  units : UInt32 → Option Handle := fun _ => none
  textures : Handle → TextureContent := fun _ => .blank
  /-- The textures that framebuffers draw into. -/
  attachments : Handle → Option Handle := fun _ => none

namespace GraphicsState

open Function (update)

/-- The buffer bound to a target; each vertex array has its own element array. -/
def bound (target : BufferTarget) (g : GraphicsState) : Option Handle :=
  match target with
  | .array => g.arrayBuffer
  | .elementArray => g.elementArrays g.vertexArray

/-- The texture that draws and clears go to. -/
def target? (g : GraphicsState) : Option Handle := g.framebuffer.bind g.attachments

/-- Something was drawn or cleared. -/
def drawInto (g : GraphicsState) : GraphicsState :=
  match g.target? with
  | some texture => { g with textures := update g.textures texture .drawn }
  | none => g

/-- An object is as it is when it is new. -/
def reset (o : Object) (g : GraphicsState) : GraphicsState :=
  match o.kind with
  | .program => { g with uniforms := update g.uniforms o.handle fun _ => none }
  | .vertexArray =>
    { g with
      pointers := update g.pointers (some o.handle) fun _ => none
      elementArrays := update g.elementArrays (some o.handle) none }
  | .buffer => { g with buffers := update g.buffers o.handle [] }
  | .texture => { g with textures := update g.textures o.handle .blank }
  | .framebuffer => { g with attachments := update g.attachments o.handle none }
  | .renderbuffer => g

/-- A name without its object. -/
def without (h : Handle) (bound : Option Handle) : Option Handle := if bound = some h then none else bound

/-- What is deleted is bound no longer. A buffer also leaves the vertex array that is bound, and a
program stays in use. -/
def unbind (o : Object) (g : GraphicsState) : GraphicsState :=
  match o.kind with
  | .vertexArray => { g with vertexArray := without o.handle g.vertexArray }
  | .buffer =>
    { g with
      arrayBuffer := without o.handle g.arrayBuffer
      pointers := update g.pointers g.vertexArray fun location =>
        (g.pointers g.vertexArray location).map fun p => (without o.handle p.1, p.2)
      elementArrays := update g.elementArrays g.vertexArray
        (without o.handle (g.elementArrays g.vertexArray)) }
  | .texture => { g with units := fun unit => without o.handle (g.units unit) }
  | .framebuffer => { g with framebuffer := without o.handle g.framebuffer }
  | .program | .renderbuffer => g

def delete (o : Object) (g : GraphicsState) : GraphicsState := (g.unbind o).reset o

def afterCommand (c : Command) (g : GraphicsState) : GraphicsState :=
  match c with
  | .useProgram program => { g with program }
  | .bindVertexArray vertexArray => { g with vertexArray }
  | .bindBuffer .array buffer => { g with arrayBuffer := buffer }
  | .bindBuffer .elementArray buffer =>
    { g with elementArrays := update g.elementArrays g.vertexArray buffer }
  | .bufferData target data =>
    match g.bound target with
    | some buffer => { g with buffers := update g.buffers buffer data }
    | none => g
  | .vertexPointer location layout =>
    { g with
      pointers := update g.pointers g.vertexArray
        (update (g.pointers g.vertexArray) location (some (g.arrayBuffer, layout))) }
  | .uniform location push =>
    match g.program with
    | some program =>
      { g with
        uniforms := update g.uniforms program (update (g.uniforms program) location (some push)) }
    | none => g
  | .activeTexture unit => { g with activeUnit := unit }
  | .bindTexture texture => { g with units := update g.units g.activeUnit texture }
  | .textureImage image pixels =>
    match g.units g.activeUnit with
    | some texture => { g with textures := update g.textures texture (.image image pixels) }
    | none => g
  | .bindFramebuffer framebuffer => { g with framebuffer }
  | .framebufferTexture texture =>
    match g.framebuffer with
    | some framebuffer => { g with attachments := update g.attachments framebuffer (some texture) }
    | none => g
  | .framebufferRenderbuffer _ =>
    match g.framebuffer with
    | some framebuffer => { g with attachments := update g.attachments framebuffer none }
    | none => g
  | .viewport x y width height => { g with viewport := some (x, y, width, height) }
  | .clear _ _ | .drawArrays _ _ _ | .drawElements _ _ _ => g.drawInto
  | .textureParameters _ | .renderbufferStorage _ _ _ _ => g
  | .deleteProgram h => g.delete ⟨.program, h⟩
  | .deleteVertexArray h => g.delete ⟨.vertexArray, h⟩
  | .deleteBuffer h => g.delete ⟨.buffer, h⟩
  | .deleteTexture h => g.delete ⟨.texture, h⟩
  | .deleteFramebuffer h => g.delete ⟨.framebuffer, h⟩
  | .deleteRenderbuffer h => g.delete ⟨.renderbuffer, h⟩

def after (g : GraphicsState) (e : Event) : GraphicsState :=
  match e with
  | .allocation a (.ok h) => g.reset ⟨a.kind, h⟩
  | .command c => g.afterCommand c
  | _ => g

end GraphicsState

/-- The draw call of an event. -/
def Event.draw? : Event → Option Command
  | command (.drawArrays mode first count) => some (.drawArrays mode first count)
  | command (.drawElements mode count type) => some (.drawElements mode count type)
  | _ => none

/-- Every draw call, with the state in which it is made. -/
def GraphicsState.draws : GraphicsState → List Event → List (GraphicsState × Command)
  | _, [] => []
  | g, e :: es => (e.draw?.map fun c => (g, c)).toList ++ (g.after e).draws es

theorem GraphicsState.draws_eq_nil {g : GraphicsState} {es : List Event}
    (none : ∀ e ∈ es, e.draw? = .none) : g.draws es = [] := by
  induction es generalizing g with
  | nil => rfl
  | cons e es ih =>
    simp only [draws, none e List.mem_cons_self, Option.map_none, Option.toList_none, List.nil_append]
    exact ih fun e member => none e (List.mem_cons_of_mem _ member)

theorem GraphicsState.draws_append {g : GraphicsState} {es fs : List Event} :
    g.draws (es ++ fs) = g.draws es ++ (es.foldl after g).draws fs := by
  induction es generalizing g with
  | nil => rfl
  | cons e es ih => simp [draws, ih]

namespace Event

theorem draw?_isSteady {e : Event} (steady : e.isSteady) : e.draw? = none := by
  cases e with
  | command c => cases c <;> simp_all [draw?, isSteady, Command.isSteady, Command.isQuiet]
  | _ => rfl

theorem draw?_isQuiet {e : Event} (quiet : e.isQuiet) : e.draw? = none :=
  draw?_isSteady (isSteady_of_isQuiet quiet)

end Event

namespace GraphicsState

variable {g : GraphicsState} {e : Event}

/-- Where and at what size draws go. -/
abbrev aim (g : GraphicsState) : Option Handle × Option (Int32 × Int32 × UInt32 × UInt32) :=
  (g.framebuffer, g.viewport)

theorem aim_reset {o : Object} : (g.reset o).aim = g.aim := by
  unfold reset
  split <;> rfl

theorem aim_drawInto : g.drawInto.aim = g.aim := by
  unfold drawInto
  split <;> rfl

theorem viewport_delete {o : Object} : (g.delete o).viewport = g.viewport := by
  have unbound : (g.unbind o).viewport = g.viewport := by
    unfold unbind
    split <;> rfl
  exact (congrArg Prod.snd aim_reset).trans unbound

theorem framebuffer_delete {o : Object} (screen : g.framebuffer = none) :
    (g.delete o).framebuffer = none := by
  have unbound : (g.unbind o).framebuffer = none := by
    unfold unbind
    split <;> simp [screen, without]
  exact (congrArg Prod.fst aim_reset).trans unbound

/-- Steady events leave the viewport as it is. -/
theorem viewport_after_of_isSteady (steady : e.isSteady) : (g.after e).viewport = g.viewport := by
  cases e with
  | allocation a answer =>
    cases answer with
    | ok h => exact congrArg Prod.snd aim_reset
    | error e => rfl
  | command c =>
    cases c with
    | viewport _ _ _ _ | drawArrays _ _ _ | drawElements _ _ _ =>
      simp [Event.isSteady, Command.isSteady, Command.isQuiet] at steady
    | clear color depth => exact congrArg Prod.snd aim_drawInto
    | bindBuffer target buffer => cases target <;> rfl
    | deleteProgram _ | deleteVertexArray _ | deleteBuffer _ | deleteTexture _
    | deleteFramebuffer _ | deleteRenderbuffer _ =>
      exact viewport_delete
    | framebufferTexture _ | framebufferRenderbuffer _ | bufferData _ _ | uniform _ _
    | textureImage _ _ =>
      simp only [after, afterCommand]
      split <;> rfl
    | _ => rfl
  | _ => rfl

/-- Quiet events stay on the default framebuffer. -/
theorem framebuffer_after_of_isQuiet (quiet : e.isQuiet) (screen : g.framebuffer = none) :
    (g.after e).framebuffer = none := by
  cases e with
  | allocation a answer =>
    cases answer with
    | ok h => exact (congrArg Prod.fst aim_reset).trans screen
    | error e => exact screen
  | command c =>
    cases c with
    | bindFramebuffer _ | viewport _ _ _ _ | drawArrays _ _ _ | drawElements _ _ _ =>
      simp [Event.isQuiet, Command.isQuiet] at quiet
    | clear color depth => exact (congrArg Prod.fst aim_drawInto).trans screen
    | bindBuffer target buffer => cases target <;> exact screen
    | deleteProgram _ | deleteVertexArray _ | deleteBuffer _ | deleteTexture _
    | deleteFramebuffer _ | deleteRenderbuffer _ =>
      exact framebuffer_delete screen
    | framebufferTexture _ | framebufferRenderbuffer _ =>
      simp only [after, afterCommand, screen]
    | bufferData _ _ | uniform _ _ | textureImage _ _ =>
      simp only [after, afterCommand]
      split <;> exact screen
    | _ => exact screen
  | _ => exact screen

/-- Updates change neither the aim nor what is in use. -/
theorem after_of_isUpdate (update : e.isUpdate) :
    (g.after e).aim = g.aim ∧ (g.after e).vertexArray = g.vertexArray ∧
      (g.after e).program = g.program ∧ (g.after e).attachments = g.attachments := by
  cases e with
  | command c =>
    cases c with
    | bindBuffer target buffer => cases target <;> exact ⟨rfl, rfl, rfl, rfl⟩
    | bufferData _ _ | uniform _ _ | textureImage _ _ =>
      simp only [after, afterCommand]
      split <;> exact ⟨rfl, rfl, rfl, rfl⟩
    | vertexPointer _ _ | activeTexture _ | bindTexture _ => exact ⟨rfl, rfl, rfl, rfl⟩
    | _ => simp [Event.isUpdate, Command.isUpdate] at update
  | _ => simp [Event.isUpdate] at update

end GraphicsState

namespace World

variable {δ : Type} {w w' : World δ}

/-- The state that everything up to now has led to. -/
def graphics (w : World δ) : GraphicsState := w.events.foldl GraphicsState.after {}

theorem graphics_append {es : List Event} (split : w'.events = w.events ++ es) :
    w'.graphics = es.foldl GraphicsState.after w.graphics := by
  rw [graphics, split, List.foldl_append]
  rfl

@[simp] theorem graphics_emit {act : δ → δ} {e : Event} :
    (w.emit act e).graphics = w.graphics.after e := by
  simp [graphics]

theorem graphics_of_events (events : w'.events = w.events) : w'.graphics = w.graphics := by
  rw [graphics, events]
  rfl

@[simp] theorem graphics_looked {value : Accessor α} : (w.looked value).graphics = w.graphics := rfl

theorem graphics_performAll [GraphicsDevice δ] {cs : List Command} :
    (w.performAll cs).graphics = cs.foldl (fun g c => g.afterCommand c) w.graphics := by
  induction cs generalizing w with
  | nil => rfl
  | cons c cs ih => simp [ih, GraphicsState.after]

/-- What every event of a run keeps, the run keeps. -/
theorem Emits.graphics_keeps {allowed : Event → Prop} (fits : GraphicsState → Prop)
    (run : Emits allowed w w') (step : ∀ g e, allowed e → fits g → fits (g.after e))
    (start : fits w.graphics) : fits w'.graphics := by
  have steps (es : List Event) (g : GraphicsState) (all : ∀ e ∈ es, allowed e) (here : fits g) :
      fits (es.foldl GraphicsState.after g) := by
    induction es generalizing g with
    | nil => exact here
    | cons e es ih =>
      have next := step g e (all e List.mem_cons_self) here
      exact ih (g.after e) (fun e member => all e (List.mem_cons_of_mem _ member)) next
  obtain ⟨es, split, all⟩ := run
  rw [graphics_append split]
  exact steps es _ all start

/-- Quiet runs stay on the default framebuffer. -/
theorem Emits.screen_of_quiet (run : Emits (·.isQuiet) w w') (screen : w.graphics.framebuffer = none) :
    w'.graphics.framebuffer = none :=
  run.graphics_keeps (fun g => g.framebuffer = none)
    (fun _ _ quiet screen => GraphicsState.framebuffer_after_of_isQuiet quiet screen) screen

theorem Emits.viewport_of_steady (run : Emits (·.isSteady) w w') :
    w'.graphics.viewport = w.graphics.viewport :=
  run.graphics_keeps (fun g => g.viewport = w.graphics.viewport)
    (fun _ _ steady same => (GraphicsState.viewport_after_of_isSteady steady).trans same) rfl

/-- The events from one world to a later one, each draw of which is allowed. -/
def Draws (allowed : GraphicsState × Command → Prop) (w w' : World δ) : Prop :=
  ∃ es, w'.events = w.events ++ es ∧ ∀ d ∈ w.graphics.draws es, allowed d

namespace Draws

variable {allowed wider : GraphicsState × Command → Prop} {w₁ : World δ}

theorem silent (events : w'.events = w.events) : Draws allowed w w' :=
  ⟨[], by simp [events], by simp [GraphicsState.draws]⟩

theorem refl (w : World δ) : Draws allowed w w := silent rfl

theorem trans (first : Draws allowed w w₁) (second : Draws allowed w₁ w') : Draws allowed w w' := by
  obtain ⟨es, split, all⟩ := first
  obtain ⟨fs, split', all'⟩ := second
  refine ⟨es ++ fs, by rw [split', split, List.append_assoc], ?_⟩
  intro d member
  rw [GraphicsState.draws_append, ← graphics_append split] at member
  rcases List.mem_append.mp member with early | late
  · exact all d early
  · exact all' d late

theorem mono (run : Draws allowed w w') (wide : ∀ d, allowed d → wider d) : Draws wider w w' := by
  obtain ⟨es, split, all⟩ := run
  exact ⟨es, split, fun d member => wide d (all d member)⟩

theorem emit {act : δ → δ} {e : Event} (fits : ∀ c, e.draw? = some c → allowed (w.graphics, c)) :
    Draws allowed w (w.emit act e) := by
  refine ⟨[e], by simp, ?_⟩
  intro d member
  simp only [GraphicsState.draws, List.append_nil, Option.mem_toList, Option.map_eq_some_iff] at member
  obtain ⟨c, draw, rfl⟩ := member
  exact fits c draw

/-- Events that draw nothing. -/
theorem ofEmits {vocabulary : Event → Prop} (run : Emits vocabulary w w')
    (none : ∀ e, vocabulary e → e.draw? = .none) : Draws allowed w w' := by
  obtain ⟨es, split, all⟩ := run
  refine ⟨es, split, ?_⟩
  rw [GraphicsState.draws_eq_nil fun e member => none e (all e member)]
  simp

theorem performAll [GraphicsDevice δ] {cs : List Command}
    (none : ∀ c ∈ cs, Event.draw? (.command c) = .none) : Draws allowed w (w.performAll cs) :=
  ofEmits (Emits.performAll none) fun _ none => none

end Draws

/-- Nothing is drawn, and a context on the default framebuffer comes back to it at its old size. -/
structure Restores (w w' : World δ) : Prop where
  steady : Emits (·.isSteady) w w'
  screen : w.graphics.framebuffer = none → w'.graphics.framebuffer = none

namespace Restores

theorem ofQuiet (run : Emits (·.isQuiet) w w') : Restores w w' :=
  ⟨run.mono fun _ => Event.isSteady_of_isQuiet, run.screen_of_quiet⟩

/-- Whatever was bound, the default framebuffer is bound in the end. -/
theorem unbound [GraphicsDevice δ] (cs : List Command) (run : Emits (·.isSteady) w w')
    (quiet : ∀ c ∈ cs, c.isQuiet) : Restores w (w'.performAll (.bindFramebuffer none :: cs)) := by
  have rest : Emits (·.isQuiet) (w'.perform (.bindFramebuffer none))
      ((w'.perform (.bindFramebuffer none)).performAll cs) := Emits.performAll quiet
  have steady := (run.push (by rfl)).trans (rest.mono fun _ => Event.isSteady_of_isQuiet)
  refine ⟨steady, fun _ => rest.screen_of_quiet ?_⟩
  rw [graphics_emit]
  rfl

theorem draws {allowed : GraphicsState × Command → Prop} (run : Restores w w') :
    Draws allowed w w' :=
  Draws.ofEmits run.steady fun _ => Event.draw?_isSteady

theorem aim (run : Restores w w') (screen : w.graphics.framebuffer = none) :
    w'.graphics.aim = w.graphics.aim := by
  rw [GraphicsState.aim, GraphicsState.aim, run.steady.viewport_of_steady, run.screen screen, screen]

end Restores
end World
end ShaderStack

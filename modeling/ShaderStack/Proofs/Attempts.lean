import ShaderStack.Proofs.Mirrors
import ShaderStack.Proofs.Allocation

/-! Making and reading targets twice, and drawing stacks twice.

The recording device refuses nothing but a program that does not build, so that both runs get what they
ask for, or both are refused for what was asked. -/
namespace ShaderStack

open World (Echo)

variable {R : Correspondence} {w w' : World RecordingDevice}

/-- Two attempts that both succeed or both fail with one error, unless the names of the first run out. -/
def Attempt.Mirrored (R : Correspondence) (w w' : World RecordingDevice)
    (m : Attempt RecordingDevice α) (m' : Attempt RecordingDevice β)
    (same : Correspondence → α → β → Prop) : Prop :=
  m.Ends w
    (fun a v => Unspent v.events →
      m'.Ends w' (fun b v' => ∃ R', Echo R w w' R' v v' ∧ same R' a b) fun _ _ => False)
    fun e v => Unspent v.events →
      m'.Ends w' (fun _ _ => False) fun e' v' => e' = e ∧ ∃ R', Echo R w w' R' v v'

structure ReadTarget.Twin (R : Correspondence) (t t' : ReadTarget) : Prop where
  framebuffer : R .framebuffer t.framebuffer t'.framebuffer
  renderbuffer : R .renderbuffer t.renderbuffer t'.renderbuffer

/-- Two stacks whose caches may differ. The second one is of some kind. -/
structure Stack.Twin (R : Correspondence) (sound : ProgramCache → Prop) (s s' : Stack) : Prop where
  programs : List.Forall₂ (Program.Twin R) s.programs s'.programs
  layers : s'.layers = s.layers
  targets : List.Forall₂ (Keyed (ReadTarget.Twin R)) s.targets s'.targets
  cache : sound s'.cache
  resizeListeners : s'.resizeListeners = s.resizeListeners
  redraw : s'.redraw = s.redraw
  options : s'.options = s.options
  width : s'.width = s.width
  height : s'.height = s.height

theorem ReadTarget.Twin.mono {R' : Correspondence} {t t' : ReadTarget} (grow : R ≤ R')
    (same : t.Twin R t') : t.Twin R' t' :=
  ⟨grow _ _ _ same.framebuffer, grow _ _ _ same.renderbuffer⟩

theorem Stack.Twin.mono {R' : Correspondence} {sound wider : ProgramCache → Prop} {s s' : Stack}
    (grow : R ≤ R') (wide : ∀ cache, sound cache → wider cache) (same : s.Twin R sound s') :
    s.Twin R' wider s' :=
  { same with
    programs := same.programs.imp fun _ _ known => known.mono grow
    targets := keyed_mono same.targets fun _ _ known => known.mono grow
    cache := wide _ same.cache }

section Making

open Correspondence

variable {failed : RenderError → World RecordingDevice → Prop}

namespace RenderTexture

/-- The recording device has a target for every size that is not empty. -/
theorem ends_make_recording {width height : UInt32} {done : Nat → World RecordingDevice → Prop} :
    (make width height).Ends w done failed ↔
      if width = 0 ∨ height = 0 then failed (.resource (.emptyTexture width height)) w
      else
        let stored := (w.allocated .texture).performAll (storage w.device.nextHandle width height)
        let attached := (stored.allocated .framebuffer).performAll
          [.bindFramebuffer (some stored.device.nextHandle), .framebufferTexture w.device.nextHandle]
        let closed := (attached.probed .framebufferComplete).perform (.bindFramebuffer none)
        done closed.nextKey (World.setTexture closed.nextKey
          { texture := w.device.nextHandle, framebuffer := stored.device.nextHandle, width, height }
          { closed with nextKey := closed.nextKey + 1 }) := by
  have complete (w : World RecordingDevice) : w.confirmed .framebufferComplete = true := rfl
  have texture (w : World RecordingDevice) : w.granted .texture = .ok w.device.nextHandle := rfl
  have framebuffer (w : World RecordingDevice) :
      w.granted .framebuffer = .ok w.device.nextHandle := rfl
  rw [ends_make]
  simp only [complete, texture, framebuffer, Except.ok.injEq, forall_eq', Bool.not_true,
    Bool.false_eq_true, if_false, reduceCtorEq, IsEmpty.forall_iff, implies_true, and_true]

theorem storage_twin {texture texture' : Handle} (same : R .texture texture texture')
    (width height : UInt32) :
    List.Forall₂ (Command.Twin R) (storage texture width height) (storage texture' width height) :=
  .cons (.bindTexture (.some same)) (.cons (.plain fun _ => rfl)
    (.cons (.plain fun _ => rfl) (.cons (.bindTexture .none) .nil)))

theorem mirrored_make (twin : w.Twin R w') (width height : UInt32) :
    Attempt.Mirrored R w w' (make width height) (make width height) fun _ key key' => key' = key := by
  unfold Attempt.Mirrored
  rw [ends_make_recording]
  by_cases empty : width = 0 ∨ height = 0
  · rw [if_pos empty, ends_make_recording, if_pos empty]
    exact fun _ => ⟨rfl, R, Echo.refl twin⟩
  · rw [if_neg empty]
    dsimp only
    intro room
    rw [ends_make_recording, if_neg empty]
    have late : Unspent (((w.allocated .texture).performAll
        (storage w.device.nextHandle width height)).allocated .framebuffer).events :=
      room.of_emit.of_emit.of_performAll
    have stored := (twin.allocated (by decide) late.of_emit.of_performAll).next fun twin =>
      twin.performAll (storage_twin add_self width height)
    have attached := (stored.next fun twin => twin.allocated (by decide) late).next
      fun twin => twin.performAll
        (.cons (.bindFramebuffer (.some add_self))
          (.cons (.framebufferTexture (le_add _ _ _ add_self)) .nil))
    have closed := (attached.next fun twin => twin.probed .framebufferComplete).next fun twin =>
      twin.perform (.bindFramebuffer .none)
    have counted := closed.next fun twin => twin.newKey
    exact ⟨_, counted.trans (counted.twin.setTexture closed.twin.nextKey
      ⟨.nil, le_add _ _ _ add_self, add_self, rfl, rfl, rfl, .nil, rfl⟩), closed.twin.nextKey⟩

end RenderTexture

namespace Stack

variable {sound : ProgramCache → Prop} {s s' : Stack}

theorem mirrored_make (twin : w.Twin R w') (new : sound {}) (supported : Bool) (width height : UInt32)
    (options : StackOptions) :
    Attempt.Mirrored R w w' (make supported width height options)
      (make supported width height options) fun R' s s' => s.Twin R' sound s' := by
  unfold Attempt.Mirrored
  rw [ends_make]
  by_cases refused : !supported
  · rw [if_pos refused, ends_make, if_pos refused]
    exact fun _ => ⟨rfl, R, Echo.refl twin⟩
  · rw [if_neg refused]
    dsimp only
    rw [ends_make, if_neg refused]
    have enabled : Echo R w w' R
        ((extensions options).foldl (fun v name => v.probed (.enableExtension name)) w)
        ((extensions options).foldl (fun v name => v.probed (.enableExtension name)) w') :=
      twin.foldl fun _ _ twin name => twin.probed (.enableExtension name)
    have sized := enabled.next fun twin =>
      twin.perform (c := .viewport 0 0 width height) (.plain fun _ => rfl)
    exact fun _ => ⟨R, sized.next fun twin => twin.newKey,
      ⟨.nil, rfl, .nil, new, rfl, sized.twin.nextKey, rfl, rfl, rfl⟩⟩

/-- The recording device has a readback target for every size. -/
theorem ends_makeTarget_recording {internal : InternalFormat} {width height : UInt32}
    {done : ReadTarget → World RecordingDevice → Prop} :
    (makeTarget internal width height).Ends w done failed ↔
      let stored := (w.allocated .renderbuffer).perform
        (.renderbufferStorage w.device.nextHandle internal width height)
      let attached := (stored.allocated .framebuffer).performAll
        [.bindFramebuffer (some stored.device.nextHandle),
          .framebufferRenderbuffer w.device.nextHandle]
      done ⟨stored.device.nextHandle, w.device.nextHandle⟩ (attached.probed .framebufferComplete) := by
  have complete (w : World RecordingDevice) : w.confirmed .framebufferComplete = true := rfl
  have renderbuffer (w : World RecordingDevice) :
      w.granted .renderbuffer = .ok w.device.nextHandle := rfl
  have framebuffer (w : World RecordingDevice) :
      w.granted .framebuffer = .ok w.device.nextHandle := rfl
  rw [ends_makeTarget]
  simp only [complete, renderbuffer, framebuffer, Except.ok.injEq, forall_eq', Bool.not_true,
    Bool.false_eq_true, if_false, reduceCtorEq, IsEmpty.forall_iff, implies_true, and_true]

theorem mirrored_makeTarget (twin : w.Twin R w') (internal : InternalFormat) (width height : UInt32) :
    Attempt.Mirrored R w w' (makeTarget internal width height) (makeTarget internal width height)
      ReadTarget.Twin := by
  unfold Attempt.Mirrored
  rw [ends_makeTarget_recording]
  dsimp only
  intro room
  rw [ends_makeTarget_recording]
  have late : Unspent (((w.allocated .renderbuffer).perform
      (.renderbufferStorage w.device.nextHandle internal width height)).allocated .framebuffer).events :=
    room.of_emit.of_performAll
  have storage : Command.Twin (R.add .renderbuffer w.device.nextHandle w'.device.nextHandle)
      (.renderbufferStorage w.device.nextHandle internal width height)
      (.renderbufferStorage w'.device.nextHandle internal width height) := .renderbufferStorage add_self
  have stored := (twin.allocated (by decide) late.of_emit.of_emit).next fun twin => twin.perform storage
  have attached := (stored.next fun twin => twin.allocated (by decide) late).next
    fun twin => twin.performAll
      (.cons (.bindFramebuffer (.some add_self))
        (.cons (.framebufferRenderbuffer (le_add _ _ _ add_self)) .nil))
  exact ⟨_, attached.next fun twin => twin.probed .framebufferComplete,
    ⟨add_self, le_add _ _ _ add_self⟩⟩

theorem mirrored_bindTarget (twin : w.Twin R w') (same : s.Twin R sound s') (c : ReadConfig)
    (width height : UInt32) :
    Attempt.Mirrored R w w' (s.bindTarget c width height) (s'.bindTarget c width height)
      fun R' answer answer' => R' .framebuffer answer.1 answer'.1 ∧ answer.2.Twin R' sound answer'.2 := by
  unfold Attempt.Mirrored
  rw [ends_bindTarget]
  rcases rel_cases (lookup_keyed same.targets (c.resolve width height)) with
    ⟨here, there⟩ | ⟨target, target', here, there, known⟩
  · rw [here]
    refine (mirrored_makeTarget twin c.internalFormat width height).imp ?_ ?_
    · intro target v made room
      rw [ends_bindTarget, there]
      refine (made room).imp ?_ fun _ _ impossible => impossible
      rintro target' v' ⟨R', run, known⟩
      have wider := same.mono run.grow fun _ sound => sound
      exact ⟨R', run, known.framebuffer, { wider with
        targets := List.rel_append wider.targets (.cons ⟨rfl, known⟩ .nil) }⟩
    · intro e v failed room
      rw [ends_bindTarget, there]
      exact (failed room).imp (fun _ _ impossible => impossible) fun _ _ failed => failed
  · rw [here]
    dsimp only
    intro _
    rw [ends_bindTarget, there]
    exact ⟨R, twin.perform (.bindFramebuffer (.some known.framebuffer)), known.framebuffer, same⟩

theorem mirrored_targeted (twin : w.Twin R w') {framebuffer framebuffer' : Option Handle}
    (target : Option.Rel (R .framebuffer) framebuffer framebuffer') (width height : UInt32) :
    Echo R w w' R (targeted framebuffer width height w) (targeted framebuffer' width height w') := by
  cases target with
  | none => exact Echo.refl twin
  | some same =>
    exact twin.performAll (.cons (.bindFramebuffer (.some same)) (.cons (.plain fun _ => rfl) .nil))

/-- The same requests are answered. -/
theorem mirrored_answered (twin : w.Twin R w') (same : s.Twin R sound s') :
    Echo R w w' R (s.answered w) (s'.answered w') := by
  have drawn : List.Forall₂ (R .texture)
      (s.layers.filterMap fun key => w.textureOf? (.renderTexture key))
      (s.layers.filterMap fun key => w'.textureOf? (.renderTexture key)) := by
    refine List.rel_filterMap (R := Eq) ?_ (List.forall₂_refl _)
    rintro key _ rfl
    exact twin.textureOf? (.renderTexture key)
  unfold answered
  rw [same.layers, same.redraw]
  refine twin.setRequests s.redraw (List.rel_filter ?_ (twin.requests s.redraw))
  intro a b partner
  have member := List.rel_mem (twin.proper.biUnique (by decide)) partner drawn
  simpa using not_congr member

theorem mirrored_renderTo (twin : w.Twin R w') (same : s.Twin R sound s')
    {framebuffer framebuffer' : Option Handle}
    (target : Option.Rel (R .framebuffer) framebuffer framebuffer') (width height : UInt32) :
    ((s.renderTo framebuffer width height).run w).1.Twin R sound
        ((s'.renderTo framebuffer' width height).run w').1 ∧
      Echo R w w' R ((s.renderTo framebuffer width height).run w).2
        ((s'.renderTo framebuffer' width height).run w').2 := by
  have layered : Echo R w w' R
      (layered framebuffer width height s.layers (targeted framebuffer width height w))
      (layered framebuffer' width height s'.layers (targeted framebuffer' width height w')) := by
    rw [same.layers]
    refine (mirrored_targeted twin target width height).next fun twin => twin.foldl ?_
    exact fun _ _ twin key => RenderTexture.mirrored_renderInto twin key target width height
  obtain ⟨programs, drawn⟩ := Program.mirrored_renderAll layered.twin same.programs
  rw [run_renderTo, run_renderTo]
  exact ⟨{ same with programs }, (layered.trans drawn).next fun twin => mirrored_answered twin same⟩

theorem mirrored_read (twin : w.Twin R w') (same : s.Twin R sound s') (c : ReadConfig) :
    Attempt.Mirrored R w w' (s.read c) (s'.read c)
      fun R' answer answer' => answer.2.Twin R' sound answer'.2 := by
  have valid' : c.validate (c.width.getD s'.width) (c.height.getD s'.height) =
      c.validate (c.width.getD s.width) (c.height.getD s.height) := by
    rw [same.width, same.height]
  unfold Attempt.Mirrored
  rw [ends_read]
  dsimp only
  cases valid : c.validate (c.width.getD s.width) (c.height.getD s.height) with
  | error e =>
    dsimp only
    intro _
    rw [ends_read]
    dsimp only
    rw [valid', valid]
    exact ⟨rfl, R, Echo.refl twin⟩
  | ok fits =>
    refine (mirrored_bindTarget twin same c (c.width.getD s.width) (c.height.getD s.height)).imp ?_ ?_
    · rintro ⟨framebuffer, bound⟩ v made room
      have spare : Unspent (v.perform (.clear .opaqueBlack .one)).events :=
        extends_renderTo.events.unspent room.of_performAll.of_emit
      rw [ends_read]
      dsimp only
      rw [valid', valid, same.width, same.height]
      refine (made spare.of_emit).imp ?_ fun _ _ impossible => impossible
      rintro ⟨framebuffer', bound'⟩ v' ⟨R', run, target, known⟩
      have cleared := run.next fun twin =>
        twin.perform (c := .clear .opaqueBlack .one) (.plain fun _ => rfl)
      obtain ⟨drawn, frame⟩ := mirrored_renderTo cleared.twin known (.some target)
        (c.width.getD s.width) (c.height.getD s.height)
      have stored := (cleared.trans frame).next fun twin =>
        twin.readBack (pixelRead c (c.width.getD s.width) (c.height.getD s.height))
      refine ⟨R', stored.next fun twin => ?_, drawn⟩
      rw [drawn.width, drawn.height]
      exact twin.performAll (.cons (.bindFramebuffer .none) (.cons (.plain fun _ => rfl) .nil))
    · intro e v failed room
      rw [ends_read]
      dsimp only
      rw [valid', valid, same.width, same.height]
      exact (failed room).imp (fun _ _ impossible => impossible.elim) fun _ _ failed => failed

theorem mirrored_resize (twin : w.Twin R w') (same : s.Twin R sound s') (width height : UInt32) :
    ((s.resize width height).run w).1.Twin R sound ((s'.resize width height).run w').1 ∧
      Echo R w w' R ((s.resize width height).run w).2 ((s'.resize width height).run w').2 := by
  rw [run_resize, run_resize, same.width, same.height, same.resizeListeners]
  split
  · exact ⟨same, Echo.refl twin⟩
  · refine ⟨{ same with resizeListeners := rfl, width := rfl, height := rfl }, ?_⟩
    exact (twin.perform (.plain fun _ => rfl)).next fun twin => twin.foldl fun _ _ twin _ => twin.called

end Stack
end Making
end ShaderStack

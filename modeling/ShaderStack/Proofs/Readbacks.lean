import ShaderStack.Proofs.Managers
import ShaderStack.Proofs.Preparation
import ShaderStack.Proofs.Renderbuffers
import ShaderStack.Proofs.Viewports

/-! Readback targets are made once for a configuration with its size made explicit.

A stack only adds to its targets, and what is done beside them leaves their renderbuffers alone. So a
readback always finds the storage that it asks for, and no other readback of the stack shares it. One
that fails leaves everything as it was. -/
namespace ShaderStack

open World (Emits Extends Kept Upholds)

variable {δ : Type} {w w' w₁ : World δ}

/-- The pixels that are read in an event. -/
def Event.read? : Event → Option PixelRead
  | read r => some r
  | _ => none

/-- What a readback takes its pixels from: the framebuffer that is bound, and its image. -/
def Event.source? (e : Event) (o : OffscreenState) : Option (Option Handle × Option Storage) :=
  match e with
  | .read _ => some (o.graphics.framebuffer, o.image)
  | _ => none

namespace Event

variable {e : Event} {o : OffscreenState}

theorem read?_of_isFrame (frame : e.isFrame) : e.read? = none := by
  cases e with
  | read r => exact Bool.noConfusion frame
  | _ => rfl

theorem read?_of_isSetup (setup : e.isSetup) : e.read? = none := by
  cases e with
  | read r => exact Bool.noConfusion setup
  | _ => rfl

theorem source?_of_read? (unread : e.read? = none) : e.source? o = none := by
  cases e with
  | read r => exact nomatch unread
  | _ => rfl

end Event

namespace OffscreenState

/-- The events of a run, each with the state in which it happens. -/
def course : OffscreenState → List Event → List (OffscreenState × Event)
  | _, [] => []
  | o, e :: es => (o, e) :: (o.after e).course es

theorem course_append {o : OffscreenState} {es fs : List Event} :
    o.course (es ++ fs) = o.course es ++ (es.foldl after o).course fs := by
  induction es generalizing o with
  | nil => rfl
  | cons e es ih => simp [course, ih]

theorem mem_of_course {o : OffscreenState} {es : List Event} {m : OffscreenState × Event}
    (member : m ∈ o.course es) : m.2 ∈ es := by
  induction es generalizing o with
  | nil => simp [course] at member
  | cons e es ih =>
    rcases List.mem_cons.mp member with rfl | later
    · exact List.mem_cons_self
    · exact List.mem_cons_of_mem e (ih later)

/-- Every draw call is one of the events, in the graphics state that belongs to it. -/
theorem mem_draws {o : OffscreenState} {es : List Event} {m : OffscreenState × Event} {c : Command}
    (member : m ∈ o.course es) (draw : m.2.draw? = some c) :
    (m.1.graphics, c) ∈ o.graphics.draws es := by
  induction es generalizing o with
  | nil => simp [course] at member
  | cons e es ih =>
    rcases List.mem_cons.mp member with rfl | later
    · simp [GraphicsState.draws, draw]
    · exact List.mem_append_right _ (ih later)

end OffscreenState

namespace World

/-- The events from one world to a later one, each with the state in which it happens. -/
def course (w w' : World δ) : List (OffscreenState × Event) :=
  w.offscreen.course (w'.events.drop w.events.length)

/-- What was read on the way. -/
def sources (w w' : World δ) : List (Option Handle × Option Storage) :=
  (w.course w').filterMap fun m => m.2.source? m.1

theorem course_trans {allowed later : Event → Prop} (first : Emits allowed w w₁)
    (second : Emits later w₁ w') : w.course w' = w.course w₁ ++ w₁.course w' := by
  obtain ⟨es, split, _⟩ := first
  obtain ⟨fs, split', _⟩ := second
  have whole : w'.events = w.events ++ (es ++ fs) := by rw [split', split, List.append_assoc]
  rw [course, course, course, whole, List.drop_left, OffscreenState.course_append, ← whole, split',
    List.drop_left, ← offscreen_append split, split, List.drop_left]

theorem sources_trans {allowed later : Event → Prop} (first : Emits allowed w w₁)
    (second : Emits later w₁ w') : w.sources w' = w.sources w₁ ++ w₁.sources w' := by
  rw [sources, course_trans first second, List.filterMap_append, sources, sources]

theorem course_emit {act : δ → δ} {e : Event} : w.course (w.emit act e) = [(w.offscreen, e)] := by
  simp [course, OffscreenState.course]

theorem mem_of_course {allowed : Event → Prop} (run : Emits allowed w w')
    {m : OffscreenState × Event} (member : m ∈ w.course w') : allowed m.2 := by
  obtain ⟨es, split, all⟩ := run
  rw [course, split, List.drop_left] at member
  exact all _ (OffscreenState.mem_of_course member)

theorem sources_eq_nil (run : Emits (·.read? = none) w w') : w.sources w' = [] := by
  rw [sources, List.filterMap_eq_nil_iff]
  exact fun m member => Event.source?_of_read? (mem_of_course run member)

/-- As long as nothing is mounted, a target fits all the time. -/
theorem fits_course {t : ReadTarget} {key : ReadConfig} (run : Emits (fun e => e.isMounting = false) w w')
    (fits : t.Fits key w.offscreen) : ∀ m ∈ w.course w', t.Fits key m.1 := by
  obtain ⟨es, split, all⟩ := run
  rw [course, split, List.drop_left]
  clear split
  generalize w.offscreen = o at fits
  induction es generalizing o with
  | nil => simp [OffscreenState.course]
  | cons e es ih =>
    intro m member
    rcases List.mem_cons.mp member with rfl | later
    · exact fits
    · refine ih (fun e member => all e (List.mem_cons_of_mem _ member)) (o.after e) ?_ m later
      exact fits.after (ReadTarget.not_touches (all e List.mem_cons_self))

end World

namespace Stack

/-- The configuration of a readback, with the size that the stack gives it made explicit. -/
def resolved (s : Stack) (c : ReadConfig) : ReadConfig :=
  c.resolve (c.width.getD s.width) (c.height.getD s.height)

/-- What a readback of the stack has to be drawn into. -/
def pictured (s : Stack) (c : ReadConfig) : Storage :=
  ⟨c.internalFormat, c.width.getD s.width, c.height.getD s.height⟩

end Stack

/-- A target is found under its configuration, or it is added. -/
inductive Grows (key : ReadConfig) (target : ReadTarget) (old : List (ReadConfig × ReadTarget)) :
    List (ReadConfig × ReadTarget) → Prop
  | found (known : old.lookup key = some target) : Grows key target old old
  | added (unknown : old.lookup key = none) : Grows key target old (old ++ [(key, target)])

namespace Grows

variable {key : ReadConfig} {target : ReadTarget} {old new : List (ReadConfig × ReadTarget)}

theorem lookup (grows : Grows key target old new) : new.lookup key = some target := by
  cases grows with
  | found known => exact known
  | added unknown => simp [List.lookup_append, unknown]

/-- What was there is found as before. -/
theorem lookup_old (grows : Grows key target old new) {other : ReadConfig} {t : ReadTarget}
    (known : old.lookup other = some t) : new.lookup other = some t := by
  cases grows with
  | found _ => exact known
  | added _ => simp [List.lookup_append, known]

theorem mem_cases (grows : Grows key target old new) {entry : ReadConfig × ReadTarget}
    (member : entry ∈ new) : entry ∈ old ∨ entry = (key, target) := by
  cases grows with
  | found _ => exact .inl member
  | added _ => exact (List.mem_append.mp member).imp_right List.mem_singleton.mp

end Grows

/-- What a readback into a target does, from one world to the next. -/
structure Stack.ReadsInto (s : Stack) (c : ReadConfig) (target : ReadTarget) (s' : Stack)
    (w w' : World δ) : Prop where
  grows : Grows (s.resolved c) target s.targets s'.targets
  fits : target.Fits (s.resolved c) w'.offscreen
  drawn : ∀ m ∈ w.course w', m.2.draw?.isSome → target.Fits (s.resolved c) m.1
  taken : w.sources w' = [(some target.framebuffer, some (s.pictured c))]
  /-- With a target that is there already, nothing is made. -/
  frugal : s.targets.lookup (s.resolved c) = some target → ∀ m ∈ w.course w', m.2.creates? = none

section Resources

variable [GraphicsDevice δ] {rest : Multiset Object} {holds : Multiset Nat}

namespace Stack

/-- A new target's framebuffer draws into a renderbuffer of the size that was asked for. -/
theorem fits_makeTarget {c : ReadConfig} {width height : UInt32} :
    (makeTarget c.internalFormat width height).Ends w
      (fun target w' => target.Fits (c.resolve width height) w'.offscreen)
      fun _ w' => w'.textures = w.textures := by
  rw [ends_makeTarget]
  refine ⟨fun renderbuffer _ => ⟨fun framebuffer granted => ?_, fun _ _ => rfl⟩, fun _ _ => rfl⟩
  dsimp only
  split
  · rfl
  · constructor <;>
      simp [granted, OffscreenState.after, OffscreenState.rearranged, OffscreenState.reset,
        OffscreenState.carry, GraphicsState.after, GraphicsState.afterCommand, Allocation.kind,
        ReadConfig.storage, ReadConfig.resolve]

/-- The target of a readback fits its configuration, and the other targets fit as before. -/
theorem fits_bindTarget {s : Stack} {c : ReadConfig} {width height : UInt32}
    (kept : Kept rest holds w) (fitted : ∀ entry ∈ s.targets, entry.2.Fits entry.1 w.offscreen) :
    (bindTarget c width height s).Ends w
      (fun answer w' => ∃ target, target.framebuffer = answer.1 ∧
        Grows (c.resolve width height) target s.targets answer.2.targets ∧
        target.Fits (c.resolve width height) w'.offscreen ∧
        (s.targets.lookup (c.resolve width height) = some target →
          Emits (fun e => e.creates? = none) w w') ∧
        (Minting w'.events → Upholds (· ∈ w.owns + rest) w w'))
      fun _ w' => w'.textures = w.textures ∧
        (Minting w'.events → Upholds (· ∈ w.owns + rest) w w') := by
  rw [ends_bindTarget]
  cases known : s.targets.lookup (c.resolve width height) with
  | some target =>
    have bound : Emits (fun e => e.isMounting = false) w
        (w.perform (.bindFramebuffer (some target.framebuffer))) := Emits.emit rfl
    refine ⟨target, rfl, .found known, ?_, fun _ => Emits.emit rfl, fun _ => .unmounting bound⟩
    rw [World.offscreen_emit]
    exact (fitted _ (mem_of_lookup known)).after (ReadTarget.not_touches rfl)
  | none =>
    refine ((makes_makeTarget kept).and fits_makeTarget).imp ?_ fun _ _ failed =>
      ⟨failed.2, fun minting => (failed.1 minting).upholds⟩
    rintro target w' ⟨makes, fits⟩
    exact ⟨target, rfl, .added known, fits, nofun, fun minting => (makes minting).upholds⟩

/-- A frame that is drawn into a target is read from it, and nothing is made or mounted meanwhile. -/
theorem sources_renderTo {s : Stack} {target : ReadTarget} {key : ReadConfig} (width height : UInt32)
    (r : PixelRead) (present : ∀ key ∈ s.layers, ∃ t, w.texture? key = some t)
    (fits : target.Fits key w.offscreen) :
    let drawn := (s.renderTo (some target.framebuffer) width height).run
      (w.perform (.clear .opaqueBlack .one))
    let w' := (drawn.2.readBack r).performAll
      [.bindFramebuffer none, .viewport 0 0 drawn.1.width drawn.1.height]
    w.sources w' = [(some target.framebuffer, key.storage)] ∧
      Emits (fun e => e.isMounting = false ∧ e.creates? = none) w w' := by
  intro drawn w'
  have cleared : Emits (·.isFrame) w (w.perform (.clear .opaqueBlack .one)) := Emits.emit rfl
  have drawing : Extends (·.isFrame) RenderTexture.shell (w.perform (.clear .opaqueBlack .one)) drawn.2 :=
    extends_renderTo
  have framed : Emits (·.isFrame) w drawn.2 := cleared.trans drawing.events
  have read : Emits (fun e => e.isMounting = false ∧ e.creates? = none) drawn.2 (drawn.2.readBack r) :=
    Emits.emit ⟨rfl, rfl⟩
  have closing : Emits (·.isFrame) (drawn.2.readBack r) w' :=
    Emits.performAll (by simp [Event.isFrame, Command.isFrame])
  have idle {v v' : World δ} (run : Emits (·.isFrame) v v') :
      Emits (fun e => e.isMounting = false ∧ e.creates? = none) v v' :=
    run.mono fun _ frame => ⟨Event.isMounting_of_isFrame frame, (Event.untouched_of_isFrame frame).1⟩
  have here : target.Fits key drawn.2.offscreen := by
    have upheld : Upholds (fun _ => True) w drawn.2 :=
      .unmounting (framed.mono fun _ => Event.isMounting_of_isFrame)
    exact upheld target key (fun _ _ => trivial) fits
  have screen : drawn.2.offscreen.graphics.framebuffer = some target.framebuffer := by
    rw [World.graphics_offscreen]
    obtain ⟨_, aim⟩ := draws_renderTo (some target.framebuffer) width height
      (w := w.perform (.clear .opaqueBlack .one)) present
    simpa [frameAim] using congrArg Prod.fst aim
  have taken : drawn.2.sources (drawn.2.readBack r) = [(some target.framebuffer, key.storage)] := by
    rw [World.sources, World.readBack, World.course_emit, ← here.image screen, ← screen]
    rfl
  refine ⟨?_, ((idle framed).trans read).trans (idle closing)⟩
  rw [World.sources_trans ((idle framed).trans read) closing, World.sources_trans framed read, taken,
    World.sources_eq_nil (framed.mono fun _ => Event.read?_of_isFrame),
    World.sources_eq_nil (closing.mono fun _ => Event.read?_of_isFrame)]
  rfl

/-- A readback is drawn and read in a target that fits it. -/
theorem reads_read {s : Stack} {c : ReadConfig} (kept : Kept rest holds w)
    (fitted : ∀ entry ∈ s.targets, entry.2.Fits entry.1 w.offscreen)
    (present : ∀ key ∈ s.layers, ∃ t, w.texture? key = some t) :
    (s.read c).Ends w
      (fun answer w' => (∃ target, s.ReadsInto c target answer.2 w w') ∧
        (Minting w'.events → Upholds (· ∈ w.owns + rest) w w'))
      fun _ w' => w'.textures = w.textures ∧
        (Minting w'.events → Upholds (· ∈ w.owns + rest) w w') := by
  rw [ends_read]
  dsimp only
  split
  · exact ⟨rfl, fun _ => Upholds.refl w⟩
  · refine (((fits_bindTarget kept fitted).and setup_bindTarget).and steady_bindTarget).imp ?_
      fun _ _ failed => failed.1.1
    rintro ⟨framebuffer, bound⟩ w₁ ⟨⟨⟨target, rfl, grows, fits, frugal, upholds⟩, _, setup⟩, _, same,
      steady, textures⟩
    dsimp only at same ⊢
    have layers : bound.layers = s.layers := by rw [same]
    obtain ⟨programs, shown, _⟩ := renderTo_eq bound (some target.framebuffer) (c.width.getD s.width)
      (c.height.getD s.height) (w₁.perform (.clear .opaqueBlack .one))
    obtain ⟨taken, tail⟩ := sources_renderTo (s := bound) (c.width.getD s.width) (c.height.getD s.height)
      (pixelRead c (c.width.getD s.width) (c.height.getD s.height)) (fun key member => by
        rw [layers] at member
        rw [World.texture?, textures]
        exact present key member) fits
    have grown : Grows (s.resolved c) target s.targets ((bound.renderTo (some target.framebuffer)
        (c.width.getD s.width) (c.height.getD s.height)).run
          (w₁.perform (.clear .opaqueBlack .one))).1.targets := by
      rw [shown]
      exact grows
    have upheld {kept : Object → Prop} : Upholds kept w₁ _ :=
      .unmounting (tail.mono fun _ idle => idle.1)
    have whole := World.course_trans setup tail
    refine ⟨⟨target, grown, upheld target _ (fun _ _ => trivial) fits, fun m member draw => ?_, ?_,
      fun known m member => ?_⟩, fun minting => (upholds (tail.minting minting)).trans upheld⟩
    · rw [whole] at member
      rcases List.mem_append.mp member with early | late
      · rw [Event.draw?_isSteady (World.mem_of_course steady early)] at draw
        exact Bool.noConfusion draw
      · exact World.fits_course (tail.mono fun _ idle => idle.1) fits m late
    · rw [World.sources_trans setup tail, taken,
        World.sources_eq_nil (setup.mono fun _ => Event.read?_of_isSetup)]
      rfl
    · rw [whole] at member
      rcases List.mem_append.mp member with early | late
      · exact World.mem_of_course (frugal known) early
      · exact (World.mem_of_course tail late).2

end Stack
end Resources
end ShaderStack

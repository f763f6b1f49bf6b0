import ShaderStack.Proofs.Filling
import ShaderStack.Proofs.Frames

/-! Framebuffers and what is mounted on them.

A render texture is mounted on its framebuffer when it is made, a readback target has no texture, and
neither changes later. What is made spares everything that was there. -/
namespace ShaderStack

open World (Extends Emits Kept Spares)

variable {δ : Type} {w w' : World δ} {kept : Object → Prop}

/-- A framebuffer, and the texture that it draws into. -/
def RenderTexture.mount (t : RenderTexture) : Handle × Option Handle := (t.framebuffer, some t.texture)

def ReadTarget.mount (t : ReadTarget) : Handle × Option Handle := (t.framebuffer, none)

/-- Every framebuffer draws into what is mounted on it. -/
def GraphicsState.Mounted (g : GraphicsState) (mounts : List (Handle × Option Handle)) : Prop :=
  ∀ f ∈ mounts, g.attachments f.1 = f.2

namespace World

def mounts (w : World δ) : List (Handle × Option Handle) := w.textures.map fun t => t.2.mount

/-- The host and the library's tables of render textures and surfaces are as they were. -/
def SameTables (w w' : World δ) : Prop :=
  w'.host = w.host ∧ w'.textures = w.textures ∧ w'.surfaces = w.surfaces

/-- No render texture is new, and none has a new program or another mount. -/
def Within (w w' : World δ) : Prop :=
  ∀ e' ∈ w'.textures, ∃ e ∈ w.textures, e'.2.programs = e.2.programs ∧ e'.2.mount = e.2.mount

namespace Within

theorem of_textures (same : w'.textures = w.textures) : Within w w' :=
  fun e member => ⟨e, same ▸ member, rfl, rfl⟩

theorem trans {w₁ : World δ} (first : Within w w₁) (second : Within w₁ w') : Within w w' := by
  intro e' member
  obtain ⟨e₁, there, programs, mount⟩ := second e' member
  obtain ⟨e, here, programs', mount'⟩ := first e₁ there
  exact ⟨e, here, programs.trans programs', mount.trans mount'⟩

theorem of_extends {allowed : Event → Prop} (run : Extends allowed RenderTexture.bare w w') :
    Within w w' := by
  intro e' member
  obtain ⟨e, there, view⟩ := run.exists_entry member
  have programs := congrArg RenderTexture.programs view
  have mount := congrArg RenderTexture.mount view
  exact ⟨e, there, programs, mount⟩

theorem altered {key : Nat} {change : RenderTexture → RenderTexture}
    (same : ∀ t, (change t).programs = t.programs ∧ (change t).mount = t.mount) :
    Within w (w.altered key change) := by
  cases present : w.texture? key with
  | none =>
    refine of_textures ?_
    simp [World.altered, present]
  | some t =>
    intro e' member
    rw [altered_of_present present] at member
    rcases eq_or_mem_of_mem_assign member with rfl | there
    · exact ⟨_, mem_of_lookup present, same t⟩
    · exact ⟨e', there, rfl, rfl⟩

theorem programs (within : Within w w') : ∀ p ∈ w'.programs, p ∈ w.programs := by
  intro p member
  obtain ⟨e', there, mine⟩ := List.mem_flatMap.mp member
  obtain ⟨e, here, same, _⟩ := within e' there
  exact List.mem_flatMap.mpr ⟨e, here, same ▸ mine⟩

theorem mounts (within : Within w w') : ∀ f ∈ w'.mounts, f ∈ w.mounts := by
  intro f member
  obtain ⟨e', there, rfl⟩ := List.mem_map.mp member
  obtain ⟨e, here, _, same⟩ := within e' there
  exact same ▸ List.mem_map_of_mem here

end Within

theorem Extends.mounts {allowed : Event → Prop} (run : Extends allowed RenderTexture.shell w w') :
    w'.mounts = w.mounts := by
  have same := congrArg (List.map fun t : Nat × RenderTexture => t.2.mount) run.textures
  simpa [World.mounts, Function.comp_def, RenderTexture.shell, RenderTexture.mount] using same

theorem minting_of_emit {act : δ → δ} {e : Event} (minting : Minting (w.emit act e).events) :
    Minting w.events := by
  rw [emit_events] at minting
  exact minting_append minting

variable [GraphicsDevice δ]

theorem minting_of_performAll {cs : List Command} (minting : Minting (w.performAll cs).events) :
    Minting w.events := by
  have run : Emits (fun _ => True) w (w.performAll cs) := Emits.performAll fun _ _ => trivial
  exact run.minting minting

end World

/-- A program that was let go of is gone, and so may be the texture itself. -/
theorem RenderTexture.within_release [GraphicsDevice δ] (key : Nat) :
    w.Within ((release key).run w).2 := by
  cases present : w.texture? key with
  | none =>
    refine World.Within.of_textures ?_
    unfold release
    simp only [Engine.run_bind, Engine.run_get, present]
    rfl
  | some t =>
    rw [run_release present]
    split
    · exact World.Within.altered fun _ => ⟨rfl, rfl⟩
    · have dropped : Extends (fun _ => True) bare { w with textures := w.textures.filter (·.1 ≠ key) }
          (((Program.dropAll t.programs).run
            { w with textures := w.textures.filter (·.1 ≠ key) }).2.performAll
              [.deleteFramebuffer t.framebuffer, .deleteTexture t.texture]) :=
        (Program.extends_dropAll.mono fun _ _ => trivial).trans (Extends.performAll fun _ _ => trivial)
      have removed : w.Within { w with textures := w.textures.filter (·.1 ≠ key) } :=
        fun e member => ⟨e, List.mem_of_mem_filter member, rfl, rfl⟩
      exact removed.trans (World.Within.of_extends dropped)

section Commands

variable {g : GraphicsState} {framebuffer texture : Handle} {c : Cell}

/-- A new target's storage is written to its texture, through a unit. -/
theorem same_storage {width height : UInt32} (other : c ≠ .texture texture)
    (unit : ∀ n, c ≠ .unit n) :
    c.Same g (g.afterAll (RenderTexture.storage texture width height)) := by
  unfold RenderTexture.storage
  apply GraphicsState.same_cons (by simpa [GraphicsState.writes] using unit _)
  apply GraphicsState.same_cons (by simp [GraphicsState.writes, Command.deletes?])
  apply GraphicsState.same_cons (by
    simpa [GraphicsState.writes, GraphicsState.afterCommand] using other)
  apply GraphicsState.same_cons (by simpa [GraphicsState.writes] using unit _)
  exact Cell.Same.refl c _

/-- What is mounted on a framebuffer is written to the framebuffer only. -/
theorem same_mounted {attach : Command} (other : c ≠ .attachment framebuffer)
    (attaches : (∃ t, attach = .framebufferTexture t) ∨ ∃ r, attach = .framebufferRenderbuffer r) :
    c.Same g (g.afterAll [.bindFramebuffer (some framebuffer), attach]) := by
  apply GraphicsState.same_cons (by simp [GraphicsState.writes, Command.deletes?])
  rcases attaches with ⟨t, rfl⟩ | ⟨r, rfl⟩
  all_goals
    apply GraphicsState.same_cons (by
      simpa [GraphicsState.writes, GraphicsState.afterCommand] using other)
    exact Cell.Same.refl c _

end Commands

namespace World

variable [GraphicsDevice δ] {framebuffer texture : Handle}

theorem Spares.stored {width height : UInt32} (new : ¬ kept ⟨.texture, texture⟩) :
    Spares kept w (w.performAll (RenderTexture.storage texture width height)) := by
  constructor
  · intro free
    simpa [RenderTexture.storage, GraphicsState.after, GraphicsState.afterCommand] using free
  · intro _ c o part keep
    rw [graphics_performAll]
    apply same_storage
    · rintro rfl
      exact new (Option.some.inj part ▸ keep)
    · rintro n rfl
      simp [Cell.object?] at part

theorem Spares.mounted {attach : Command} (new : ¬ kept ⟨.framebuffer, framebuffer⟩)
    (attaches : (∃ t, attach = .framebufferTexture t) ∨ ∃ r, attach = .framebufferRenderbuffer r) :
    Spares kept w (w.performAll [.bindFramebuffer (some framebuffer), attach]) := by
  constructor
  · intro free
    rw [graphics_performAll]
    rcases attaches with ⟨t, rfl⟩ | ⟨r, rfl⟩ <;> exact free
  · intro _ c o part keep
    rw [graphics_performAll]
    refine same_mounted ?_ attaches
    rintro rfl
    exact new (Option.some.inj part ▸ keep)

theorem Spares.probed {p : Probe} : Spares kept w (w.probed p) := by
  have run : Emits (·.isPlain) w (w.probed p) := Emits.emit (by rfl)
  exact run.spares_of_isPlain

theorem Spares.deleted {d : Command} {o : Object} (deletes : d.deletes? = some o) (gone : ¬ kept o) :
    Spares kept w (w.perform d) := by
  have deleted : Spares kept w (w.performAll [d]) :=
    Spares.deleteAll fun d' member => by
      rw [List.mem_singleton.mp member]
      exact ⟨o, deletes, gone⟩
  exact deleted

theorem Spares.performed {d : Command} (plain : d.isPlain) : Spares kept w (w.perform d) := by
  have run : Emits (·.isPlain) w (w.perform d) := Emits.emit plain
  exact run.spares_of_isPlain

end World

variable [GraphicsDevice δ] {rest : Multiset Object} {holds : Multiset Nat}

/-- Targets are made, or given up on the way: what is written to is new, and what is deleted is not
kept. -/
inductive World.Makes (kept : Object → Prop) (w : World δ) : World δ → Prop
  | start : Makes kept w w
  | allocated {w₁ : World δ} {a : Allocation} (run : Makes kept w w₁)
      (new : ∀ h, w₁.granted a = .ok h → ¬ kept ⟨a.kind, h⟩) : Makes kept w (w₁.allocated a)
  | probed {w₁ : World δ} (p : Probe) (run : Makes kept w w₁) : Makes kept w (w₁.probed p)
  | stored {w₁ : World δ} {texture : Handle} {width height : UInt32} (run : Makes kept w w₁)
      (new : ¬ kept ⟨.texture, texture⟩) :
      Makes kept w (w₁.performAll (RenderTexture.storage texture width height))
  | sized {w₁ : World δ} {renderbuffer : Handle} {internal : InternalFormat} {width height : UInt32}
      (run : Makes kept w w₁) (new : ¬ kept ⟨.renderbuffer, renderbuffer⟩) :
      Makes kept w (w₁.perform (.renderbufferStorage renderbuffer internal width height))
  | mounted {w₁ : World δ} {framebuffer : Handle} {attach : Command} (run : Makes kept w w₁)
      (new : ¬ kept ⟨.framebuffer, framebuffer⟩)
      (attaches : (∃ t, attach = .framebufferTexture t) ∨ ∃ r, attach = .framebufferRenderbuffer r) :
      Makes kept w (w₁.performAll [.bindFramebuffer (some framebuffer), attach])
  | unbound {w₁ : World δ} (run : Makes kept w w₁) :
      Makes kept w (w₁.perform (.bindFramebuffer none))
  | deleted {w₁ : World δ} {d : Command} {o : Object} (run : Makes kept w w₁)
      (deletes : d.deletes? = some o) (gone : ¬ kept o) : Makes kept w (w₁.perform d)
  | noted {w₁ w₂ : World δ} (run : Makes kept w w₁) (events : w₂.events = w₁.events) :
      Makes kept w w₂

/-- What is kept is spared. -/
theorem World.Makes.spares (makes : w.Makes kept w') : Spares kept w w' := by
  induction makes with
  | start => exact Spares.refl w
  | allocated _ new ih => exact ih.trans (Spares.allocated new)
  | probed _ _ ih => exact ih.trans Spares.probed
  | stored _ new ih => exact ih.trans (Spares.stored new)
  | sized _ _ ih => exact ih.trans (Spares.performed rfl)
  | mounted _ new attaches ih => exact ih.trans (Spares.mounted new attaches)
  | unbound _ ih => exact ih.trans (Spares.performed rfl)
  | deleted _ deletes gone ih => exact ih.trans (Spares.deleted deletes gone)
  | noted _ events ih => exact ih.trans (Spares.silent events)

theorem attachments_texture {framebuffer texture : Handle} {p : Probe} (w : World δ) :
    (((w.performAll [.bindFramebuffer (some framebuffer), .framebufferTexture texture]).probed p).perform
      (.bindFramebuffer none)).graphics.attachments framebuffer = some texture := by
  simp [GraphicsState.after, GraphicsState.afterCommand]

theorem attachments_renderbuffer (framebuffer renderbuffer : Handle) (p : Probe) (w : World δ) :
    ((w.performAll [.bindFramebuffer (some framebuffer), .framebufferRenderbuffer renderbuffer]).probed
        p).graphics.attachments framebuffer = none ∧
      ((w.performAll [.bindFramebuffer (some framebuffer), .framebufferRenderbuffer renderbuffer]).probed
        p).graphics.framebuffer = some framebuffer := by
  simp [GraphicsState.after, GraphicsState.afterCommand]

namespace RenderTexture

theorem makes_make {width height : UInt32} (kept : Kept rest holds w) :
    (make width height : Attempt δ Nat).Ends w
      (fun _ w' => Minting w'.events → w.Makes (· ∈ w.owns + rest) w')
      fun _ w' => Minting w'.events → w.Makes (· ∈ w.owns + rest) w' := by
  rw [ends_make]
  split
  · exact fun _ => .start
  · refine ⟨?_, fun e granted minting => .allocated .start fun h granted => kept.fresh granted minting⟩
    intro texture granted
    have stored := (kept.allocated granted).performAll (storage texture width height)
      (by simp [storage, Command.deletes?])
    have unowned (minting : Minting (w.allocated .texture).events) :
        (⟨.texture, texture⟩ : Object) ∉ w.owns + rest := kept.fresh granted minting
    -- up to the second allocation the texture is in hand, and everything else is kept
    have framed (minting : Minting (World.allocated .framebuffer ((w.allocated .texture).performAll
        (storage texture width height))).events) : w.Makes (· ∈ w.owns + rest) (World.allocated
          .framebuffer ((w.allocated .texture).performAll (storage texture width height))) := by
      have before := World.minting_of_performAll (World.minting_of_emit minting)
      refine .allocated (.stored (.allocated .start fun h granted => kept.fresh granted before)
        (unowned before)) fun h granted' there => ?_
      exact stored.fresh granted' minting (World.mem_beside there)
    refine ⟨fun framebuffer granted' => ?_, fun e refused minting => ?_⟩
    · have new (minting : Minting (World.allocated .framebuffer ((w.allocated .texture).performAll
          (storage texture width height))).events) :
          (⟨.framebuffer, framebuffer⟩ : Object) ∉ w.owns + rest := fun there =>
        stored.fresh granted' minting (World.mem_beside there)
      dsimp only
      split
      · intro minting
        have early := World.minting_of_performAll (World.minting_of_emit (World.minting_of_emit
          (World.minting_of_performAll minting)))
        have closed := (((framed early).mounted (new early) (.inl ⟨texture, rfl⟩)).probed
          .framebufferComplete).unbound
        exact (closed.deleted rfl (new early)).deleted rfl
          (unowned (World.minting_of_performAll (World.minting_of_emit early)))
      · intro minting
        have early := World.minting_of_performAll (World.minting_of_emit (World.minting_of_emit minting))
        exact (((framed early).mounted (new early) (.inl ⟨texture, rfl⟩)).probed
          .framebufferComplete).unbound.noted rfl
    · have early := World.minting_of_emit minting
      exact (framed early).deleted rfl
        (unowned (World.minting_of_performAll (World.minting_of_emit early)))

theorem mounted_make {width height : UInt32} (kept : Kept rest holds w) :
    (make width height : Attempt δ Nat).Ends w
      (fun _ w' => Minting w'.events → Spares (· ∈ w.owns + rest) w w' ∧
        ∀ e' ∈ w'.textures, e' ∈ w.textures ∨
          e'.2.programs = [] ∧ w'.graphics.attachments e'.2.mount.1 = e'.2.mount.2)
      fun _ w' => w'.textures = w.textures ∧ (Minting w'.events → Spares (· ∈ w.owns + rest) w w') := by
  have tables : (make width height : Attempt δ Nat).Ends w
      (fun _ w' => ∀ e' ∈ w'.textures, e' ∈ w.textures ∨
        e'.2.programs = [] ∧ w'.graphics.attachments e'.2.mount.1 = e'.2.mount.2)
      fun _ w' => w'.textures = w.textures := by
    rw [ends_make]
    split
    · rfl
    · refine ⟨fun texture _ => ⟨fun framebuffer _ => ?_, fun _ _ => rfl⟩, fun _ _ => rfl⟩
      dsimp only
      split
      · rfl
      · intro e' member
        rcases eq_or_mem_of_mem_assign member with rfl | there
        · refine .inr ⟨rfl, ?_⟩
          exact attachments_texture _
        · exact .inl there
  refine ((makes_make kept).and tables).imp ?_ ?_
  · exact fun _ w' made minting => ⟨(made.1 minting).spares, made.2⟩
  · exact fun _ w' failed => ⟨failed.2, fun minting => (failed.1 minting).spares⟩

end RenderTexture
namespace Stack

theorem makes_makeTarget {internal : InternalFormat} {width height : UInt32}
    (kept : Kept rest holds w) :
    (makeTarget internal width height).Ends w
      (fun _ w' => Minting w'.events → w.Makes (· ∈ w.owns + rest) w')
      fun _ w' => Minting w'.events → w.Makes (· ∈ w.owns + rest) w' := by
  rw [ends_makeTarget]
  refine ⟨?_, fun e granted minting => .allocated .start fun h granted => kept.fresh granted minting⟩
  intro renderbuffer granted
  have stored := (kept.allocated granted).performed
    (c := .renderbufferStorage renderbuffer internal width height) rfl
  have unowned (minting : Minting (w.allocated .renderbuffer).events) :
      (⟨.renderbuffer, renderbuffer⟩ : Object) ∉ w.owns + rest := kept.fresh granted minting
  have framed (minting : Minting (World.allocated .framebuffer ((w.allocated .renderbuffer).perform
      (.renderbufferStorage renderbuffer internal width height))).events) :
      w.Makes (· ∈ w.owns + rest) (World.allocated .framebuffer ((w.allocated .renderbuffer).perform
        (.renderbufferStorage renderbuffer internal width height))) := by
    have before := World.minting_of_emit (World.minting_of_emit minting)
    refine .allocated (.sized (.allocated .start fun h granted => kept.fresh granted before)
      (unowned before)) fun h granted' there => ?_
    exact stored.fresh granted' minting (World.mem_beside there)
  refine ⟨fun framebuffer granted' => ?_, fun e refused minting => ?_⟩
  · have new (minting : Minting (World.allocated .framebuffer ((w.allocated .renderbuffer).perform
        (.renderbufferStorage renderbuffer internal width height))).events) :
        (⟨.framebuffer, framebuffer⟩ : Object) ∉ w.owns + rest := fun there =>
      stored.fresh granted' minting (World.mem_beside there)
    dsimp only
    split
    · intro minting
      have early := World.minting_of_performAll (World.minting_of_emit
        (World.minting_of_performAll minting))
      have closed := (((framed early).mounted (new early) (.inr ⟨renderbuffer, rfl⟩)).probed
        .framebufferComplete).unbound
      exact (closed.deleted rfl (new early)).deleted rfl
        (unowned (World.minting_of_emit (World.minting_of_emit early)))
    · intro minting
      have early := World.minting_of_performAll (World.minting_of_emit minting)
      exact ((framed early).mounted (new early) (.inr ⟨renderbuffer, rfl⟩)).probed .framebufferComplete
  · have early := World.minting_of_emit minting
    exact (framed early).deleted rfl (unowned (World.minting_of_emit (World.minting_of_emit early)))

theorem mounted_makeTarget {internal : InternalFormat} {width height : UInt32}
    (kept : Kept rest holds w) :
    (makeTarget internal width height).Ends w
      (fun target w' => w.SameTables w' ∧ w'.graphics.attachments target.framebuffer = none ∧
        w'.graphics.framebuffer = some target.framebuffer ∧
          (Minting w'.events → Spares (· ∈ w.owns + rest) w w'))
      fun _ w' => w.SameTables w' ∧ (Minting w'.events → Spares (· ∈ w.owns + rest) w w') := by
  have tables : (makeTarget internal width height).Ends w
      (fun target w' => w.SameTables w' ∧ w'.graphics.attachments target.framebuffer = none ∧
        w'.graphics.framebuffer = some target.framebuffer)
      fun _ w' => w.SameTables w' := by
    rw [ends_makeTarget]
    refine ⟨fun renderbuffer _ => ⟨fun framebuffer _ => ?_, fun _ _ => ⟨rfl, rfl, rfl⟩⟩,
      fun _ _ => ⟨rfl, rfl, rfl⟩⟩
    dsimp only
    split
    · exact ⟨rfl, rfl, rfl⟩
    · exact ⟨⟨rfl, rfl, rfl⟩, attachments_renderbuffer framebuffer renderbuffer .framebufferComplete _⟩
  refine ((makes_makeTarget kept).and tables).imp ?_ ?_
  · rintro target w' ⟨makes, same, blank, bound⟩
    exact ⟨same, blank, bound, fun minting => (makes minting).spares⟩
  · exact fun _ w' failed => ⟨failed.2, fun minting => (failed.1 minting).spares⟩

/-- The mounts of a stack's readback targets. -/
def mounts (s : Stack) : List (Handle × Option Handle) := s.targets.map fun t => t.2.mount

/-- A readback is bound to a framebuffer without a texture, which stays with the stack. -/
theorem mounted_bindTarget {s : Stack} {c : ReadConfig} {width height : UInt32}
    (kept : Kept rest holds w) (mounted : w.graphics.Mounted s.mounts) :
    (bindTarget c width height s).Ends w
      (fun answer w' => w.SameTables w' ∧ answer.2 = { s with targets := answer.2.targets } ∧
        w'.graphics.attachments answer.1 = none ∧ w'.graphics.framebuffer = some answer.1 ∧
          (Minting w'.events → Spares (· ∈ w.owns + rest) w w') ∧
          ∀ f ∈ answer.2.mounts, f ∈ s.mounts ∨ w'.graphics.attachments f.1 = f.2)
      fun _ w' => w.SameTables w' ∧ (Minting w'.events → Spares (· ∈ w.owns + rest) w w') := by
  rw [ends_bindTarget]
  cases found : s.targets.lookup (c.resolve width height) with
  | some target =>
    have mine : target.mount ∈ s.mounts := List.mem_map_of_mem (mem_of_lookup found)
    refine ⟨⟨rfl, rfl, rfl⟩, rfl, ?_, ?_, fun _ => Spares.performed rfl, fun f => .inl⟩
    · rw [World.graphics_emit]
      exact mounted _ mine
    · rw [World.graphics_emit]
      rfl
  | none =>
    refine (mounted_makeTarget kept).imp ?_ fun _ _ spares => spares
    rintro target w' ⟨tables, none, bound, spares⟩
    refine ⟨tables, rfl, none, bound, spares, fun f member => ?_⟩
    simp only [mounts, List.map_append, List.map_cons, List.map_nil, List.mem_append,
      List.mem_singleton] at member
    rcases member with old | rfl
    · exact .inl old
    · exact .inr none

/-- Letting go of a stack takes textures away at most. -/
theorem within_drop (s : Stack) (w : World δ) : w.Within (s.drop.run w).2 := by
  have programs : w.Within ((Program.dropAll s.programs).run w).2 :=
    World.Within.of_extends Program.extends_dropAll
  have layers (keys : List Nat) (w : World δ) :
      w.Within (keys.foldl (fun w key => ((RenderTexture.release key).run w).2) w) := by
    induction keys generalizing w with
    | nil => exact World.Within.of_textures rfl
    | cons key keys ih => exact (RenderTexture.within_release key).trans (ih _)
  have targets (ts : List (ReadConfig × ReadTarget)) (w : World δ) :
      w.Within (ts.foldl (fun w t => w.performAll
        [.deleteFramebuffer t.2.framebuffer, .deleteRenderbuffer t.2.renderbuffer]) w) := by
    induction ts generalizing w with
    | nil => exact World.Within.of_textures rfl
    | cons t ts ih => exact (World.Within.of_textures rfl).trans (ih _)
  rw [run_drop]
  refine ((programs.trans (layers s.layers _)).trans (targets s.targets _)).trans ?_
  have deleting (cs : List Command) (w : World δ) :
      Extends (fun _ => True) RenderTexture.bare w (w.performAll cs) :=
    Extends.performAll fun _ _ => trivial
  exact World.Within.of_extends (deleting _ _)

end Stack
end ShaderStack

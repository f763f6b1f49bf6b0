import ShaderStack.Proofs.Extension
import Mathlib.Algebra.BigOperators.Group.Multiset.Defs
import Mathlib.Data.List.Induction
import Mathlib.Data.List.TakeWhile

/-! The objects that a context holds, read off the trace.

An allocation that succeeds adds an object and a deletion takes one away. Objects are counted, so
that nothing here rests on the context giving out a name only once. -/
namespace ShaderStack

inductive ObjectKind
  | program
  | vertexArray
  | buffer
  | texture
  | framebuffer
  | renderbuffer
  deriving DecidableEq, Repr

structure Object where
  kind : ObjectKind
  handle : Handle
  deriving DecidableEq, Repr

def Allocation.kind : Allocation → ObjectKind
  | program _ _ => .program
  | vertexArray => .vertexArray
  | buffer => .buffer
  | texture => .texture
  | framebuffer => .framebuffer
  | renderbuffer => .renderbuffer

def Command.deletes? : Command → Option Object
  | deleteProgram h => some ⟨.program, h⟩
  | deleteVertexArray h => some ⟨.vertexArray, h⟩
  | deleteBuffer h => some ⟨.buffer, h⟩
  | deleteTexture h => some ⟨.texture, h⟩
  | deleteFramebuffer h => some ⟨.framebuffer, h⟩
  | deleteRenderbuffer h => some ⟨.renderbuffer, h⟩
  | _ => none

/-- The commands that give framebuffers their images, and those that delete either. -/
def Command.isMounting : Command → Bool
  | framebufferTexture _ | renderbufferStorage _ _ _ _ | framebufferRenderbuffer _ | deleteFramebuffer _
  | deleteRenderbuffer _ => true
  | _ => false

/-- The commands that fill textures. -/
def Command.isFilling : Command → Bool
  | textureImage _ (some _) => true
  | _ => false

namespace Event

def creates? : Event → Option Object
  | allocation a (.ok h) => some ⟨a.kind, h⟩
  | _ => none

def deletes? : Event → Option Object
  | command c => c.deletes?
  | _ => none

def isErasure (e : Event) : Bool := e.deletes?.isSome

theorem isQuiet_of_isErasure {e : Event} (erasure : e.isErasure) : e.isQuiet := by
  cases e with
  | command c => cases c <;> first | rfl | simp [isErasure, deletes?, Command.deletes?] at erasure
  | _ => rfl

/-- A target is put together or taken apart. -/
def isMounting : Event → Bool
  | allocation a _ => a.kind = .framebuffer ∨ a.kind = .renderbuffer
  | command c => c.isMounting
  | _ => false

/-- What a program consists of is deleted. -/
def isDisposal (e : Event) : Bool := e.isErasure && !e.isMounting

/-- What is done to compile a program, or to give up. -/
def isBuilding (e : Event) : Bool := e.isQuiet && !e.isMounting

/-- A texture is filled. -/
def isFilling : Event → Bool
  | command c => c.isFilling
  | _ => false

/-- What is done to compile a program fills no texture. -/
def isEquipping (e : Event) : Bool := e.isBuilding && !e.isFilling

theorem isErasure_of_isDisposal {e : Event} (disposal : e.isDisposal) : e.isErasure :=
  (Bool.and_eq_true_iff.mp disposal).1

theorem isQuiet_of_isBuilding {e : Event} (building : e.isBuilding) : e.isQuiet :=
  (Bool.and_eq_true_iff.mp building).1

theorem isBuilding_of_isDisposal {e : Event} (disposal : e.isDisposal) : e.isBuilding := by
  obtain ⟨erasure, apart⟩ := Bool.and_eq_true_iff.mp disposal
  exact Bool.and_eq_true_iff.mpr ⟨isQuiet_of_isErasure erasure, apart⟩

theorem isBuilding_of_isEquipping {e : Event} (equipping : e.isEquipping) : e.isBuilding :=
  (Bool.and_eq_true_iff.mp equipping).1

theorem isFilling_of_isEquipping {e : Event} (equipping : e.isEquipping) : e.isFilling = false := by
  simpa using (Bool.and_eq_true_iff.mp equipping).2

theorem isFilling_of_isErasure {e : Event} (erasure : e.isErasure) : e.isFilling = false := by
  cases e with
  | command c => cases c <;> first | rfl | simp [isErasure, deletes?, Command.deletes?] at erasure
  | _ => rfl

theorem isEquipping_of_isDisposal {e : Event} (disposal : e.isDisposal) : e.isEquipping := by
  have empty := isFilling_of_isErasure (isErasure_of_isDisposal disposal)
  exact Bool.and_eq_true_iff.mpr ⟨isBuilding_of_isDisposal disposal, by rw [empty]; rfl⟩

theorem isMounting_of_isBuilding {e : Event} (building : e.isBuilding) : e.isMounting = false := by
  simpa using (Bool.and_eq_true_iff.mp building).2

theorem isMounting_of_isFrame {e : Event} (frame : e.isFrame) : e.isMounting = false := by
  cases e with
  | command c => cases c <;> first | rfl | simp [isFrame, Command.isFrame, Command.isUpdate] at frame
  | callback c => rfl
  | _ => simp [isFrame] at frame

theorem untouched_of_isFrame {e : Event} (frame : e.isFrame) :
    e.creates? = none ∧ e.deletes? = none := by
  cases e with
  | command c =>
    refine ⟨rfl, ?_⟩
    cases c <;> first | rfl | simp [isFrame, Command.isFrame, Command.isUpdate] at frame
  | callback c => exact ⟨rfl, rfl⟩
  | _ => simp [isFrame] at frame

end Event

/-- The objects after one more event. -/
def liveAfter (objects : Multiset Object) (e : Event) : Multiset Object :=
  match e.creates?, e.deletes? with
  | some o, _ => {o} + objects
  | none, some o => objects.erase o
  | none, none => objects

section LiveAfter

variable {objects : Multiset Object} {e : Event} {o : Object}

theorem liveAfter_creates (creates : e.creates? = some o) :
    liveAfter objects e = {o} + objects := by
  simp [liveAfter, creates]

theorem Event.creates_of_deletes (deletes : e.deletes? = some o) : e.creates? = none := by
  cases e with
  | command c => rfl
  | _ => simp [deletes?] at deletes

theorem liveAfter_deletes (deletes : e.deletes? = some o) :
    liveAfter objects e = objects.erase o := by
  simp [liveAfter, Event.creates_of_deletes deletes, deletes]

theorem liveAfter_other (creates : e.creates? = none) (deletes : e.deletes? = none) :
    liveAfter objects e = objects := by
  simp [liveAfter, creates, deletes]

/-- An event creates, deletes or leaves the objects as they are. -/
theorem liveAfter_cases (objects : Multiset Object) (e : Event) :
    (∃ o, e.creates? = some o ∧ liveAfter objects e = {o} + objects) ∨
      (∃ o, e.deletes? = some o ∧ liveAfter objects e = objects.erase o) ∨
      e.creates? = none ∧ e.deletes? = none ∧ liveAfter objects e = objects := by
  cases creates : e.creates? with
  | some o => exact .inl ⟨o, rfl, liveAfter_creates creates⟩
  | none =>
    cases deletes : e.deletes? with
    | some o => exact .inr (.inl ⟨o, rfl, liveAfter_deletes deletes⟩)
    | none => exact .inr (.inr ⟨rfl, rfl, liveAfter_other creates deletes⟩)

end LiveAfter

/-- The objects that were created and not deleted since. -/
def live (es : List Event) : Multiset Object := es.foldl liveAfter 0

/-- A condition on each event and the objects that are there before it. -/
def Throughout (fits : Multiset Object → Event → Prop) : Multiset Object → List Event → Prop
  | _, [] => True
  | objects, e :: rest => fits objects e ∧ Throughout fits (liveAfter objects e) rest

instance (fits : Multiset Object → Event → Prop) [∀ m e, Decidable (fits m e)]
    (objects : Multiset Object) (es : List Event) : Decidable (Throughout fits objects es) :=
  match es with
  | [] => .isTrue trivial
  | e :: rest =>
    have := instDecidableThroughout fits (liveAfter objects e) rest
    inferInstanceAs (Decidable (fits objects e ∧ Throughout fits (liveAfter objects e) rest))

theorem throughout_append {fits : Multiset Object → Event → Prop} {objects : Multiset Object}
    {es fs : List Event} :
    Throughout fits objects (es ++ fs) ↔
      Throughout fits objects es ∧ Throughout fits (es.foldl liveAfter objects) fs := by
  induction es generalizing objects with
  | nil => simp [Throughout]
  | cons e es ih => simp [Throughout, ih, and_assoc]

/-- Only objects that are there are deleted. -/
def Orderly (es : List Event) : Prop :=
  Throughout (fun objects e => ∀ o ∈ e.deletes?, o ∈ objects) 0 es

/-- The context gives out no name that is in use. -/
structure Minting (es : List Event) : Prop where
  unused : Throughout (fun objects e => ∀ o ∈ e.creates?, o ∉ objects) 0 es

instance (es : List Event) : Decidable (Orderly es) :=
  inferInstanceAs (Decidable (Throughout _ _ _))

instance (es : List Event) : Decidable (Minting es) :=
  decidable_of_iff (Throughout _ _ _) ⟨Minting.mk, Minting.unused⟩

theorem live_snoc {es : List Event} {e : Event} : live (es ++ [e]) = liveAfter (live es) e := by
  simp [live]

theorem live_append {es fs : List Event} : live (es ++ fs) = fs.foldl liveAfter (live es) := by
  simp [live]

theorem orderly_snoc {es : List Event} {e : Event} :
    Orderly (es ++ [e]) ↔ Orderly es ∧ ∀ o ∈ e.deletes?, o ∈ live es := by
  simp [Orderly, throughout_append, Throughout, live]

theorem minting_append {es fs : List Event} (minting : Minting (es ++ fs)) : Minting es :=
  ⟨(throughout_append.mp minting.unused).1⟩

theorem minting_snoc {es : List Event} {e : Event} :
    Minting (es ++ [e]) ↔ Minting es ∧ ∀ o ∈ e.creates?, o ∉ live es := by
  refine ⟨?_, ?_⟩
  · intro minting
    obtain ⟨early, here, _⟩ := throughout_append.mp minting.unused
    exact ⟨⟨early⟩, here⟩
  · rintro ⟨early, here⟩
    exact ⟨throughout_append.mpr ⟨early.unused, here, trivial⟩⟩

/-- Distinct names keep the objects distinct. -/
theorem nodup_live {es : List Event} (minting : Minting es) : (live es).Nodup := by
  induction es using List.reverseRecOn with
  | nil => exact Multiset.nodup_zero
  | append_singleton es e ih =>
    obtain ⟨early, fresh⟩ := minting_snoc.mp minting
    have distinct := ih early
    rw [live_snoc]
    rcases liveAfter_cases (live es) e with ⟨o, creates, after⟩ | ⟨o, _, after⟩ | ⟨_, _, after⟩
    · rw [after, Multiset.singleton_add, Multiset.nodup_cons]
      exact ⟨fresh o creates, distinct⟩
    · rw [after]
      exact distinct.erase o
    · rwa [after]

section Lifetime

/-- The events after the creation of an object until its name is given out again. -/
def lifetime (o : Object) (after : List Event) : List Event :=
  after.takeWhile fun e => e.creates? ≠ some o

/-- How often an object is deleted. -/
def deletions (o : Object) (es : List Event) : Nat :=
  es.countP fun e => e.deletes? = some o

/-- Between two creations, an object is there until it is deleted. -/
theorem count_add_deletions {o : Object} {objects : Multiset Object} {es : List Event}
    (orderly : Throughout (fun objects e => ∀ o ∈ e.deletes?, o ∈ objects) objects es)
    (none_created : ∀ e ∈ es, e.creates? ≠ some o) :
    (es.foldl liveAfter objects).count o + deletions o es = objects.count o := by
  induction es generalizing objects with
  | nil => simp [deletions]
  | cons e es ih =>
    obtain ⟨here, later⟩ := orderly
    have rest := ih later fun e member => none_created e (List.mem_cons_of_mem _ member)
    have other : e.creates? ≠ some o := none_created e List.mem_cons_self
    have head : (liveAfter objects e).count o + (if e.deletes? = some o then 1 else 0) =
        objects.count o := by
      rcases liveAfter_cases objects e with ⟨new, creates, after⟩ | ⟨old, deletes, after⟩ |
        ⟨_, deletes, after⟩
      · have apart : new ≠ o := fun same => other (same ▸ creates)
        have silent : e.deletes? ≠ some o := by
          intro deletes
          rw [Event.creates_of_deletes deletes] at creates
          simp at creates
        rw [after, Multiset.count_add, Multiset.count_singleton, if_neg apart.symm, if_neg silent]
        omega
      · by_cases same : old = o
        · subst same
          have present : 0 < objects.count old := Multiset.count_pos.mpr (here old deletes)
          rw [after, Multiset.count_erase_self, if_pos deletes]
          omega
        · have silent : e.deletes? ≠ some o := by
            rw [deletes]
            exact fun equal => same (Option.some.inj equal)
          rw [after, Multiset.count_erase_of_ne (Ne.symm same), if_neg silent]
          omega
      · rw [after, deletes]
        simp
    simp only [List.foldl_cons, deletions, List.countP_cons] at rest ⊢
    simp only [decide_eq_true_eq]
    omega

/-- A name is given out anew only after the object was deleted. -/
theorem deletions_lifetime {before after : List Event} {e : Event} {o : Object}
    (orderly : Orderly (before ++ e :: after)) (minting : Minting (before ++ e :: after))
    (creates : e.creates? = some o) :
    deletions o (lifetime o after) ≤ 1 ∧
      (o ∉ live (before ++ e :: after) → deletions o (lifetime o after) = 1) := by
  have created : (liveAfter (live before) e).count o = 1 := by
    obtain ⟨_, fresh, _⟩ := throughout_append.mp minting.unused
    have absent : o ∉ live before := fresh o creates
    rw [liveAfter_creates creates, Multiset.count_add, Multiset.count_singleton_self,
      Multiset.count_eq_zero.mpr absent]
  have split : lifetime o after ++ after.dropWhile (fun e => e.creates? ≠ some o) = after :=
    List.takeWhile_append_dropWhile
  obtain ⟨_, _, rest⟩ := throughout_append.mp orderly
  rw [← split] at rest
  have uncreated : ∀ e ∈ lifetime o after, e.creates? ≠ some o := by
    intro e member
    simpa using List.mem_takeWhile_imp member
  have balance := count_add_deletions (throughout_append.mp rest).1 uncreated
  change _ + _ = (liveAfter (live before) e).count o at balance
  change ((lifetime o after).foldl liveAfter (liveAfter (live before) e)).count o + _ = _ at balance
  refine ⟨by omega, ?_⟩
  intro gone
  -- at the end of the lifetime the trace ends, or the name is given out again
  have absent : ((lifetime o after).foldl liveAfter (liveAfter (live before) e)).count o = 0 := by
    cases tail : after.dropWhile (fun e => e.creates? ≠ some o) with
    | nil =>
      rw [tail, List.append_nil] at split
      rw [split, Multiset.count_eq_zero]
      simpa [live] using gone
    | cons again later =>
      have creates' : again.creates? = some o := by
        have head := List.head?_dropWhile_not (fun e : Event => decide (e.creates? ≠ some o)) after
        rw [tail] at head
        simpa using head
      obtain ⟨_, _, minted⟩ := throughout_append.mp minting.unused
      rw [← split, tail] at minted
      obtain ⟨_, fresh, _⟩ := throughout_append.mp minted
      exact Multiset.count_eq_zero.mpr (fresh o creates')
  omega

end Lifetime

namespace World

variable {δ : Type} {w : World δ} {owned : Multiset Object}

/-- So far only objects that were there were deleted, and `owned` are those that are left. -/
def Accounted (owned : Multiset Object) (w : World δ) : Prop :=
  Orderly w.events ∧ live w.events = owned

theorem Accounted.emit {act : δ → δ} {e : Event} (accounted : w.Accounted owned)
    (creates : e.creates? = none) (deletes : e.deletes? = none) :
    (w.emit act e).Accounted owned := by
  obtain ⟨orderly, same⟩ := accounted
  refine ⟨?_, ?_⟩
  · rw [emit_events, orderly_snoc]
    exact ⟨orderly, by simp [deletes]⟩
  · rw [emit_events, live_snoc, liveAfter_other creates deletes, same]

theorem Accounted.delete [GraphicsDevice δ] {c : Command} {o : Object}
    (accounted : w.Accounted ({o} + owned)) (deletes : c.deletes? = some o) :
    (w.perform c).Accounted owned := by
  obtain ⟨orderly, same⟩ := accounted
  refine ⟨?_, ?_⟩
  · rw [emit_events, orderly_snoc, same]
    refine ⟨orderly, ?_⟩
    intro o' deletes'
    have equal : o = o' := Option.some.inj (deletes.symm.trans deletes')
    simp [equal]
  · rw [emit_events, live_snoc, liveAfter_deletes (e := .command c) deletes, same,
      Multiset.singleton_add, Multiset.erase_cons_head]

theorem Accounted.allocated [GraphicsDevice δ] {a : Allocation} {h : Handle}
    (accounted : w.Accounted owned) (granted : w.granted a = .ok h) :
    (w.allocated a).Accounted ({⟨a.kind, h⟩} + owned) := by
  obtain ⟨orderly, same⟩ := accounted
  have creates : Event.creates? (.allocation a (w.granted a)) = some ⟨a.kind, h⟩ := by
    rw [granted]
    rfl
  refine ⟨?_, ?_⟩
  · rw [emit_events, orderly_snoc]
    exact ⟨orderly, by simp [Event.deletes?]⟩
  · rw [emit_events, live_snoc, liveAfter_creates creates, same]

theorem Accounted.refused [GraphicsDevice δ] {a : Allocation} {e : RenderError}
    (accounted : w.Accounted owned) (granted : w.granted a = .error e) :
    (w.allocated a).Accounted owned := by
  refine accounted.emit ?_ rfl
  rw [granted]
  rfl

theorem Accounted.extend {w' : World δ} {view : RenderTexture → RenderTexture}
    {allowed : Event → Prop} (accounted : w.Accounted owned)
    (run : Extends allowed view w w')
    (harmless : ∀ e, allowed e → e.creates? = none ∧ e.deletes? = none) :
    w'.Accounted owned := by
  obtain ⟨es, split, all⟩ := run.events
  have steps (fs : List Event) (fits : ∀ e ∈ fs, allowed e) :
      Orderly (w.events ++ fs) ∧ live (w.events ++ fs) = owned := by
    induction fs using List.reverseRecOn with
    | nil =>
      rw [List.append_nil]
      exact accounted
    | append_singleton fs e ih =>
      obtain ⟨orderly, same⟩ := ih fun e member => fits e (List.mem_append_left _ member)
      obtain ⟨creates, deletes⟩ := harmless e (fits e (by simp))
      rw [← List.append_assoc, orderly_snoc, live_snoc, liveAfter_other creates deletes]
      exact ⟨⟨orderly, by simp [deletes]⟩, same⟩
  unfold Accounted
  rw [split]
  exact steps es all

theorem Accounted.frame {w' : World δ} {view : RenderTexture → RenderTexture}
    (accounted : w.Accounted owned) (run : Extends (·.isFrame) view w w') :
    w'.Accounted owned :=
  accounted.extend run fun _ => Event.untouched_of_isFrame

end World

end ShaderStack

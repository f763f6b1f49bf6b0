import ShaderStack.Proofs.Flushing
import ShaderStack.Proofs.Ownership
import ShaderStack.Proofs.Targets
import Mathlib.Algebra.BigOperators.Group.List.Basic

/-! What frames show.

A program's objects are its own, so that while others draw everything stays where it was uploaded. In
a calm moment each draw therefore shows what the accessors of its program give. -/
namespace ShaderStack

open World (Extends Emits Draws)

variable {δ : Type} [GraphicsDevice δ] {w : World δ} {m : Moment}

namespace GraphicsState

variable {g : GraphicsState} {e : Event}

/-- Frames attach nothing. -/
theorem attachments_after_of_isFrame (frame : e.isFrame) :
    (g.after e).attachments = g.attachments := by
  funext h
  have silent : ¬ g.writes e (.attachment h) := by
    cases e with
    | command c =>
      cases c with
      | bindBuffer target buffer => cases target <;> simp [writes, Command.deletes?]
      | _ => simp_all [writes, Command.deletes?, Event.isFrame, Command.isFrame, Command.isUpdate]
    | _ => simp_all [writes, Event.isFrame]
  exact same_after silent

end GraphicsState

omit [GraphicsDevice δ] in
theorem World.Emits.attachments_of_isFrame {w' : World δ} (run : Emits (·.isFrame) w w') :
    w'.graphics.attachments = w.graphics.attachments :=
  run.graphics_keeps (fun g => g.attachments = w.graphics.attachments)
    (fun _ _ frame same => (GraphicsState.attachments_after_of_isFrame frame).trans same) rfl

namespace Program

variable {p : Program} {tokens : List Token} {seen : List HostArray}

/-- A program without what its updates remember. -/
def frozen (p : Program) : Program :=
  { p with
    bindings :=
      { p.bindings with
        queue := ⟨p.bindings.queue.entries.map (Prod.map id Update.frozen)⟩
        elements := none } }

/-- The arrays that were uploaded last. -/
def uploads (p : Program) : List HostArray := p.bindings.queue.entries.flatMap fun e => e.2.uploads

/-- Every update brings a token and has cells of its own, which are parts of the program's objects. -/
structure Wired (tokens : List Token) (p : Program) : Prop where
  carries : ∀ e ∈ p.bindings.queue.entries, ∃ t ∈ tokens, e.2.Carries t
  apart : UpdateQueue.Apart p.handle p.bindings.vertexArray p.bindings.queue.entries
  owned : ∀ e ∈ p.bindings.queue.entries, ∀ c ∈ e.2.stores p.bindings.vertexArray,
    ∃ o ∈ p.owns, c.object? = some o

/-- What was uploaded last for each update is there. -/
def Settled (g : GraphicsState) (p : Program) : Prop :=
  ∀ e ∈ p.bindings.queue.entries,
    e.2.Settled p.bindings.vertexArray g p.bindings.elements

section Frozen

variable {p' : Program} (same : p'.frozen = p.frozen)
include same

theorem entries_of_frozen :
    p'.bindings.queue.entries.map (Prod.map id Update.frozen) =
      p.bindings.queue.entries.map (Prod.map id Update.frozen) := by
  have queues := congrArg (fun p : Program => p.bindings.queue.entries) same
  exact queues

theorem owns_of_frozen : p'.owns = p.owns := by
  have owned := congrArg owns same
  exact owned

theorem handles_of_frozen : p'.handle = p.handle ∧
    p'.bindings.vertexArray = p.bindings.vertexArray := by
  have handles := congrArg handle same
  have arrays := congrArg (fun p : Program => p.bindings.vertexArray) same
  exact ⟨handles, arrays⟩

theorem Wired.of_frozen (wired : p.Wired tokens) : p'.Wired tokens := by
  have entries := entries_of_frozen same
  obtain ⟨handles, arrays⟩ := handles_of_frozen same
  refine ⟨?_, ?_, ?_⟩
  · intro e' member
    obtain ⟨e, there, _, update⟩ := UpdateQueue.exists_frozen entries e' member
    obtain ⟨t, known, carried⟩ := wired.carries e there
    exact ⟨t, known, (Update.carries_of_frozen update).mpr carried⟩
  · rw [← UpdateQueue.apart_frozen, entries, handles, arrays, UpdateQueue.apart_frozen]
    exact wired.apart
  · intro e' member c stored
    obtain ⟨e, there, _, update⟩ := UpdateQueue.exists_frozen entries e' member
    rw [arrays, Update.stores_of_frozen update] at stored
    rw [owns_of_frozen same]
    exact wired.owned e there c stored

end Frozen

section Render

/-- Settled programs stay so where what they have stored is left alone. -/
theorem Settled.keep {g g' : GraphicsState} (settled : p.Settled g) (wired : p.Wired tokens)
    (same : ∀ u : Update, ∀ c ∈ u.stores p.bindings.vertexArray, ∀ o ∈ p.owns,
      c.object? = some o → c.Same g g') : p.Settled g' := by
  intro e member
  refine (settled e member).keep ?_ fun _ => rfl
  intro c stored
  obtain ⟨o, mine, part⟩ := wired.owned e member c stored
  exact same e.2 c stored o mine part

theorem inUse_readied : (p.readied w).graphics.vertexArray = some p.bindings.vertexArray ∧
    (p.readied w).graphics.program = some p.handle := by
  simp [readied, GraphicsState.after, GraphicsState.afterCommand]

theorem same_readied {c : Cell} : c.Same w.graphics (p.readied w).graphics := by
  cases c <;> simp [readied, GraphicsState.after, GraphicsState.afterCommand, Cell.Same]

/-- What was uploaded last is still there when the program draws. -/
theorem settled_before (wired : p.Wired tokens) (settled : p.Settled w.graphics) :
    (p.flushed w).Settled (p.before w).graphics := by
  obtain ⟨bound, used⟩ := inUse_readied (p := p) (w := w)
  have ready : p.Settled (p.readied w).graphics := settled.keep wired fun _ _ _ _ _ _ => same_readied
  rw [graphics_before_eq, Bindings.run_flush]
  unfold flushed
  rw [Bindings.run_flush]
  exact UpdateQueue.settled_ran wired.apart bound used ready

theorem shown_before (calm : m.Calm) (reaches : m.Reaches seen w.host) (wired : p.Wired m.tokens)
    (uploaded : ∀ a ∈ p.uploads, a ∈ seen) (surfaces : w.textureOf? = m.surfaces)
    (settled : p.Settled w.graphics) : ∀ e ∈ (p.flushed w).bindings.queue.entries,
      e.2.Shown m p.handle p.bindings.vertexArray (p.before w).graphics
        (p.flushed w).bindings.elements := by
  obtain ⟨bound, used⟩ := inUse_readied (p := p) (w := w)
  have ready : p.Settled (p.readied w).graphics := settled.keep wired fun _ _ _ _ _ _ => same_readied
  have mine : ∀ e ∈ p.bindings.queue.entries, ∀ a ∈ e.2.uploads, a ∈ seen :=
    fun e member a upload => uploaded a (List.mem_flatMap.mpr ⟨e, member, upload⟩)
  have textures : (p.readied w).textureOf? = m.surfaces := surfaces
  rw [graphics_before_eq, Bindings.run_flush]
  unfold flushed
  rw [Bindings.run_flush]
  exact UpdateQueue.shown_ran calm reaches wired.carries mine textures wired.apart bound used ready

theorem frozen_flushed : (p.flushed w).frozen = p.frozen := by
  unfold flushed frozen
  rw [Bindings.run_flush]
  simp only [UpdateQueue.frozen_ran]

theorem inUse_before : (p.before w).graphics.vertexArray = some p.bindings.vertexArray ∧
    (p.before w).graphics.program = some p.handle := by
  obtain ⟨bound, used⟩ := inUse_readied (p := p) (w := w)
  rw [graphics_before_eq, Bindings.run_flush]
  obtain ⟨sameArray, sameProgram⟩ :=
    UpdateQueue.inUse_ran p.bindings.queue.entries p.bindings.elements (p.readied w)
  exact ⟨sameArray.trans bound, sameProgram.trans used⟩

theorem host_before : (p.render.run w).2.host = (p.before w).host := by
  rw [run_render]
  simp

/-- Drawing reads the tokens of the program, and what it uploads is what it has read. -/
theorem reads_render (wired : p.Wired m.tokens) (reaches : m.Reaches seen w.host)
    (uploaded : ∀ a ∈ p.uploads, a ∈ seen) :
    ∃ seen', m.Reaches seen' (p.render.run w).2.host ∧ (∀ a ∈ seen, a ∈ seen') ∧
      ∀ a ∈ (p.flushed w).uploads, a ∈ seen' := by
  have mine : ∀ e ∈ p.bindings.queue.entries, ∀ a ∈ e.2.uploads, a ∈ seen :=
    fun e member a upload => uploaded a (List.mem_flatMap.mpr ⟨e, member, upload⟩)
  obtain ⟨seen', reaches', more, uploaded'⟩ := UpdateQueue.reads_ran (w := p.readied w)
    p.bindings.elements reaches wired.carries mine
  have host : (p.before w).host = (p.bindings.flush.run (p.readied w)).2.host := by
    unfold before World.hooked
    split <;> rfl
  refine ⟨seen', ?_, more, ?_⟩
  · rw [host_before, host, Bindings.run_flush]
    exact reaches'
  · intro a member
    obtain ⟨e, there, upload⟩ := List.mem_flatMap.mp member
    unfold flushed at there
    rw [Bindings.run_flush] at there
    exact uploaded' e there a upload

/-- The texture that frames draw to now. -/
theorem target_before : (p.before w).graphics.target? = w.graphics.target? := by
  have run : Extends (fun e => e.isFrame ∧ e.isQuiet) RenderTexture.bare w (p.before w) :=
    extends_before
  have attachments : (p.before w).graphics.attachments = w.graphics.attachments :=
    (run.events.mono fun _ fits => fits.1).attachments_of_isFrame
  have framebuffer := congrArg Prod.fst (graphics_before (p := p) (w := w)).1
  unfold GraphicsState.target?
  rw [attachments]
  exact congrArg (·.bind w.graphics.attachments) framebuffer

/-- Only what draws go to is written by the draw itself. -/
theorem same_draw {c : Cell} (dry : ∀ h, w.graphics.target? = some h → c ≠ .texture h) :
    c.Same (p.before w).graphics (p.render.run w).2.graphics := by
  have unbound (g : GraphicsState) : c.Same g { g with vertexArray := none } := by
    cases c <;> simp [Cell.Same]
  rcases p.graphics_render w with quiet | drawn
  · rw [quiet]
    exact unbound _
  · rw [drawn]
    have there : c.Same (p.before w).graphics (p.before w).graphics.drawInto := by
      apply GraphicsState.same_drawInto
      rw [target_before]
      exact dry
    exact there.trans (unbound _)

/-- What another program stores is left alone. -/
theorem same_render (wired : p.Wired tokens) {v : Update} {vertexArray : Handle} {c : Cell}
    {o : Object} (stored : c ∈ v.stores vertexArray) (part : c.object? = some o) (other : o ∉ p.owns)
    (dry : ∀ h, w.graphics.target? = some h → o ≠ ⟨.texture, h⟩) :
    c.Same w.graphics (p.render.run w).2.graphics := by
  obtain ⟨bound, used⟩ := inUse_readied (p := p) (w := w)
  have updates : c.Same (p.readied w).graphics (p.before w).graphics := by
    rw [graphics_before_eq, Bindings.run_flush]
    apply UpdateQueue.same_ran bound used
    intro e member written
    rcases List.mem_append.mp written with mine | pushed
    · obtain ⟨o', owned, part'⟩ := wired.owned e member c mine
      exact other (Option.some.inj (part.symm.trans part') ▸ owned)
    · exact Update.not_mem_pushes stored pushed
  have draw : c.Same (p.before w).graphics (p.render.run w).2.graphics := by
    apply same_draw
    rintro h target rfl
    exact dry h target (Option.some.inj part).symm
  exact (same_readied.trans updates).trans draw

/-- After the draw everything that was uploaded last is there still. -/
theorem settled_render (wired : p.Wired tokens) (settled : p.Settled w.graphics)
    (dry : ∀ h, w.graphics.target? = some h → ⟨.texture, h⟩ ∉ p.owns) :
    (p.flushed w).Settled (p.render.run w).2.graphics := by
  have wired' : (p.flushed w).Wired tokens := Wired.of_frozen frozen_flushed wired
  refine (settled_before wired settled).keep wired' ?_
  intro _ c _ o mine part
  apply same_draw
  rintro h target rfl
  rw [owns_of_frozen frozen_flushed] at mine
  exact dry h target (Option.some.inj part ▸ mine)

end Render

end Program

/-- Nothing that is drawn into the framebuffer goes to one of the objects. -/
def GraphicsState.Dry (g : GraphicsState) (owned : Multiset Object) (framebuffer : Option Handle) :
    Prop :=
  ∀ h, framebuffer.bind g.attachments = some h → ⟨.texture, h⟩ ∉ owned

/-- No render texture draws into one of the objects. -/
def World.Dry (w : World δ) (owned : Multiset Object) : Prop :=
  ∀ key t, w.texture? key = some t → w.graphics.Dry owned (some t.framebuffer)

omit [GraphicsDevice δ] in
theorem World.Dry.extend {w' : World δ} {owned : Multiset Object} (dry : w.Dry owned)
    (run : Extends (·.isFrame) RenderTexture.shell w w') : w'.Dry owned := by
  intro key t' present
  have there := run.texture? key
  rw [present, Option.map_some] at there
  obtain ⟨t, found, view⟩ := Option.map_eq_some_iff.mp there.symm
  have framebuffer : t.shell.framebuffer = t'.shell.framebuffer := by rw [view]
  change t.framebuffer = t'.framebuffer at framebuffer
  unfold GraphicsState.Dry
  rw [run.events.attachments_of_isFrame, ← framebuffer]
  exact dry key t found

/-- A draw of a program that shows what its accessors give at the moment. -/
def Moment.Shows (m : Moment) (origin : Program → Prop) (d : GraphicsState × Command) : Prop :=
  ∃ p : Program, origin p.frozen ∧ d.1.vertexArray = some p.bindings.vertexArray ∧
    d.1.program = some p.handle ∧ d.2 ∈ p.drawCommands p.bindings.elements ∧
    ∀ e ∈ p.bindings.queue.entries,
      e.2.Shown m p.handle p.bindings.vertexArray d.1 p.bindings.elements

/-- Programs that can draw, wherever they are kept: they are wired and settled, own different objects,
and so far only their tokens were read. -/
structure Ready (m : Moment) (origin : Program → Prop) (seen : List HostArray) (ps : List Program)
    (w : World δ) : Prop where
  wired : ∀ p ∈ ps, p.Wired m.tokens
  settled : ∀ p ∈ ps, p.Settled w.graphics
  uploaded : ∀ p ∈ ps, ∀ a ∈ p.uploads, a ∈ seen
  origin : ∀ p ∈ ps, origin p.frozen
  distinct : (ps.map Program.owns).sum.Nodup
  dry : w.Dry (ps.map Program.owns).sum
  reaches : m.Reaches seen w.host
  surfaces : w.textureOf? = m.surfaces
  free : w.graphics.vertexArray = none

namespace Ready

variable {origin : Program → Prop} {seen : List HostArray} {ps rest : List Program} {p : Program}

omit [GraphicsDevice δ] in
theorem perm {qs : List Program} (ready : Ready m origin seen ps w) (perm : ps.Perm qs) :
    Ready m origin seen qs w := by
  have owned : (qs.map Program.owns).sum = (ps.map Program.owns).sum :=
    (perm.map Program.owns).sum_eq.symm
  constructor
  · exact fun p member => ready.wired p (perm.mem_iff.mpr member)
  · exact fun p member => ready.settled p (perm.mem_iff.mpr member)
  · exact fun p member => ready.uploaded p (perm.mem_iff.mpr member)
  · exact fun p member => ready.origin p (perm.mem_iff.mpr member)
  · rw [owned]
    exact ready.distinct
  · rw [owned]
    exact ready.dry
  · exact ready.reaches
  · exact ready.surfaces
  · exact ready.free

omit [GraphicsDevice δ] in
/-- What leaves the programs' objects alone leaves them ready. -/
theorem move {w' : World δ} (ready : Ready m origin seen ps w)
    (run : Extends (·.isFrame) RenderTexture.shell w w')
    (same : ∀ c : Cell, ∀ o ∈ (ps.map Program.owns).sum, c.object? = some o →
      c.Same w.graphics w'.graphics)
    (host : w'.host = w.host) (free : w'.graphics.vertexArray = none) :
    Ready m origin seen ps w' where
  wired := ready.wired
  settled := by
    intro p member
    refine (ready.settled p member).keep (ready.wired p member) ?_
    intro _ c _ o mine part
    exact same c o (mem_sum_owned member mine) part
  uploaded := ready.uploaded
  origin := ready.origin
  distinct := ready.distinct
  dry := ready.dry.extend run
  reaches := by
    rw [host]
    exact ready.reaches
  surfaces := run.textureOf?.trans ready.surfaces
  free := free

omit [GraphicsDevice δ] in
/-- So does what the device does not see. -/
theorem silent {w' : World δ} (ready : Ready m origin seen ps w)
    (run : Extends (·.isFrame) RenderTexture.shell w w') (events : w'.events = w.events)
    (host : w'.host = w.host) : Ready m origin seen ps w' := by
  have graphics := World.graphics_of_events events
  refine ready.move run ?_ host ?_
  · intro c _ _ _
    rw [graphics]
    exact Cell.Same.refl c _
  · rw [graphics]
    exact ready.free

/-- So does choosing where and at what size to draw. -/
theorem aimed {framebuffer : Option Handle} {width height : UInt32}
    (ready : Ready m origin seen ps w) : Ready m origin seen ps
      (w.performAll [.bindFramebuffer framebuffer, .viewport 0 0 width height]) := by
  refine ready.move ?_ ?_ World.performAll_host ?_
  · refine Extends.performAll ?_
    simp [Event.isFrame, Command.isFrame]
  · intro c _ _ _
    rw [World.graphics_performAll]
    cases c <;> rfl
  · rw [World.graphics_performAll]
    exact ready.free

/-- One program draws, and all programs are ready for more. -/
theorem render (ready : Ready m origin seen (p :: rest) w)
    (dry : w.graphics.Dry ((p :: rest).map Program.owns).sum w.graphics.framebuffer) :
    (∃ seen', Ready m origin seen' ((p.render.run w).1 :: rest) (p.render.run w).2) ∧
      (m.Calm → Draws (m.Shows origin) w (p.render.run w).2) := by
  have wired := ready.wired p List.mem_cons_self
  have settled := ready.settled p List.mem_cons_self
  have uploaded := ready.uploaded p List.mem_cons_self
  have run : Extends (·.isFrame) RenderTexture.shell w (p.render.run w).2 :=
    Program.extends_render.coarsen
  have drawn : (p.render.run w).1 = p.flushed w := by rw [Program.run_render]
  have owned : (p.flushed w).owns = p.owns := Program.owns_of_frozen Program.frozen_flushed
  have distinct := ready.distinct
  rw [List.map_cons, List.sum_cons] at distinct dry
  have apart := (Multiset.nodup_add.mp distinct).2.2
  rw [drawn]
  refine ⟨?_, ?_⟩
  · obtain ⟨seen', reaches, more, uploaded'⟩ := Program.reads_render wired ready.reaches uploaded
    refine ⟨seen', ?_⟩
    constructor
    · intro q member
      rcases List.mem_cons.mp member with rfl | member
      · exact Program.Wired.of_frozen Program.frozen_flushed wired
      · exact ready.wired q (List.mem_cons_of_mem p member)
    · intro q member
      rcases List.mem_cons.mp member with rfl | member
      · refine Program.settled_render wired settled ?_
        intro h target mine
        exact dry h target (Multiset.mem_add.mpr (.inl mine))
      · refine (ready.settled q (List.mem_cons_of_mem p member)).keep
          (ready.wired q (List.mem_cons_of_mem p member)) ?_
        intro v c stored o theirs part
        have there := mem_sum_owned member theirs
        apply Program.same_render wired stored part
        · exact fun mine => Multiset.disjoint_left.mp apart mine there
        · rintro h target rfl
          exact dry h target (Multiset.mem_add.mpr (.inr there))
    · intro q member a upload
      rcases List.mem_cons.mp member with rfl | member
      · exact uploaded' a upload
      · exact more a (ready.uploaded q (List.mem_cons_of_mem p member) a upload)
    · intro q member
      rcases List.mem_cons.mp member with rfl | member
      · rw [Program.frozen_flushed]
        exact ready.origin p List.mem_cons_self
      · exact ready.origin q (List.mem_cons_of_mem p member)
    · rw [List.map_cons, List.sum_cons, owned]
      exact distinct
    · rw [List.map_cons, List.sum_cons, owned]
      exact ready.dry.extend run
    · exact reaches
    · exact run.textureOf?.trans ready.surfaces
    · rcases p.graphics_render w with quiet | drawn
      · rw [quiet]
      · rw [drawn]
  · intro calm
    refine Program.draws_render.mono ?_
    rintro ⟨g, c⟩ ⟨rfl, command⟩
    obtain ⟨bound, used⟩ := Program.inUse_before (p := p) (w := w)
    refine ⟨p.flushed w, ?_, bound, used, command, ?_⟩
    · rw [Program.frozen_flushed]
      exact ready.origin p List.mem_cons_self
    · exact Program.shown_before calm ready.reaches wired uploaded ready.surfaces settled

/-- One of several programs draws, and the others can draw after it. -/
theorem renderNext (ready : Ready m origin seen (p :: ps ++ rest) w)
    (dry : w.graphics.Dry ((p :: ps ++ rest).map Program.owns).sum w.graphics.framebuffer) :
    let drawn := p.render.run w
    (∃ seen', Ready m origin seen' (ps ++ drawn.1 :: rest) drawn.2) ∧
      drawn.2.graphics.Dry ((ps ++ drawn.1 :: rest).map Program.owns).sum
        drawn.2.graphics.framebuffer ∧
      (m.Calm → Draws (m.Shows origin) w drawn.2) := by
  obtain ⟨⟨seen', one⟩, draws⟩ := ready.render dry
  have run : Extends (·.isFrame) RenderTexture.shell w (p.render.run w).2 :=
    Program.extends_render.coarsen
  have moved : ((p.render.run w).1 :: (ps ++ rest)).Perm (ps ++ (p.render.run w).1 :: rest) :=
    List.perm_middle.symm
  have owned : ((ps ++ (p.render.run w).1 :: rest).map Program.owns).sum =
      ((p :: ps ++ rest).map Program.owns).sum := by
    have same : (p.render.run w).1.owns = p.owns := by
      rw [Program.run_render]
      exact Program.owns_of_frozen Program.frozen_flushed
    rw [← (moved.map Program.owns).sum_eq, List.map_cons, List.sum_cons, same]
    rfl
  have framebuffer := congrArg Prod.fst (Program.aim_render (p := p) (w := w))
  change (p.render.run w).2.graphics.framebuffer = w.graphics.framebuffer at framebuffer
  refine ⟨⟨seen', one.perm moved⟩, ?_, draws⟩
  unfold GraphicsState.Dry
  rw [owned, framebuffer, run.events.attachments_of_isFrame]
  exact dry

/-- Programs draw one after another, beside others that wait. -/
theorem renderAll (ready : Ready m origin seen (ps ++ rest) w)
    (dry : w.graphics.Dry ((ps ++ rest).map Program.owns).sum w.graphics.framebuffer) :
    (∃ seen', Ready m origin seen' (((Program.renderAll ps).run w).1 ++ rest)
        ((Program.renderAll ps).run w).2) ∧
      (m.Calm → Draws (m.Shows origin) w ((Program.renderAll ps).run w).2) := by
  induction ps generalizing w seen rest with
  | nil => exact ⟨⟨seen, ready⟩, fun _ => Draws.refl w⟩
  | cons p ps ih =>
    obtain ⟨⟨seen₁, one⟩, dry₁, draws₁⟩ := ready.renderNext dry
    obtain ⟨⟨seen', all⟩, draws⟩ := ih one dry₁
    rw [Program.renderAll_cons]
    refine ⟨⟨seen', all.perm List.perm_middle⟩, ?_⟩
    intro calm
    exact (draws₁ calm).trans (draws calm)

end Ready

namespace World

/-- The programs of all render textures. -/
def programs (w : World δ) : List Program := w.textures.flatMap fun t => t.2.programs

omit [GraphicsDevice δ] in
theorem Extends.programs {allowed : Event → Prop} {w' : World δ}
    (run : Extends allowed RenderTexture.bare w w') : w'.programs = w.programs := by
  have same := congrArg (List.flatMap fun t : Nat × RenderTexture => t.2.programs) run.textures
  simpa [World.programs, List.flatMap_map, RenderTexture.bare] using same

omit [GraphicsDevice δ] in
/-- A render texture's programs and those of the others, before and after it changes. -/
theorem programs_altered {key : Nat} {t : RenderTexture} (present : w.texture? key = some t) :
    ∃ others : List Program, w.programs.Perm (t.programs ++ others) ∧
      ∀ change, (w.altered key change).programs.Perm ((change t).programs ++ others) := by
  obtain ⟨before, after, split, _, assigned⟩ := split_of_lookup present
  have moved (ps : List Program) : ((before.flatMap fun t => t.2.programs) ++
      (ps ++ after.flatMap fun t => t.2.programs)).Perm
        (ps ++ ((before.flatMap fun t => t.2.programs) ++ after.flatMap fun t => t.2.programs)) := by
    rw [← List.append_assoc, ← List.append_assoc]
    exact List.perm_append_comm.append_right _
  refine ⟨(before.flatMap fun t => t.2.programs) ++ after.flatMap fun t => t.2.programs, ?_, ?_⟩
  · simpa [World.programs, split] using moved t.programs
  · intro change
    rw [altered_of_present present]
    simpa [World.programs, World.setTexture, assigned] using moved (change t).programs

omit [GraphicsDevice δ] in
theorem programs_of_altered {key : Nat} {change : RenderTexture → RenderTexture}
    (same : ∀ t, (change t).programs = t.programs) :
    (w.altered key change).programs.Perm w.programs := by
  cases present : w.texture? key with
  | none => simp [altered, present]
  | some t =>
    obtain ⟨others, before, after⟩ := programs_altered present
    have changed := after change
    rw [same] at changed
    exact changed.trans before.symm

end World

namespace RenderTexture

variable {origin : Program → Prop} {seen : List HostArray} {ps : List Program}

theorem graphics_opened {t : RenderTexture} : (t.opened w).graphics.framebuffer = some t.framebuffer ∧
    (t.opened w).graphics.vertexArray = w.graphics.vertexArray ∧
    ∀ c : Cell, (∀ h, w.graphics.attachments t.framebuffer = some h → c ≠ .texture h) →
      c.Same w.graphics (t.opened w).graphics := by
  have drawn (g : GraphicsState) : g.drawInto.framebuffer = g.framebuffer ∧
      g.drawInto.vertexArray = g.vertexArray := by
    unfold GraphicsState.drawInto
    split <;> exact ⟨rfl, rfl⟩
  have opened : (t.opened w).graphics = GraphicsState.drawInto
      ((w.graphics.afterCommand (.bindFramebuffer (some t.framebuffer))).afterCommand
        (.viewport 0 0 t.width t.height)) := by
    unfold RenderTexture.opened
    rw [World.graphics_performAll]
    rfl
  obtain ⟨framebuffer, vertexArray⟩ := drawn
    ((w.graphics.afterCommand (.bindFramebuffer (some t.framebuffer))).afterCommand
      (.viewport 0 0 t.width t.height))
  rw [opened]
  refine ⟨framebuffer, vertexArray, ?_⟩
  intro c other
  have aimed : c.Same w.graphics
      ((w.graphics.afterCommand (.bindFramebuffer (some t.framebuffer))).afterCommand
        (.viewport 0 0 t.width t.height)) := by
    cases c <;> rfl
  exact aimed.trans (GraphicsState.same_drawInto other)

/-- Programs wait while a render texture is opened. -/
theorem ready_opened {key : Nat} {t : RenderTexture} (present : w.texture? key = some t)
    (ready : Ready m origin seen ps w) : Ready m origin seen ps (t.opened w) ∧
      (t.opened w).graphics.Dry (ps.map Program.owns).sum (t.opened w).graphics.framebuffer := by
  obtain ⟨framebuffer, vertexArray, same⟩ := graphics_opened (t := t) (w := w)
  have run : Extends (·.isFrame) shell w (t.opened w) := extends_opened
  refine ⟨ready.move run ?_ World.performAll_host (vertexArray.trans ready.free), ?_⟩
  · intro c o mine part
    apply same
    rintro h attached rfl
    exact ready.dry key t present h attached (Option.some.inj part ▸ mine)
  · unfold GraphicsState.Dry
    rw [framebuffer, run.events.attachments_of_isFrame]
    exact ready.dry key t present

/-- Programs wait while the context goes back to where the frame draws. -/
theorem ready_closed {key : Nat} {restore : Option Handle} {width height : UInt32}
    (ready : Ready m origin seen ps w) :
    Ready m origin seen ps (closed key restore width height w) :=
  ready.aimed.silent (Extends.altered fun _ _ => rfl) World.events_altered World.host_altered

/-- The programs of a render texture that is drawn, and the others, which wait. -/
theorem programs_renderInto {key : Nat} {t : RenderTexture} (restore : Option Handle)
    (width height : UInt32) (present : w.texture? key = some t) :
    ∃ others : List Program, w.programs.Perm (t.programs ++ others) ∧
      (drawnInto key t w).programs.Perm
        (((Program.renderAll t.programs).run (t.opened w)).1 ++ others) ∧
      ((renderInto key restore width height).run w).2.programs.Perm (drawnInto key t w).programs := by
  have run : Extends (·.isFrame) bare w ((Program.renderAll t.programs).run (t.opened w)).2 :=
    extends_drawn
  obtain ⟨t₁, found, view⟩ := run.exists_texture present
  have programs : t₁.bare.programs = t.bare.programs := by rw [view]
  change t₁.programs = t.programs at programs
  obtain ⟨others, before, after⟩ := World.programs_altered found
  rw [run.programs, programs] at before
  refine ⟨others, before, after _, ?_⟩
  have aimed : Extends (·.isFrame) bare (drawnInto key t w) ((drawnInto key t w).performAll
      [.bindFramebuffer restore, .viewport 0 0 width height]) := by
    refine Extends.performAll ?_
    simp [Event.isFrame, Command.isFrame]
  have counted : (closed key restore width height (drawnInto key t w)).programs.Perm
      (drawnInto key t w).programs := by
    rw [← aimed.programs]
    exact World.programs_of_altered fun _ => rfl
  have told (listeners : List Subscription) : Extends (·.isFrame) bare
      (closed key restore width height (drawnInto key t w))
        ((closed key restore width height (drawnInto key t w)).notify listeners) := Extends.notify
  rw [run_renderInto present]
  dsimp only
  rw [(told _).programs]
  exact counted

/-- A render texture is drawn, beside programs that wait. -/
theorem ready_rendered {key : Nat} {t : RenderTexture} (restore : Option Handle)
    (width height : UInt32) (present : w.texture? key = some t)
    (ready : Ready m origin seen (ps ++ w.programs) w) :
    (∃ seen', Ready m origin seen'
        (ps ++ ((renderInto key restore width height).run w).2.programs)
        ((renderInto key restore width height).run w).2) ∧
      (m.Calm → Draws (m.Shows origin) w ((renderInto key restore width height).run w).2) := by
  obtain ⟨others, before, after, last⟩ := programs_renderInto restore width height present
  have swap (qs : List Program) : (qs ++ (ps ++ others)).Perm (ps ++ (qs ++ others)) :=
    List.perm_append_comm_assoc qs ps others
  have taken : (ps ++ w.programs).Perm (t.programs ++ (ps ++ others)) :=
    (before.append_left ps).trans (swap t.programs).symm
  obtain ⟨opened, dry⟩ := ready_opened present (ready.perm taken)
  obtain ⟨⟨seen', drawn⟩, draws⟩ := opened.renderAll dry
  have returned : Ready m origin seen' (ps ++ (drawnInto key t w).programs) (drawnInto key t w) :=
    (drawn.perm ((swap _).trans (after.symm.append_left ps))).silent (extends_returned present)
      World.events_altered World.host_altered
  have back : Ready m origin seen' (ps ++ ((renderInto key restore width height).run w).2.programs)
      (closed key restore width height (drawnInto key t w)) :=
    ready_closed (returned.perm (last.symm.append_left ps))
  rw [run_renderInto present] at back ⊢
  dsimp only at back ⊢
  refine ⟨⟨seen', back.silent Extends.notify World.events_notify World.notify_host⟩, ?_⟩
  intro calm
  have opening : Draws (m.Shows origin) w (t.opened w) := Draws.performAll (by simp [Event.draw?])
  have closing : Draws (m.Shows origin) (drawnInto key t w)
      (closed key restore width height (drawnInto key t w)) :=
    (Draws.performAll (by simp [Event.draw?])).trans (Draws.silent World.events_altered)
  have drawing : Draws (m.Shows origin) w (drawnInto key t w) :=
    (opening.trans (draws calm)).trans (Draws.silent World.events_altered)
  exact (drawing.trans closing).trans (Draws.silent World.events_notify)

/-- So is a render texture that may be missing. -/
theorem ready_renderInto (key : Nat) (restore : Option Handle) (width height : UInt32)
    (ready : Ready m origin seen (ps ++ w.programs) w) :
    (∃ seen', Ready m origin seen'
        (ps ++ ((renderInto key restore width height).run w).2.programs)
        ((renderInto key restore width height).run w).2) ∧
      (m.Calm → Draws (m.Shows origin) w ((renderInto key restore width height).run w).2) ∧
      (((renderInto key restore width height).run w).2.graphics.framebuffer =
          w.graphics.framebuffer ∨
        ((renderInto key restore width height).run w).2.graphics.framebuffer = restore) := by
  cases present : w.texture? key with
  | none =>
    rw [renderInto_missing present]
    exact ⟨⟨seen, ready⟩, fun _ => Draws.refl w, .inl rfl⟩
  | some t =>
    obtain ⟨ready', draws⟩ := ready_rendered restore width height present ready
    obtain ⟨_, aim⟩ := draws_renderInto restore width height present
    exact ⟨ready', draws, .inr (congrArg Prod.fst aim)⟩

end RenderTexture

namespace Stack

variable {origin : Program → Prop} {seen : List HostArray} {ps : List Program}

theorem layered_cons {key : Nat} {layers : List Nat} {framebuffer : Option Handle}
    {width height : UInt32} : layered framebuffer width height (key :: layers) w =
      layered framebuffer width height layers
        ((RenderTexture.renderInto key framebuffer width height).run w).2 := rfl

/-- A frame's layers are drawn, beside programs that wait. -/
theorem ready_layered (layers : List Nat) (framebuffer : Option Handle) (width height : UInt32)
    (ready : Ready m origin seen (ps ++ w.programs) w) :
    (∃ seen', Ready m origin seen' (ps ++ (layered framebuffer width height layers w).programs)
        (layered framebuffer width height layers w)) ∧
      (m.Calm → Draws (m.Shows origin) w (layered framebuffer width height layers w)) ∧
      ((layered framebuffer width height layers w).graphics.framebuffer = w.graphics.framebuffer ∨
        (layered framebuffer width height layers w).graphics.framebuffer = framebuffer) := by
  induction layers generalizing w seen with
  | nil => exact ⟨⟨seen, ready⟩, fun _ => Draws.refl w, .inl rfl⟩
  | cons key layers ih =>
    rw [layered_cons]
    obtain ⟨⟨seen₁, one⟩, draws₁, aim₁⟩ :=
      RenderTexture.ready_renderInto key framebuffer width height ready
    obtain ⟨rest, draws, aim⟩ := ih one
    refine ⟨rest, fun calm => (draws₁ calm).trans (draws calm), ?_⟩
    rcases aim with kept | new
    · rw [kept]
      exact aim₁
    · exact .inr new

/-- Programs wait while a frame chooses where it goes. -/
theorem ready_targeted {framebuffer : Option Handle} {width height : UInt32}
    (ready : Ready m origin seen (ps ++ w.programs) w) :
    Ready m origin seen (ps ++ (targeted framebuffer width height w).programs)
      (targeted framebuffer width height w) := by
  have set : Extends (·.isFrame) RenderTexture.bare w (targeted framebuffer width height w) :=
    extends_targeted
  rw [set.programs]
  unfold targeted
  split
  · exact ready.aimed
  · exact ready

/-- A frame's programs can draw after its layers, beside programs that wait. Neither the frame nor what
was bound before it may be a texture's. -/
theorem ready_programs (s : Stack) (framebuffer : Option Handle) (width height : UInt32)
    (blank : framebuffer.bind w.graphics.attachments = none)
    (before : w.graphics.framebuffer.bind w.graphics.attachments = none)
    (ready : Ready m origin seen (s.programs ++ ps ++ w.programs) w) :
    let w' := layered framebuffer width height s.layers (targeted framebuffer width height w)
    (∃ seen', Ready m origin seen' (s.programs ++ (ps ++ w'.programs)) w') ∧
      w'.graphics.Dry ((s.programs ++ (ps ++ w'.programs)).map Program.owns).sum
        w'.graphics.framebuffer ∧
      (m.Calm → Draws (m.Shows origin) w w') := by
  have set : Extends (·.isFrame) RenderTexture.bare w (targeted framebuffer width height w) :=
    extends_targeted
  have aimed : (targeted framebuffer width height w).graphics.framebuffer = w.graphics.framebuffer ∨
      (targeted framebuffer width height w).graphics.framebuffer = framebuffer := by
    unfold targeted
    split
    · rw [World.graphics_performAll]
      exact .inr rfl
    · exact .inl rfl
  obtain ⟨⟨seen', drawn⟩, draws, aim⟩ :=
    ready_layered s.layers framebuffer width height (ready_targeted ready)
  dsimp only
  generalize world : layered framebuffer width height s.layers
    (targeted framebuffer width height w) = w₁ at drawn draws aim ⊢
  have run : Extends (·.isFrame) RenderTexture.shell w w₁ := by
    rw [← world]
    exact set.coarsen.trans extends_layered
  rw [List.append_assoc] at drawn
  refine ⟨⟨seen', drawn⟩, ?_, ?_⟩
  · have empty : w₁.graphics.framebuffer.bind w.graphics.attachments = none := by
      rcases aim with kept | new
      · rcases aimed with kept' | new'
        · rw [kept, kept', before]
        · rw [kept, new', blank]
      · rw [new, blank]
    intro h attached
    rw [run.events.attachments_of_isFrame, empty] at attached
    exact absurd attached nofun
  · intro calm
    have opening : Draws (m.Shows origin) w (targeted framebuffer width height w) := by
      unfold targeted
      split
      · exact Draws.performAll (by simp [Event.draw?])
      · exact Draws.refl w
    exact opening.trans (draws calm)

/-- A frame is drawn, beside programs that wait. -/
theorem ready_renderTo (s : Stack) (framebuffer : Option Handle) (width height : UInt32)
    (blank : framebuffer.bind w.graphics.attachments = none)
    (before : w.graphics.framebuffer.bind w.graphics.attachments = none)
    (ready : Ready m origin seen (s.programs ++ ps ++ w.programs) w) :
    (∃ seen', Ready m origin seen'
        (((s.renderTo framebuffer width height).run w).1.programs ++ ps ++
          ((s.renderTo framebuffer width height).run w).2.programs)
        ((s.renderTo framebuffer width height).run w).2) ∧
      (m.Calm → Draws (m.Shows origin) w ((s.renderTo framebuffer width height).run w).2) := by
  obtain ⟨⟨seen₁, layered⟩, dry, draws₁⟩ :=
    s.ready_programs framebuffer width height blank before ready
  obtain ⟨⟨seen', drawn⟩, draws⟩ := layered.renderAll dry
  have own : Extends (·.isFrame) RenderTexture.bare
      (Stack.layered framebuffer width height s.layers (targeted framebuffer width height w))
      ((Program.renderAll s.programs).run
        (Stack.layered framebuffer width height s.layers (targeted framebuffer width height w))).2 :=
    Program.extends_renderAll
  rw [run_renderTo]
  refine ⟨⟨seen', ?_⟩, ?_⟩
  · have kept := own.programs
    dsimp only at kept ⊢
    change Ready m origin seen' (_ ++ ps ++ ((Program.renderAll s.programs).run _).2.programs) _
    rw [kept, List.append_assoc]
    exact drawn.silent Extends.setRequests rfl rfl
  · intro calm
    exact ((draws₁ calm).trans (draws calm)).trans (Draws.silent rfl)

end Stack
end ShaderStack

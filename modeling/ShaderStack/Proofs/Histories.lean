import ShaderStack.Proofs.Agreement
import ShaderStack.Proofs.Mentions
import ShaderStack.Proofs.Redraws
import ShaderStack.Proofs.Turns

/-! Every flush that a session makes of its programs.

Programs move between stacks, render textures and the host, and calls draw many of them. What becomes of
one program is still a list of its own flushes: each finds the program as the one before has left it, and
finds on the device what it uploaded last. -/
namespace ShaderStack

open World (Extends)

variable {δ : Type} [GraphicsDevice δ] {w : World δ}

/-- One flush of a queue: the program, and the world in which it is drawn. -/
structure Flush (δ : Type) where
  program : Program
  world : World δ

namespace Flush

variable {f : Flush δ}

/-- The program after the flush. -/
def next (f : Flush δ) : Program := f.program.flushed f.world

/-- What the device holds when the program draws. -/
def graphics (f : Flush δ) : GraphicsState := (f.program.before f.world).graphics

def turns (f : Flush δ) : List (Turn δ) :=
  UpdateQueue.turns f.program.bindings.queue.entries f.program.bindings.elements
    (f.program.readied f.world)

/-- The turn of the update at a slot. -/
def turn? (f : Flush δ) (slot : BindingSlot) : Option (Turn δ) := f.turns.find? (·.slot = slot)

theorem lookup_program {slot : BindingSlot} :
    f.program.bindings.queue.entries.lookup slot = (f.turn? slot).map Turn.update := by
  unfold turn?
  rw [← lookup_map_pair]
  exact congrArg (List.lookup slot) UpdateQueue.map_update_turns.symm

theorem lookup_next {slot : BindingSlot} :
    f.next.bindings.queue.entries.lookup slot = (f.turn? slot).map Turn.next := by
  unfold turn?
  rw [← lookup_map_pair]
  unfold next Program.flushed
  rw [Bindings.run_flush]
  exact congrArg (List.lookup slot) UpdateQueue.map_next_turns.symm

theorem owns_next : f.next.owns = f.program.owns := Program.owns_of_frozen Program.frozen_flushed

/-- The program finds on the device what it uploaded last. -/
def Ready (tokens : List Token) (f : Flush δ) : Prop :=
  f.program.Wired tokens ∧ f.program.Settled f.world.graphics

omit [GraphicsDevice δ] in
theorem Ready.mono {tokens more : List Token} (ready : f.Ready tokens) (grow : ∀ t ∈ tokens, t ∈ more) :
    f.Ready more := ⟨ready.1.mono grow, ready.2⟩

/-- So it does when it draws. -/
theorem Ready.settled {tokens : List Token} (ready : f.Ready tokens) : f.next.Settled f.graphics :=
  Program.settled_before ready.1 ready.2

end Flush

namespace Program

/-- A program comes by its flushes to what it is in the end. -/
def Runs : Program → List (Flush δ) → Program → Prop
  | p, [], q => p = q
  | p, f :: fs, q => f.program = p ∧ f.next.Runs fs q

/-- The flushes of one program among those of all. -/
def own (p : Program) (fs : List (Flush δ)) : List (Flush δ) :=
  fs.filter (·.program.bindings.vertexArray = p.bindings.vertexArray)

variable {p q r : Program} {fs gs : List (Flush δ)}

theorem Runs.trans (first : p.Runs fs q) (second : q.Runs gs r) : p.Runs (fs ++ gs) r := by
  induction fs generalizing p with
  | nil => exact first ▸ second
  | cons f fs ih => exact ⟨first.1, ih first.2⟩

theorem Runs.frozen (run : p.Runs fs q) : q.frozen = p.frozen := by
  induction fs generalizing p with
  | nil => exact run ▸ rfl
  | cons f fs ih =>
    obtain ⟨rfl, later⟩ := run
    exact (ih later).trans frozen_flushed

omit [GraphicsDevice δ] in
theorem own_append : p.own (fs ++ gs) = p.own fs ++ p.own gs := List.filter_append _ _

omit [GraphicsDevice δ] in
theorem own_of_frozen (same : p.frozen = q.frozen) : p.own fs = q.own fs := by
  unfold own
  rw [(handles_of_frozen same).2]

end Program

/-- Programs are drawn one after another, whatever the order that they are kept in. -/
inductive Evolves : List Program → List (Flush δ) → List Program → Prop
  | still {ps qs : List Program} (same : ps.Perm qs) : Evolves ps [] qs
  | flush {ps rest qs : List Program} {f : Flush δ} {fs : List (Flush δ)}
      (taken : ps.Perm (f.program :: rest)) (later : Evolves (f.next :: rest) fs qs) :
      Evolves ps (f :: fs) qs

namespace Evolves

variable {ps qs rs : List Program} {fs gs : List (Flush δ)}

theorem refl (ps : List Program) : Evolves (δ := δ) ps [] ps := .still (.refl ps)

theorem perm (same : ps.Perm qs) (run : Evolves qs fs rs) : Evolves ps fs rs := by
  cases run with
  | still last => exact .still (same.trans last)
  | flush taken later => exact .flush (same.trans taken) later

theorem trans (first : Evolves ps fs qs) (second : Evolves qs gs rs) : Evolves ps (fs ++ gs) rs := by
  induction first with
  | still same => exact second.perm same
  | flush taken _ ih => exact .flush taken (ih second)

theorem returned (run : Evolves ps fs qs) (same : qs.Perm rs) : Evolves ps fs rs := by
  have whole := run.trans (.still same)
  rwa [List.append_nil] at whole

/-- Programs that wait stay as they are. -/
theorem beside (waiting : List Program) (run : Evolves ps fs qs) :
    Evolves (waiting ++ ps) fs (waiting ++ qs) := by
  induction run with
  | still same => exact .still (same.append_left waiting)
  | flush taken _ ih =>
    refine .flush ((taken.append_left waiting).trans List.perm_middle) ?_
    exact ih.perm List.perm_middle.symm

/-- Programs that own different objects have flushes of their own. -/
theorem runs (run : Evolves ps fs qs) (distinct : (ps.map Program.owns).sum.Nodup) :
    ∀ q ∈ qs, ∃ p ∈ ps, p.Runs (p.own fs) q := by
  induction run with
  | still same => exact fun q member => ⟨q, same.mem_iff.mpr member, rfl⟩
  | @flush ps rest qs f fs taken later ih =>
    rw [(taken.map Program.owns).sum_eq, List.map_cons, List.sum_cons] at distinct
    have apart := (Multiset.nodup_add.mp distinct).2.2
    intro q member
    obtain ⟨p, there, runs⟩ := ih (by rwa [List.map_cons, List.sum_cons, Flush.owns_next]) q member
    rcases List.mem_cons.mp there with rfl | waits
    · refine ⟨f.program, taken.mem_iff.mpr List.mem_cons_self, ?_⟩
      have same : f.next.own fs = f.program.own fs := Program.own_of_frozen Program.frozen_flushed
      have mine : f.program.own (f :: fs) = f :: f.next.own fs := by
        rw [same]
        simp [Program.own]
      rw [mine]
      exact ⟨rfl, runs⟩
    · refine ⟨p, taken.mem_iff.mpr (List.mem_cons_of_mem _ waits), ?_⟩
      have other : f.program.bindings.vertexArray ≠ p.bindings.vertexArray := by
        intro same
        refine Multiset.disjoint_left.mp apart f.program.array_mem_owns (mem_sum_owned waits ?_)
        rw [same]
        exact p.array_mem_owns
      have skipped : p.own (f :: fs) = p.own fs := by simp [Program.own, other]
      rw [skipped]
      exact runs

end Evolves

namespace Program

/-- Programs are flushed one after another. -/
def flushes : List Program → World δ → List (Flush δ)
  | [], _ => []
  | p :: ps, w => ⟨p, w⟩ :: flushes ps (p.render.run w).2

theorem evolves_renderAll (ps : List Program) (w : World δ) :
    Evolves ps (flushes ps w) ((renderAll ps).run w).1 := by
  induction ps generalizing w with
  | nil => exact .refl []
  | cons p ps ih =>
    have drawn : (p.render.run w).1 = p.flushed w := by rw [run_render]
    rw [renderAll_cons, drawn]
    exact .flush (.refl _) ((ih _).beside [p.flushed w])

end Program

namespace RenderTexture

/-- The flushes of a render texture's programs. -/
def flushes (key : Nat) (w : World δ) : List (Flush δ) :=
  match w.texture? key with
  | some t => Program.flushes t.programs (t.opened w)
  | none => []

theorem evolves_renderInto (key : Nat) (restore : Option Handle) (width height : UInt32)
    (w : World δ) : Evolves w.programs (flushes key w)
      ((renderInto key restore width height).run w).2.programs := by
  unfold flushes
  cases present : w.texture? key with
  | none =>
    rw [renderInto_missing present]
    exact .refl _
  | some t =>
    obtain ⟨others, before, after, last⟩ := programs_renderInto restore width height present
    have swap (ps : List Program) : (ps ++ others).Perm (others ++ ps) := List.perm_append_comm
    refine Evolves.perm (before.trans (swap _)) (Evolves.returned ?_ (last.trans (after.trans (swap _))).symm)
    exact (Program.evolves_renderAll t.programs (t.opened w)).beside others

end RenderTexture

namespace Stack

/-- The flushes of layers that draw in turn. -/
def layerFlushes (framebuffer : Option Handle) (width height : UInt32) :
    List Nat → World δ → List (Flush δ)
  | [], _ => []
  | key :: rest, w => RenderTexture.flushes key w ++ layerFlushes framebuffer width height rest
      ((RenderTexture.renderInto key framebuffer width height).run w).2

theorem evolves_layered (framebuffer : Option Handle) (width height : UInt32) (layers : List Nat)
    (w : World δ) : Evolves w.programs (layerFlushes framebuffer width height layers w)
      (layered framebuffer width height layers w).programs := by
  induction layers generalizing w with
  | nil => exact .refl _
  | cons key rest ih =>
    exact (RenderTexture.evolves_renderInto key framebuffer width height w).trans (ih _)

end Stack

namespace FrameStart

/-- The world in which the stack's own programs are drawn. -/
def layered (f : FrameStart δ) : World δ :=
  Stack.layered f.target f.width f.height f.stack.layers
    (Stack.targeted f.target f.width f.height f.world)

/-- The flushes of a frame: first those of its layers, then those of its own programs. -/
def flushes (f : FrameStart δ) : List (Flush δ) :=
  Stack.layerFlushes f.target f.width f.height f.stack.layers
      (Stack.targeted f.target f.width f.height f.world) ++
    Program.flushes f.stack.programs f.layered

theorem evolves_renderTo (f : FrameStart δ) :
    let drawn := (f.stack.renderTo f.target f.width f.height).run f.world
    Evolves (f.stack.programs ++ f.world.programs) f.flushes
      (drawn.1.programs ++ drawn.2.programs) := by
  obtain ⟨s, framebuffer, width, height, w⟩ := f
  have set : Extends (·.isFrame) RenderTexture.bare w (Stack.targeted framebuffer width height w) :=
    Stack.extends_targeted
  have layers := (Stack.evolves_layered framebuffer width height s.layers
    (Stack.targeted framebuffer width height w)).beside s.programs
  rw [set.programs] at layers
  have own := Program.evolves_renderAll s.programs
    (Stack.layered framebuffer width height s.layers (Stack.targeted framebuffer width height w))
  have kept : Extends (·.isFrame) RenderTexture.bare
      (Stack.layered framebuffer width height s.layers (Stack.targeted framebuffer width height w))
      ((Program.renderAll s.programs).run (Stack.layered framebuffer width height s.layers
        (Stack.targeted framebuffer width height w))).2 := Program.extends_renderAll
  have swap (ps qs : List Program) : (ps ++ qs).Perm (qs ++ ps) := List.perm_append_comm
  rw [Stack.run_renderTo]
  refine layers.trans (Evolves.perm (swap _ _) (Evolves.returned (own.beside _) ?_))
  have counted := kept.programs
  refine (List.Perm.of_eq ?_).trans (swap _ _)
  exact congrArg (· ++ _) counted.symm

end FrameStart

namespace Session

variable {s : Session δ} {step : SessionStep}

/-- The flushes of one call, in their order. -/
def flushes (s : Session δ) : SessionStep → List (Flush δ)
  | .renderProgram j => (s.aside[j]?.map fun p => ⟨p, s.world⟩).toList
  | .renderTexture key => if key ∈ s.held then RenderTexture.flushes key s.world else []
  | step => ((s.frame? step).map FrameStart.flushes).getD []

/-- The flushes of a run. -/
def flushesIn : List SessionStep → Session δ → List (Flush δ)
  | [], _ => []
  | step :: rest, s => s.flushes step ++ flushesIn rest (s.perform step)

theorem flushesIn_append {steps more : List SessionStep} :
    flushesIn (steps ++ more) s = flushesIn steps s ++ flushesIn more (run steps s) := by
  induction steps generalizing s with
  | nil => rfl
  | cons step rest ih => simp [flushesIn, ih, run]

theorem evolves_renderProgram (j : Nat) : Evolves s.programs (s.flushes (.renderProgram j))
    (s.perform (.renderProgram j)).programs := by
  have flushes : s.flushes (.renderProgram j) =
    (s.aside[j]?.map fun p => Flush.mk p s.world).toList := rfl
  change Evolves s.programs _ (s.renderAside j).programs
  unfold renderAside
  rw [flushes]
  cases found : s.aside[j]? with
  | none => exact .refl s.programs
  | some p =>
    obtain ⟨others, before, after⟩ := programs_of_aside found
    have run : Extends (·.isFrame) RenderTexture.bare s.world (p.render.run s.world).2 :=
      Program.extends_render
    have back := after (p.render.run s.world).1 (p.render.run s.world).2
    have drawn : (p.render.run s.world).1 = p.flushed s.world := by rw [Program.run_render]
    rw [run.programs] at back
    refine .flush (f := ⟨p, s.world⟩) before (.still ?_)
    unfold Flush.next
    rw [← drawn]
    exact back.symm

/-- A frame of one stack, beside everything else. -/
theorem evolves_frame {i : Nat} {stack : Stack} (found : s.liveStacks[i]? = some stack)
    {f : FrameStart δ} (own : f.stack.programs = stack.programs)
    (others : f.world.programs = s.world.programs) {w : World δ}
    (kept : w.programs = ((f.stack.renderTo f.target f.width f.height).run f.world).2.programs) :
    let drawn := ((f.stack.renderTo f.target f.width f.height).run f.world).1
    Evolves s.programs f.flushes
      (programs { s with world := w, liveStacks := s.liveStacks.set i drawn }) := by
  obtain ⟨waiting, before, after⟩ := programs_of_stack found
  have run := f.evolves_renderTo.beside waiting
  rw [own, others] at run
  have swap (ps qs : List Program) : (waiting ++ (ps ++ qs)).Perm (ps ++ waiting ++ qs) := by
    rw [← List.append_assoc]
    exact List.perm_append_comm.append_right qs
  refine Evolves.perm (before.trans (swap _ _).symm) (run.returned ?_)
  refine (swap _ _).trans ?_
  rw [← kept]
  exact (after _ _).symm

theorem evolves_render (i : Nat) : Evolves s.programs (s.flushes (.render i))
    (s.perform (.render i)).programs := by
  have flushes : s.flushes (.render i) = ((s.frame? (.render i)).map FrameStart.flushes).getD [] := rfl
  change Evolves s.programs _ (s.onStack i Stack.render).programs
  rw [flushes, frame?]
  cases found : s.liveStacks[i]? with
  | none =>
    rw [onStack_none found]
    exact .refl s.programs
  | some stack =>
    rw [onStack_some found]
    exact evolves_frame (f := ⟨stack, none, stack.width, stack.height, s.world⟩) found rfl rfl rfl

theorem evolves_renderTexture (key : Nat) : Evolves s.programs (s.flushes (.renderTexture key))
    (s.perform (.renderTexture key)).programs := by
  have flushes : s.flushes (.renderTexture key) =
    if key ∈ s.held then RenderTexture.flushes key s.world else [] := rfl
  rw [flushes]
  by_cases held : key ∈ s.held
  · have perform : s.perform (.renderTexture key) =
      { s with world := ((RenderTexture.render key).run s.world).2 } := if_pos held
    have others (world : World δ) : (Session.programs { s with world := world }).Perm
        ((s.aside ++ s.liveStacks.flatMap Stack.programs) ++ world.programs) :=
      List.Perm.of_eq (List.append_assoc _ _ _).symm
    rw [if_pos held, perform]
    refine Evolves.perm (others s.world) (Evolves.returned (Evolves.beside _ ?_) (others _).symm)
    cases present : s.world.texture? key with
    | none =>
      rw [RenderTexture.run_render_missing present, RenderTexture.flushes, present]
      exact .refl _
    | some t =>
      rw [RenderTexture.run_render present]
      exact RenderTexture.evolves_renderInto key none t.width t.height s.world
  · have perform : s.perform (.renderTexture key) = s := if_neg held
    rw [if_neg held, perform]
    exact .refl s.programs

theorem evolves_read (i : Nat) (c : ReadConfig) (sound : s.Sound) :
    Evolves s.programs (s.flushes (.read i c)) (s.perform (.read i c)).programs := by
  have flushes : s.flushes (.read i c) = ((s.frame? (.read i c)).map FrameStart.flushes).getD [] := rfl
  have perform : s.perform (.read i c) = s.onStack i (readStack c) := rfl
  rw [flushes, perform, frame?]
  cases found : s.liveStacks[i]? with
  | none =>
    rw [onStack_none found]
    exact .refl s.programs
  | some stack =>
    rw [onStack_some found, Option.bind_some]
    have still {w : World δ} (textures : w.textures = s.world.textures) : Evolves (δ := δ) s.programs []
        (programs { s with world := w, liveStacks := s.liveStacks.set i stack }) := by
      refine .still (List.Perm.of_eq ?_)
      unfold Session.programs World.programs
      rw [flatMap_set found rfl, textures]
    obtain ⟨others, more, owned, held, _⟩ := split_stack found
    have kept : World.Kept (stack.owns + others) (stack.layers + more) s.world := by
      rw [← owned, ← held]
      exact sound
    refine Stack.readStack_of_frame (fun frame stack' w => Evolves s.programs
      ((frame.map FrameStart.flushes).getD [])
      (programs { s with world := w, liveStacks := s.liveStacks.set i stack' }))
      (Stack.tables_bindTarget kept) (still rfl) (fun _ w bound => still bound.2.1)
      fun framebuffer stack' w bound => ?_
    obtain ⟨⟨_, textures, _⟩, own, _⟩ := bound
    let start : FrameStart δ := ⟨stack', some framebuffer, c.width.getD stack.width,
      c.height.getD stack.height, w.perform (.clear .opaqueBlack .one)⟩
    have read (v : World δ) (r : PixelRead) (cs : List Command) :
        Extends (fun _ => True) RenderTexture.bare v ((v.readBack r).performAll cs) :=
      Extends.step.trans (Extends.performAll fun _ _ => trivial)
    have elsewhere : start.world.programs = s.world.programs := congrArg (List.flatMap _) textures
    exact evolves_frame (f := start) found own elsewhere (read _ _ _).programs

/-- A call builds a program. -/
def Compiles (s : Session δ) (step : SessionStep) (p : Program) : Prop :=
  ∃ i vertex fragment config, step = .compile i vertex fragment config ∧
    s.outcome i vertex fragment config = some (.ok p)

/-- After a call each program is one from before it, up to its flushes in the call, or the call has built
it. -/
theorem runs_perform (step : SessionStep) (sound : s.Sound) (minting : Minting s.world.events) :
    ∀ p ∈ (s.perform step).programs,
      s.Compiles step p ∨ ∃ q ∈ s.programs, q.Runs (q.own (s.flushes step)) p := by
  have distinct : (s.programs.map Program.owns).sum.Nodup := by
    have live := nodup_live minting
    rw [sound.accounted.2, owns_eq, Multiset.nodup_add] at live
    exact live.1
  have evolved (run : Evolves s.programs (s.flushes step) (s.perform step).programs) :
      ∀ p ∈ (s.perform step).programs,
        s.Compiles step p ∨ ∃ q ∈ s.programs, q.Runs (q.own (s.flushes step)) p :=
    fun p member => .inr (run.runs distinct p member)
  have kept (none : s.flushes step = []) {p : Program} (member : p ∈ s.programs) :
      s.Compiles step p ∨ ∃ q ∈ s.programs, q.Runs (q.own (s.flushes step)) p := by
    rw [none]
    exact .inr ⟨p, member, rfl⟩
  cases step with
  | renderProgram j => exact evolved (evolves_renderProgram j)
  | render i => exact evolved (evolves_render i)
  | read i c => exact evolved (evolves_read i c sound)
  | renderTexture key => exact evolved (evolves_renderTexture key)
  | compile i vertex fragment config =>
    intro p member
    rcases mem_programs_compile member with old | built
    · refine kept rfl (mem_programs.mpr ((mem_programs.mp old).imp_right (Or.imp_right ?_)))
      rw [(s.extends_compile i vertex fragment config).programs]
      exact id
    · exact .inl ⟨i, vertex, fragment, config, rfl, built⟩
  | makeTexture width height =>
    exact fun p member => kept rfl (mem_programs_makeTexture p member)
  | _ => exact fun p member => kept rfl ((within_perform rfl).programs p member)

/-- Where a program of a run comes from: the call that built it, what it was then, and its flushes
since. -/
structure Past (steps : List SessionStep) (s : Session δ) (p : Program) where
  before : List SessionStep
  step : SessionStep
  after : List SessionStep
  built : Program
  split : steps = before ++ step :: after
  compiles : (run before s).Compiles step built
  runs : built.Runs (built.own (flushesIn after ((run before s).perform step))) p

namespace Past

variable {steps : List SessionStep} {p : Program}

/-- The session in which the program was built. -/
def start (past : Past steps s p) : Session δ := run past.before s

/-- The flushes of the program, in their order. -/
def flushes (past : Past steps s p) : List (Flush δ) :=
  past.built.own (flushesIn past.after (past.start.perform past.step))

theorem step_mem (past : Past steps s p) : past.step ∈ steps := by
  obtain ⟨before, step, after, built, rfl, compiles, runs⟩ := past
  simp

theorem mem_flushesIn (past : Past steps s p) : ∀ f ∈ past.flushes, f ∈ flushesIn steps s := by
  intro f member
  have split : flushesIn steps s = flushesIn past.before s ++
      (past.start.flushes past.step ++ flushesIn past.after (past.start.perform past.step)) := by
    conv_lhs => rw [past.split]
    exact flushesIn_append
  rw [split]
  exact List.mem_append_right _ (List.mem_append_right _ (List.mem_filter.mp member).1)

variable {q : Program} {step : SessionStep}

theorem own_append (past : Past steps s q) :
    past.built.own (flushesIn (past.after ++ [step]) (past.start.perform past.step)) =
      past.flushes ++ q.own ((run steps s).flushes step) := by
  have now : run steps s = run past.after (past.start.perform past.step) :=
    (congrArg (run · s) past.split).trans run_append
  rw [flushesIn_append, Program.own_append, Program.own_of_frozen past.runs.frozen, ← now]
  simp [flushesIn, flushes]

/-- The past of a program that was built in the last call. -/
def ofBuilt (compiles : (run steps s).Compiles step p) : Past (steps ++ [step]) s p :=
  { before := steps, step, after := [], built := p, split := rfl, compiles, runs := rfl }

/-- One call more in the past of a program. -/
def next (past : Past steps s q) (last : q.Runs (q.own ((run steps s).flushes step)) p) :
    Past (steps ++ [step]) s p where
  before := past.before
  step := past.step
  after := past.after ++ [step]
  built := past.built
  split := by
    conv_lhs => rw [past.split]
    simp
  compiles := past.compiles
  runs := by
    change past.built.Runs (past.built.own (flushesIn _ (past.start.perform past.step))) p
    rw [past.own_append]
    exact past.runs.trans last

theorem flushes_next (past : Past steps s q) (last : q.Runs (q.own ((run steps s).flushes step)) p) :
    (past.next last).flushes = past.flushes ++ q.own ((run steps s).flushes step) := past.own_append

end Past

/-- Every program of a run has a past. -/
theorem exists_past (steps : List SessionStep) (sound : s.Sound) (none : s.programs = [])
    (minting : Minting (run steps s).world.events) :
    ∀ p ∈ (run steps s).programs, Nonempty (Past steps s p) := by
  induction steps using List.reverseRecOn with
  | nil =>
    intro p member
    have empty : p ∈ s.programs := member
    rw [none] at empty
    exact absurd empty List.not_mem_nil
  | append_singleton steps step ih =>
    intro p member
    have next : run (steps ++ [step]) s = (run steps s).perform step := run_append
    rw [next] at member minting
    have early := (grows_perform (s := run steps s) step).minting minting
    rcases runs_perform step (sound_run steps sound) early p member with built | ⟨q, there, last⟩
    · exact ⟨.ofBuilt built⟩
    · obtain ⟨past⟩ := ih early q there
      exact ⟨past.next last⟩

end Session

/-! ### What flushes find on the device -/

section Found

variable {m : Moment} {origin : Program → Prop} {seen : List HostArray} {ps rest : List Program}

theorem Ready.flushes (ready : Ready m origin seen (ps ++ rest) w)
    (dry : w.graphics.Dry ((ps ++ rest).map Program.owns).sum w.graphics.framebuffer) :
    ∀ f ∈ Program.flushes ps w, f.Ready m.tokens := by
  induction ps generalizing w seen rest with
  | nil => exact fun f none => absurd none List.not_mem_nil
  | cons p ps ih =>
    obtain ⟨⟨_, next⟩, dry', _⟩ := ready.renderNext dry
    intro f member
    rcases List.mem_cons.mp member with rfl | later
    · exact ⟨ready.wired p List.mem_cons_self, ready.settled p List.mem_cons_self⟩
    · exact ih next dry' f later

theorem RenderTexture.ready_flushes {key : Nat} (ready : Ready m origin seen (ps ++ w.programs) w) :
    ∀ f ∈ flushes key w, f.Ready m.tokens := by
  unfold flushes
  cases present : w.texture? key with
  | none => exact fun f none => absurd none List.not_mem_nil
  | some t =>
    obtain ⟨others, before, _⟩ := programs_renderInto none t.width t.height present
    have taken : (ps ++ w.programs).Perm (t.programs ++ (ps ++ others)) :=
      (before.append_left ps).trans (List.perm_append_comm_assoc t.programs ps others).symm
    obtain ⟨opened, dry⟩ := ready_opened present (ready.perm taken)
    exact opened.flushes dry

theorem Stack.ready_layerFlushes {framebuffer : Option Handle} {width height : UInt32}
    {layers : List Nat} (ready : Ready m origin seen (ps ++ w.programs) w) :
    ∀ f ∈ layerFlushes framebuffer width height layers w, f.Ready m.tokens := by
  induction layers generalizing w seen with
  | nil => exact fun f none => absurd none List.not_mem_nil
  | cons key rest ih =>
    obtain ⟨⟨_, next⟩, _⟩ := RenderTexture.ready_renderInto key framebuffer width height ready
    intro f member
    rcases List.mem_append.mp member with first | later
    · exact RenderTexture.ready_flushes ready f first
    · exact ih next f later

/-- Neither the frame nor what was bound before it may be a texture's. -/
theorem FrameStart.ready_flushes (start : FrameStart δ)
    (blank : start.target.bind start.world.graphics.attachments = none)
    (before : start.world.graphics.framebuffer.bind start.world.graphics.attachments = none)
    (ready : Ready m origin seen (start.stack.programs ++ ps ++ start.world.programs) start.world) :
    ∀ f ∈ start.flushes, f.Ready m.tokens := by
  obtain ⟨⟨_, own⟩, dry, _⟩ :=
    start.stack.ready_programs start.target start.width start.height blank before ready
  intro f member
  rcases List.mem_append.mp member with layer | mine
  · exact Stack.ready_layerFlushes (Stack.ready_targeted ready) f layer
  · exact own.flushes dry f mine

end Found

namespace Session

variable {s : Session δ} {step : SessionStep} {tokens : List Token} {origin : Program → Prop}

/-- Each flush of a frame finds what its program uploaded last. -/
theorem Prepared.frameFlushes {i : Nat} {start : FrameStart δ} (prepared : s.Prepared tokens origin)
    (sound : s.Sound) (minting : Minting s.world.events)
    (found : s.liveStacks[i]? = some start.stack) (here : s.world = start.world)
    (blank : start.target.bind start.world.graphics.attachments = none)
    (before : start.world.graphics.framebuffer.bind start.world.graphics.attachments = none) :
    ∀ f ∈ start.flushes, f.Ready tokens := by
  obtain ⟨others, perm, _⟩ := programs_of_stack found
  have ready := (prepared.ready sound minting).perm perm
  rw [here] at ready
  exact start.ready_flushes blank before ready

theorem Prepared.readFlushes {i : Nat} {c : ReadConfig} {stack : Stack}
    (prepared : s.Prepared tokens origin) (sound : s.Sound) (found : s.liveStacks[i]? = some stack)
    (minting : Minting (s.perform (.read i c)).world.events) :
    ∀ start ∈ stack.readFrame? c s.world, ∀ f ∈ start.flushes, f.Ready tokens := by
  have perform : s.perform (.read i c) = s.onStack i (readStack c) := rfl
  rw [perform, onStack_some found] at minting
  revert minting
  refine Stack.readStack_of_frame (fun frame _ w => Minting w.events →
    ∀ start ∈ frame, ∀ f ∈ start.flushes, f.Ready tokens) (prepared.bindTarget sound found)
    (fun _ start none => by simp at none) (fun _ _ _ _ start none => by simp at none)
    fun framebuffer stack' w bound => ?_
  intro f after minting start here
  obtain rfl := Option.some.inj here
  have drawing : Extends (·.isFrame) RenderTexture.shell f.world after.2 := Stack.extends_renderTo
  have early := drawing.events.minting (World.minting_of_emit (World.minting_of_performAll minting))
  obtain ⟨ready, kept, _, _, blank, target, _⟩ := bound (World.minting_of_emit early)
  have empty : w.graphics.framebuffer.bind w.graphics.attachments = none := by
    rw [target]
    exact blank
  have same := World.graphics_cleared .opaqueBlack .one empty
  have there : (s.liveStacks.set i stack')[i]? = some stack' :=
    List.getElem?_set_self (List.getElem?_eq_some_iff.mp found).1
  have cleared : Session.Prepared tokens origin
      { s with
        world := w.perform (.clear .opaqueBlack .one)
        liveStacks := s.liveStacks.set i stack' } :=
    ready.narrow (.of_world rfl rfl (.of_textures rfl)) (World.Spares.cleared _ _ empty)
  refine cleared.frameFlushes (World.Kept.performed kept rfl) early there rfl ?_ ?_
  · rw [same]
    exact blank
  · rw [same]
    exact empty

/-- Each flush of a call finds what its program uploaded last. -/
theorem Prepared.flushes (prepared : s.Prepared tokens origin) (sound : s.Sound)
    (screen : s.world.graphics.framebuffer = none)
    (minting : Minting (s.perform step).world.events) : ∀ f ∈ s.flushes step, f.Ready tokens := by
  have early : Minting s.world.events := (grows_perform step).minting minting
  have quiet (none : s.flushes step = []) : ∀ f ∈ s.flushes step, f.Ready tokens := by
    rw [none]
    exact fun f none => absurd none List.not_mem_nil
  cases step with
  | renderProgram j =>
    intro f member
    obtain ⟨p, found, rfl⟩ := Option.map_eq_some_iff.mp (Option.mem_toList.mp member)
    have here := prepared.programs p (mem_programs.mpr (.inl (List.mem_of_getElem? found)))
    exact ⟨here.wired, here.settled⟩
  | renderTexture key =>
    change ∀ f ∈ (if key ∈ s.held then RenderTexture.flushes key s.world else []), _
    have others : s.programs.Perm
        ((s.aside ++ s.liveStacks.flatMap Stack.programs) ++ s.world.programs) :=
      List.Perm.of_eq (List.append_assoc _ _ _).symm
    split
    · exact RenderTexture.ready_flushes ((prepared.ready sound early).perm others)
    · exact fun f none => absurd none List.not_mem_nil
  | render i =>
    change ∀ f ∈ ((s.frame? (.render i)).map FrameStart.flushes).getD [], _
    rw [frame?]
    cases found : s.liveStacks[i]? with
    | none => exact fun f none => absurd none List.not_mem_nil
    | some stack =>
      have empty : s.world.graphics.framebuffer.bind s.world.graphics.attachments = none := by
        rw [screen]
        rfl
      exact prepared.frameFlushes sound early found rfl rfl empty
  | read i c =>
    change ∀ f ∈ ((s.frame? (.read i c)).map FrameStart.flushes).getD [], _
    rw [frame?]
    cases found : s.liveStacks[i]? with
    | none => exact fun f none => absurd none List.not_mem_nil
    | some stack =>
      rw [Option.bind_some]
      have each := prepared.readFlushes sound found minting
      cases frame : stack.readFrame? c s.world with
      | none => exact fun f none => absurd none List.not_mem_nil
      | some start => exact each start frame
  | _ => exact quiet rfl

/-- In every session each flush finds what its program uploaded last. -/
theorem ready_flushesIn (device : δ) (host : Host) (steps : List SessionStep)
    (minting : Minting (run steps (fresh device host)).world.events)
    (words : WordNames (run steps (fresh device host)).world.events) :
    ∀ f ∈ flushesIn steps (fresh device host), f.Ready (steps.flatMap SessionStep.tokens) := by
  induction steps using List.reverseRecOn with
  | nil => exact fun f none => absurd none List.not_mem_nil
  | append_singleton steps step ih =>
    have next : run (steps ++ [step]) (fresh device host) =
      (run steps (fresh device host)).perform step := run_append
    rw [next] at minting words
    have grown := grows_perform (s := run steps (fresh device host)) step
    have early : ∀ t ∈ steps.flatMap SessionStep.tokens,
        t ∈ (steps ++ [step]).flatMap SessionStep.tokens := by
      rw [List.flatMap_append]
      exact fun t => List.mem_append_left _
    intro f member
    rw [flushesIn_append] at member
    rcases List.mem_append.mp member with old | last
    · exact (ih (grown.minting minting) (grown.words words) f old).mono early
    · obtain ⟨prepared, sound, screen⟩ :=
        prepared_run_fresh (grown.minting minting) (grown.words words)
      have mine : f ∈ (run steps (fresh device host)).flushes step := by simpa [flushesIn] using last
      exact (prepared.flushes sound screen minting f mine).mono early

end Session
end ShaderStack

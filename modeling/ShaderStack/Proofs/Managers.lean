import ShaderStack.Proofs.Caching
import ShaderStack.Proofs.Cells

/-! One manager among everything that a host does on its context.

A stack's manager goes with the stack. Calls on other things link nothing for it, and what they delete is
gone afterwards, while the programs of the manager are still there. -/
namespace ShaderStack

open World (Emits Extends)

variable {δ : Type} {w w' : World δ}

/-- The commands with which framebuffers and their images are made, and let go again if that fails. -/
def Command.isSetup : Command → Bool
  | bindTexture _ | textureParameters _ | textureImage _ none | bindFramebuffer _ | framebufferTexture _
  | renderbufferStorage _ _ _ _ | framebufferRenderbuffer _ | viewport _ _ _ _ | deleteTexture _
  | deleteFramebuffer _ | deleteRenderbuffer _ => true
  | _ => false

/-- What is done to make anything but programs. -/
def Event.isSetup : Event → Bool
  | allocation a _ => a.kind ≠ .program
  | probe _ _ => true
  | command c => c.isSetup
  | _ => false

namespace Event

variable {e : Event}

theorem leavesPrograms_of_isFrame (frame : e.isFrame) : e.LeavesPrograms none := by
  refine Event.leavesPrograms_of_silent ?_ (Event.untouched_of_isFrame frame).2
  cases e with
  | allocation a answer => simp [isFrame] at frame
  | _ => rfl

theorem leavesPrograms_of_isSetup (setup : e.isSetup) : e.LeavesPrograms none := by
  cases e with
  | allocation a answer =>
    refine leavesPrograms_of_silent ?_ rfl
    cases a with
    | program vertex fragment => exact Bool.noConfusion setup
    | _ => rfl
  | command c =>
    refine leavesPrograms_of_command fun h same => ?_
    subst same
    exact Bool.noConfusion setup
  | _ => exact leavesPrograms_of_silent rfl rfl

end Event

section Resources

variable [GraphicsDevice δ]

/-- Asking for another object. -/
theorem World.setup_allocated {a : Allocation} (other : a.kind ≠ .program) :
    Emits (·.isSetup) w (w.allocated a) := Emits.emit (by simpa [Event.isSetup] using other)

theorem World.setup_probed {p : Probe} : Emits (·.isSetup) w (w.probed p) := Emits.emit rfl

theorem World.setup_performAll (cs : List Command) (fits : ∀ c ∈ cs, c.isSetup) :
    Emits (·.isSetup) w (w.performAll cs) := Emits.performAll fits

open World

theorem RenderTexture.setup_make {width height : UInt32} :
    (make width height : Attempt δ Nat).Ends w (fun _ w' => Emits (·.isSetup) w w')
      (fun _ w' => Emits (·.isSetup) w w') := by
  rw [ends_make]
  split
  · exact Emits.refl w
  · have asked := setup_allocated (w := w) (a := .texture) (by decide)
    refine ⟨fun texture _ => ?_, fun e _ => asked⟩
    have stored := (asked.trans (setup_performAll (storage texture width height)
      (by simp [storage, Command.isSetup]))).trans (setup_allocated (a := .framebuffer) (by decide))
    refine ⟨fun framebuffer _ => ?_, fun e _ => ?_⟩
    · have closed := ((stored.trans (setup_performAll
        [.bindFramebuffer (some framebuffer), .framebufferTexture texture] (by simp [Command.isSetup]))).trans
          (setup_probed (p := .framebufferComplete))).trans
            (setup_performAll [.bindFramebuffer none] (by simp [Command.isSetup]))
      dsimp only
      split
      · exact closed.trans (setup_performAll _ (by simp [Command.isSetup]))
      · exact closed.trans (Emits.silent rfl)
    · exact stored.trans (setup_performAll [.deleteTexture texture] (by simp [Command.isSetup]))

namespace Stack

theorem setup_make {supported : Bool} {width height : UInt32} {options : StackOptions} :
    (make supported width height options).Ends w (fun _ w' => Emits (·.isSetup) w w')
      (fun _ w' => Emits (·.isSetup) w w') := by
  rw [ends_make]
  split
  · exact Emits.refl w
  · have probed : Emits (·.isSetup) w
        ((extensions options).foldl (fun w name => w.probed (.enableExtension name)) w) :=
      Emits.foldl fun w name _ => setup_probed
    exact (probed.push rfl).trans (Emits.silent rfl)

theorem setup_makeTarget {internal : InternalFormat} {width height : UInt32} :
    (makeTarget internal width height).Ends w (fun _ w' => Emits (·.isSetup) w w')
      (fun _ w' => Emits (·.isSetup) w w') := by
  rw [ends_makeTarget]
  have asked := setup_allocated (w := w) (a := .renderbuffer) (by decide)
  refine ⟨fun renderbuffer _ => ?_, fun e _ => asked⟩
  have stored := (asked.trans (setup_performAll
    [.renderbufferStorage renderbuffer internal width height] (by simp [Command.isSetup]))).trans
      (setup_allocated (a := .framebuffer) (by decide))
  refine ⟨fun framebuffer _ => ?_, fun e _ => ?_⟩
  · have attached := (stored.trans (setup_performAll
      [.bindFramebuffer (some framebuffer), .framebufferRenderbuffer renderbuffer]
        (by simp [Command.isSetup]))).trans (setup_probed (p := .framebufferComplete))
    dsimp only
    split
    · exact attached.trans (setup_performAll _ (by simp [Command.isSetup]))
    · exact attached
  · exact stored.trans (setup_performAll [.deleteRenderbuffer renderbuffer] (by simp [Command.isSetup]))

/-- A target for a readback, which keeps the cache of the stack. -/
theorem setup_bindTarget {s : Stack} {c : ReadConfig} {width height : UInt32} :
    (bindTarget c width height s).Ends w
      (fun answer w' => answer.2.cache = s.cache ∧ Emits (·.isSetup) w w')
      (fun _ w' => Emits (·.isSetup) w w') := by
  rw [ends_bindTarget]
  split
  · exact ⟨rfl, Emits.emit rfl⟩
  · exact setup_makeTarget.imp (fun _ _ run => ⟨rfl, run⟩) fun _ _ run => run

/-- A readback keeps the cache of the stack. -/
theorem leavesPrograms_read {s : Stack} {c : ReadConfig} :
    (s.read c).Ends w
      (fun answer w' => answer.2.cache = s.cache ∧ Emits (Event.LeavesPrograms none) w w')
      (fun _ w' => Emits (Event.LeavesPrograms none) w w') := by
  have left {v v' : World δ} (run : Emits (·.isSetup) v v') : Emits (Event.LeavesPrograms none) v v' :=
    run.mono fun _ => Event.leavesPrograms_of_isSetup
  rw [ends_read]
  dsimp only
  split
  · exact Emits.refl w
  · refine setup_bindTarget.imp ?_ fun _ _ => left
    rintro ⟨framebuffer, bound⟩ w' ⟨same, run⟩
    obtain ⟨programs, drawn, _⟩ := renderTo_eq bound (some framebuffer) (c.width.getD s.width)
      (c.height.getD s.height) (w'.perform (.clear .opaqueBlack .one))
    have cleared : Extends (·.isFrame) RenderTexture.shell w' (w'.perform (.clear .opaqueBlack .one)) :=
      Extends.emit rfl
    have frame : Extends (·.isFrame) RenderTexture.shell (w'.perform (.clear .opaqueBlack .one))
        ((bound.renderTo (some framebuffer) (c.width.getD s.width) (c.height.getD s.height)).run
          (w'.perform (.clear .opaqueBlack .one))).2 := extends_renderTo
    refine ⟨?_, ?_⟩
    · dsimp only
      rw [drawn]
      exact same
    · have shown := (left run).trans
        ((cleared.trans frame).events.mono fun _ => Event.leavesPrograms_of_isFrame)
      refine (shown.push (Event.leavesPrograms_of_silent rfl rfl)).pushAll fun c member => ?_
      simp only [List.mem_cons, List.not_mem_nil, or_false] at member
      rcases member with rfl | rfl <;> exact Event.leavesPrograms_of_silent rfl rfl

end Stack
end Resources

/-- Where a stack stands after a call. Stacks behind one that is dropped move up. -/
def SessionStep.follow (i : Nat) : SessionStep → Nat
  | .dropStack j => if j < i then i - 1 else i
  | _ => i

/-- The stack at the position is not dropped. -/
def SessionStep.Spares (i : Nat) (step : SessionStep) : Prop := step ≠ .dropStack i

namespace SessionStep

/-- What a call may alter in a stack. Only compilations alter its cache, and only readbacks its
targets. -/
structure Alters (step : SessionStep) (j : Nat) (old new : Stack) : Prop where
  cache : (∀ vertex fragment config, step ≠ .compile j vertex fragment config) → new.cache = old.cache
  targets : (∀ config, step ≠ .read j config) → new.targets = old.targets

theorem Alters.refl {step : SessionStep} {j : Nat} (stack : Stack) : step.Alters j stack stack :=
  ⟨fun _ => rfl, fun _ => rfl⟩

/-- From the stacks before a call to those after it. One of them is altered at most. -/
inductive Leads (step : SessionStep) (live : List Stack) : List Stack → Prop
  | same (keeps : ∀ j, step ≠ .dropStack j) : Leads step live live
  | added {new : Stack} (keeps : ∀ j, step ≠ .dropStack j) (cache : new.cache = {})
      (targets : new.targets = []) : Leads step live (live ++ [new])
  | altered {j : Nat} {old new : Stack} (keeps : ∀ j, step ≠ .dropStack j)
      (found : live[j]? = some old) (alters : step.Alters j old new) : Leads step live (live.set j new)
  | dropped {j : Nat} (drop : step = .dropStack j) : Leads step live (live.eraseIdx j)

theorem follow_of_keeps {step : SessionStep} {i : Nat} (keeps : ∀ j, step ≠ .dropStack j) :
    step.follow i = i := by
  cases step with
  | dropStack j => exact absurd rfl (keeps j)
  | _ => rfl

end SessionStep

namespace Session

/-- Where a stack stands after a run. -/
def follow (i : Nat) (steps : List SessionStep) : Nat := steps.foldl SessionStep.follow i

/-- The stack that stands at the position in the beginning lives through a run. -/
def Spared : Nat → List SessionStep → Prop
  | _, [] => True
  | i, step :: rest => step.Spares i ∧ Spared (step.follow i) rest

/-- A stack with this cache stands at the position. -/
def Holds (i : Nat) (cache : ProgramCache) (live : List Stack) : Prop :=
  ∃ stack, live[i]? = some stack ∧ stack.cache = cache

theorem spared_append {i : Nat} {before after : List SessionStep} {step : SessionStep} :
    Spared i (before ++ step :: after) ↔
      Spared i before ∧ step.Spares (follow i before) ∧
        Spared (step.follow (follow i before)) after := by
  induction before generalizing i with
  | nil => simp [Spared, follow]
  | cons first before ih => simp [Spared, follow, ih, and_assoc]

variable {s : Session δ} {i : Nat} {cache : ProgramCache}

section Stacks

variable {step : SessionStep} {live live' : List Stack} {stack : Stack}

/-- The stack at a position comes through, and only the calls on it alter it. -/
theorem exists_of_leads (leads : step.Leads live live') (found : live[i]? = some stack)
    (spares : step.Spares i) : ∃ stack', live'[step.follow i]? = some stack' ∧ step.Alters i stack stack' := by
  have inside := (List.getElem?_eq_some_iff.mp found).1
  cases leads with
  | same keeps => exact ⟨stack, by rw [SessionStep.follow_of_keeps keeps, found], .refl stack⟩
  | added keeps _ _ =>
    exact ⟨stack, by rw [SessionStep.follow_of_keeps keeps, List.getElem?_append_left inside, found],
      .refl stack⟩
  | @altered j old new keeps found' alters =>
    rw [SessionStep.follow_of_keeps keeps]
    by_cases here : j = i
    · subst here
      obtain rfl : stack = old := Option.some.inj (found.symm.trans found')
      exact ⟨new, List.getElem?_set_self inside, alters⟩
    · exact ⟨stack, by rw [List.getElem?_set_ne here, found], .refl stack⟩
  | @dropped j drop =>
    subst drop
    have other : j ≠ i := fun same => spares (same ▸ rfl)
    refine ⟨stack, ?_, .refl stack⟩
    change (live.eraseIdx j)[if j < i then i - 1 else i]? = some stack
    by_cases below : j < i
    · rw [if_pos below, List.getElem?_eraseIdx_of_ge (by omega), Nat.sub_add_cancel (by omega), found]
    · rw [if_neg below, List.getElem?_eraseIdx_of_lt (by omega), found]

theorem stacks_takeAside (fits : List Stack → Prop) {j : Nat} {use : Program → Session δ → Session δ}
    (start : fits s.liveStacks)
    (next : ∀ p s', s'.liveStacks = s.liveStacks → fits (use p s').liveStacks) :
    fits (s.takeAside j use).liveStacks := by
  unfold takeAside
  split
  · exact start
  · exact next _ _ rfl

theorem stacks_onHeld (fits : List Stack → Prop) {key : Nat} {call : Session δ → Session δ}
    (start : fits s.liveStacks) (next : fits (call s).liveStacks) : fits (s.onHeld key call).liveStacks := by
  unfold onHeld
  split
  · exact next
  · exact start

theorem leads_onStack {j : Nat} {action : Stack → Engine δ Stack} (keeps : ∀ j, step ≠ .dropStack j)
    (alters : ∀ (stack : Stack) (w : World δ), step.Alters j stack ((action stack).run w).1) :
    step.Leads s.liveStacks (s.onStack j action).liveStacks := by
  cases found : s.liveStacks[j]? with
  | none =>
    rw [onStack_none found]
    exact .same keeps
  | some stack =>
    rw [onStack_some found]
    exact .altered keeps found (alters stack s.world)

end Stacks

variable [GraphicsDevice δ]

/-- A call leads from the stacks before it to those after it. -/
theorem leads_perform (step : SessionStep) : step.Leads s.liveStacks (s.perform step).liveStacks := by
  cases step with
  | changeHost _ | changeSurface _ _ | fireSurface _ | clear => exact .same nofun
  | makeStack supported width height options =>
    refine attempt_of_ends (fun s' => SessionStep.Leads _ s.liveStacks s'.liveStacks) ?_
    rw [Stack.ends_make]
    split
    · exact .same nofun
    · exact .added nofun rfl rfl
  | compile j vertex fragment config =>
    change SessionStep.Leads _ s.liveStacks (s.compileOn j vertex fragment config).liveStacks
    unfold compileOn
    split
    · exact .same nofun
    · next found => exact .altered nofun found ⟨fun other => absurd rfl (other _ _ _), fun _ => rfl⟩
  | addToStack j k =>
    refine stacks_takeAside _ (.same nofun) fun p s' same => ?_
    rw [← same]
    unfold addToStack
    split
    · exact .same nofun
    · next found => exact .altered nofun found ⟨fun _ => rfl, fun _ => rfl⟩
  | addToTexture key j =>
    exact stacks_onHeld _ (.same nofun) (stacks_takeAside _ (.same nofun) fun p s' same => same ▸ .same nofun)
  | renderProgram j =>
    change SessionStep.Leads _ s.liveStacks (s.renderAside j).liveStacks
    unfold renderAside
    split <;> exact .same nofun
  | dropProgram j => exact stacks_takeAside _ (.same nofun) fun p s' same => same ▸ .same nofun
  | render j =>
    refine leads_onStack nofun fun stack w => ?_
    obtain ⟨programs, drawn, _⟩ := Stack.renderTo_eq stack none stack.width stack.height w
    unfold Stack.render
    rw [drawn]
    exact ⟨fun _ => rfl, fun _ => rfl⟩
  | resize j width height =>
    change SessionStep.Leads _ s.liveStacks (s.onStack j (Stack.resize width height)).liveStacks
    refine leads_onStack nofun fun stack w => ?_
    rw [Stack.run_resize]
    split <;> exact ⟨fun _ => rfl, fun _ => rfl⟩
  | onResize j listener => exact leads_onStack nofun fun _ _ => ⟨fun _ => rfl, fun _ => rfl⟩
  | takeRedraw j => exact leads_onStack nofun fun _ _ => ⟨fun _ => rfl, fun _ => rfl⟩
  | read j config =>
    refine leads_onStack nofun fun stack w => ⟨fun _ => ?_, fun other => absurd rfl (other _)⟩
    refine readStack_of_ends (fun stack' _ => stack'.cache = stack.cache) ?_
    exact Stack.leavesPrograms_read.imp (fun _ _ read => read.1) fun _ _ _ => rfl
  | dropStack j =>
    change SessionStep.Leads _ s.liveStacks (s.dropStack j).liveStacks
    unfold dropStack
    cases found : s.liveStacks[j]? with
    | none =>
      have same := List.eraseIdx_of_length_le (List.getElem?_eq_none_iff.mp found)
      have dropped : SessionStep.Leads (.dropStack j) s.liveStacks (s.liveStacks.eraseIdx j) := .dropped rfl
      rwa [same] at dropped
    | some stack => exact .dropped rfl
  | makeTexture width height =>
    refine attempt_of_ends (fun s' => SessionStep.Leads _ s.liveStacks s'.liveStacks) ?_
    exact RenderTexture.setup_make.imp (fun _ _ _ => .same nofun) fun _ _ _ => .same nofun
  | retain key | release key | renderTexture key => exact stacks_onHeld _ (.same nofun) (.same nofun)
  | addLayer j key =>
    exact stacks_onHeld _ (.same nofun) (leads_onStack nofun fun _ _ => ⟨fun _ => rfl, fun _ => rfl⟩)

/-- Calls other than its compilations leave a manager's cache as it is. -/
theorem holds_perform {step : SessionStep} (holds : Holds i cache s.liveStacks)
    (spares : step.Spares i)
    (other : ∀ vertex fragment config, step ≠ .compile i vertex fragment config) :
    Holds (step.follow i) cache (s.perform step).liveStacks := by
  obtain ⟨stack, found, known⟩ := holds
  obtain ⟨stack', found', alters⟩ := exists_of_leads (leads_perform step) found spares
  exact ⟨stack', found', (alters.cache other).trans known⟩

/-- What the manager of a stack compiles in a call. -/
def compiled (i : Nat) (s : Session δ) : SessionStep → List Compilation
  | .compile j vertex fragment config =>
    if j = i then
      s.liveStacks[i]?.toList.map fun stack =>
        stack.cache.compilation stack.redraw vertex fragment config s.world
    else []
  | _ => []

/-- What the manager of a stack compiles in a run. -/
def compilations : Nat → List SessionStep → Session δ → List Compilation
  | _, [], _ => []
  | i, step :: rest, s => s.compiled i step ++ compilations (step.follow i) rest (s.perform step)

/-- A call changes a cache by the compilations of its manager alone. -/
theorem serves_perform {step : SessionStep} (holds : Holds i cache s.liveStacks)
    (spares : step.Spares i) :
    ∃ cache', Holds (step.follow i) cache' (s.perform step).liveStacks ∧
      Compilation.Serves cache (s.compiled i step) cache' := by
  by_cases own : ∃ vertex fragment config, step = .compile i vertex fragment config
  · obtain ⟨vertex, fragment, config, rfl⟩ := own
    obtain ⟨stack, found, rfl⟩ := holds
    have inside := (List.getElem?_eq_some_iff.mp found).1
    have one : s.compiled i (.compile i vertex fragment config) =
        [stack.cache.compilation stack.redraw vertex fragment config s.world] := by
      simp [compiled, found]
    rw [one, (perform_compile vertex fragment config found).1]
    refine ⟨_, ⟨_, List.getElem?_set_self inside, rfl⟩, .cons ?_ .nil⟩
    exact (stack.cache.served_compile stack.redraw vertex fragment config s.world).2
  · have other (vertex fragment : CompiledShader) (config : ProgramConfig) :
        step ≠ .compile i vertex fragment config := fun same => own ⟨_, _, _, same⟩
    have none : s.compiled i step = [] := by
      cases step with
      | compile j vertex fragment config =>
        have apart : j ≠ i := fun same => other vertex fragment config (same ▸ rfl)
        exact if_neg apart
      | _ => rfl
    rw [none]
    exact ⟨cache, holds_perform holds spares other, .nil⟩

/-- A cached compilation deletes no program, not even the one that it has linked. -/
theorem deletes_compiled {step : SessionStep} {c : Compilation} (member : c ∈ s.compiled i step)
    (cached : c.cached = true) :
    (s.perform step).world.events = s.world.events ++ c.events ∧
      ∀ e ∈ c.events, ∀ h, e.deletes? ≠ some ⟨.program, h⟩ := by
  cases step with
  | compile j vertex fragment config =>
    simp only [compiled] at member
    by_cases own : j = i
    · subst own
      rw [if_pos rfl] at member
      obtain ⟨stack, there, rfl⟩ := List.mem_map.mp member
      have found : s.liveStacks[j]? = some stack := by simpa using there
      obtain ⟨events, served⟩ :=
        stack.cache.served_compile stack.redraw vertex fragment config s.world
      refine ⟨?_, served.keeps cached⟩
      rw [(perform_compile vertex fragment config found).1]
      exact events
    · simp [own] at member
  | _ => simp [compiled] at member

theorem serves_run {steps : List SessionStep} (holds : Holds i cache s.liveStacks)
    (spared : Spared i steps) :
    ∃ cache', Holds (follow i steps) cache' (run steps s).liveStacks ∧
      Compilation.Serves cache (compilations i steps s) cache' := by
  induction steps generalizing s i cache with
  | nil => exact ⟨cache, holds, .nil⟩
  | cons step rest ih =>
    obtain ⟨next, holds', early⟩ := serves_perform holds spared.1
    obtain ⟨last, holds'', late⟩ := ih holds' spared.2
    exact ⟨last, holds'', Compilation.serves_append.mpr ⟨next, early, late⟩⟩

/-- A call only deletes, or it is a compilation, or it has nothing to do with programs. -/
theorem events_perform (step : SessionStep) :
    Emits (·.isErasure) s.world (s.perform step).world ∨
      Emits (Event.LeavesPrograms none) s.world (s.perform step).world ∨
      ∃ (c : Compilation) (cache next : ProgramCache), c.Served cache next ∧
        (s.perform step).world.events = s.world.events ++ c.events := by
  have framed {w' : World δ} (run : Extends (·.isFrame) RenderTexture.shell s.world w') :
      Emits (Event.LeavesPrograms none) s.world w' :=
    run.events.mono fun _ => Event.leavesPrograms_of_isFrame
  cases step with
  | makeStack supported width height options =>
    refine .inr (.inl ?_)
    have made : Emits (·.isSetup) s.world (s.perform (.makeStack supported width height options)).world :=
      attempt_of_ends (fun s' => Emits _ s.world s'.world) Stack.setup_make
    exact made.mono fun _ => Event.leavesPrograms_of_isSetup
  | compile j vertex fragment config =>
    cases found : s.liveStacks[j]? with
    | none =>
      rw [perform_compile_missing found]
      exact .inl (Emits.refl _)
    | some stack =>
      rw [(perform_compile vertex fragment config found).1]
      obtain ⟨events, served⟩ :=
        stack.cache.served_compile stack.redraw vertex fragment config s.world
      exact .inr (.inr ⟨_, _, _, served, events⟩)
  | renderProgram j =>
    change _ ∨ Emits _ s.world (s.renderAside j).world ∨ _
    refine .inr (.inl ?_)
    unfold renderAside
    split
    · exact Emits.refl _
    · exact framed Program.extends_render.coarsen
  | render j =>
    exact .inr (.inl (world_onStack (Emits _ s.world) (Emits.refl _) fun stack _ =>
      framed Stack.extends_renderTo))
  | clear => exact .inr (.inl (framed (Extends.emit (by rfl))))
  | resize j width height =>
    exact .inr (.inl (world_onStack (Emits _ s.world) (Emits.refl _) fun stack _ =>
      framed (stack.extends_resize width height s.world)))
  | read j config =>
    refine .inr (.inl (world_onStack (Emits _ s.world) (Emits.refl _) fun stack _ => ?_))
    refine readStack_of_ends (fun _ w => Emits _ s.world w) ?_
    exact Stack.leavesPrograms_read.imp (fun _ _ read => read.2) fun _ _ => id
  | makeTexture width height =>
    refine .inr (.inl ?_)
    have made : Emits (·.isSetup) s.world (s.perform (.makeTexture width height)).world :=
      attempt_of_ends (fun s' => Emits _ s.world s'.world) RenderTexture.setup_make
    exact made.mono fun _ => Event.leavesPrograms_of_isSetup
  | renderTexture key =>
    exact .inr (.inl (world_onHeld (Emits _ s.world) (Emits.refl _) fun _ =>
      framed RenderTexture.extends_render))
  | _ => exact .inl (erases_perform rfl)

/-- The trace only grows. -/
theorem grows_perform (step : SessionStep) : Emits (fun _ => True) s.world (s.perform step).world := by
  rcases events_perform (s := s) step with erased | left | ⟨c, _, _, _, split⟩
  · exact erased.mono fun _ _ => trivial
  · exact left.mono fun _ _ => trivial
  · exact ⟨c.events, split, fun _ _ => trivial⟩

theorem grows_run (steps : List SessionStep) : Emits (fun _ => True) s.world (run steps s).world := by
  induction steps generalizing s with
  | nil => exact Emits.refl _
  | cons step rest ih => exact (grows_perform step).trans ih

theorem minting_before {steps : List SessionStep} (minting : Minting (run steps s).world.events) :
    Minting s.world.events := by
  obtain ⟨es, split, _⟩ := grows_run (s := s) steps
  exact minting_append (split ▸ minting)

/-- A program that is there before a call and after it was not deleted meanwhile. -/
theorem keeps_program {step : SessionStep} {h : Handle}
    (minting : Minting (s.perform step).world.events)
    (before : ⟨.program, h⟩ ∈ live s.world.events)
    (after : ⟨.program, h⟩ ∈ live (s.perform step).world.events) :
    Emits (fun e => e.deletes? ≠ some ⟨.program, h⟩) s.world (s.perform step).world := by
  rcases events_perform (s := s) step with ⟨es, split, erasing⟩ | left | ⟨c, _, _, served, split⟩
  · rw [split] at minting
    rw [split, live_append] at after
    refine ⟨es, split, fun e member deletes => ?_⟩
    exact not_mem_of_deletes (nodup_live (minting_append minting)) erasing member deletes after
  · exact left.mono fun e leaves deletes => nomatch leaves.2 h deletes
  · refine ⟨c.events, split, fun e member deletes => ?_⟩
    cases served with
    | rejected events _ => simp [events] at member
    | refused _ events _ =>
      rw [events, List.mem_singleton] at member
      simp [member, Event.deletes?] at deletes
    | reused _ _ others _ => nomatch (others e member).2 h deletes
    | @linked new vertex fragment rest _ events others _ =>
      -- the program that is linked is not the one that is there
      have other : new ≠ h := by
        rintro rfl
        rw [split, events, List.append_cons] at minting
        exact (minting_snoc.mp (minting_append minting)).2 _ rfl before
      rw [events] at member
      rcases List.mem_cons.mp member with rfl | member
      · simp [Event.deletes?] at deletes
      · have mine := (others e member).2 h deletes
        cases cached : c.cached <;> simp_all

omit [GraphicsDevice δ] in
/-- The programs of a cache are there. -/
theorem Holds.mem_live (holds : Holds i cache s.liveStacks) (sound : s.Sound) {pair : Identity × Identity}
    {h : Handle} (entry : (pair, h) ∈ cache.entries) : ⟨.program, h⟩ ∈ live s.world.events := by
  obtain ⟨stack, there, rfl⟩ := holds
  have owned : (⟨.program, h⟩ : Object) ∈ stack.cache.owns := List.mem_map.mpr ⟨_, entry, rfl⟩
  rw [sound.accounted.2]
  refine Multiset.mem_add.mpr (.inr (Multiset.mem_add.mpr (.inr ?_)))
  exact mem_sum_owned (List.mem_of_getElem? there) (Multiset.mem_add.mpr (.inr owned))

omit [GraphicsDevice δ] in
/-- One program stands in one entry. -/
theorem Holds.eq_of_mem (holds : Holds i cache s.liveStacks) (sound : s.Sound)
    (minting : Minting s.world.events) {first second : Identity × Identity} {h : Handle}
    (here : (first, h) ∈ cache.entries) (there : (second, h) ∈ cache.entries) : first = second := by
  obtain ⟨stack, found, rfl⟩ := holds
  have distinct := nodup_live minting
  obtain ⟨others, _, owned, _, _, _⟩ := split_stack found
  rw [sound.accounted.2, owned, Multiset.nodup_add, Multiset.nodup_add] at distinct
  have programs : (stack.cache.entries.map fun entry => (⟨.program, entry.2⟩ : Object)).Nodup := by
    have own := distinct.2.1.1
    unfold Stack.owns at own
    exact Multiset.coe_nodup.mp (Multiset.nodup_add.mp own).2.1
  exact congrArg Prod.fst (List.inj_on_of_nodup_map programs here there rfl)

/-- As long as the manager lives, its programs are not deleted. -/
theorem keeps_programs {steps : List SessionStep} (holds : Holds i cache s.liveStacks) (sound : s.Sound)
    (spared : Spared i steps) (minting : Minting (run steps s).world.events)
    {pair : Identity × Identity} {h : Handle} (entry : (pair, h) ∈ cache.entries) :
    Emits (fun e => e.deletes? ≠ some ⟨.program, h⟩) s.world (run steps s).world := by
  induction steps generalizing s i cache with
  | nil => exact Emits.refl _
  | cons step rest ih =>
    obtain ⟨next, holds', serves⟩ := serves_perform holds spared.1
    have entry' := serves.subset entry
    have sound' := sound_perform step sound
    have first := keeps_program (minting_before minting) (holds.mem_live sound entry)
      (holds'.mem_live sound' entry')
    exact first.trans (ih holds' sound' spared.2 minting entry')

end Session

section Managers

variable [GraphicsDevice δ]

/-- An uncached compilation does the same with any cache, and adds nothing to it. -/
theorem ProgramCache.compile_uncached (cache cache' : ProgramCache) (redraw : RedrawKey)
    (vertex fragment : CompiledShader) {config : ProgramConfig} (uncached : config.cached = false)
    (w : World δ) :
    let built := (cache.compile redraw vertex fragment config).run w
    let built' := (cache'.compile redraw vertex fragment config).run w
    built.1.1 = built'.1.1 ∧ built.2 = built'.2 ∧ built.1.2.entries = cache.entries := by
  simp only [run_compile, run_link, uncached]
  cases checkSharedNames vertex fragment with
  | error e => exact ⟨rfl, rfl, rfl⟩
  | ok fit => cases w.granted (.program vertex.source fragment.source) <;> exact ⟨rfl, rfl, rfl⟩

/-- What a manager promises for the compilations that it was asked for, in order. -/
structure LinksOnce (history : List Compilation) (links : Nat) : Prop where
  /-- The counter counts the programs that were made. -/
  counted : links = (history.flatMap Compilation.links).countP (·.isOk)
  /-- What was linked for the cache is used by every later cached compilation of the pair. -/
  once : ∀ before c middle d after h, history = before ++ c :: (middle ++ d :: after) →
    c.cached = true → .ok h ∈ c.links → d.cached = true → d.pair = c.pair →
      d.links = [] ∧ ∀ p, d.result = .ok p → p.handle = h
  /-- Cached compilations of different pairs have no program in common. -/
  apart : ∀ c ∈ history, ∀ d ∈ history, c.cached = true → d.cached = true → c.pair ≠ d.pair →
    ∀ h, c.Uses h → ¬ d.Uses h

namespace Session

variable {s : Session δ} {i : Nat}

/-- A manager links each pair once for its cache, in every run of the host and whatever fails. What it
has linked so is not deleted as long as the manager lives. -/
theorem manager_links_pairs_once {stack : Stack} {steps : List SessionStep} (reached : s.Reached)
    (found : s.liveStacks[i]? = some stack) (new : stack.cache = {}) (spared : Spared i steps)
    (minting : Minting (run steps s).world.events) :
    (∃ stack', (run steps s).liveStacks[follow i steps]? = some stack' ∧
      LinksOnce (compilations i steps s) stack'.cache.links) ∧
    (∀ before step after, steps = before ++ step :: after →
      ∀ c ∈ (run before s).compiled (follow i before) step, c.cached = true → ∀ h, c.Uses h →
        Emits (fun e => e.deletes? ≠ some ⟨.program, h⟩) (run before s).world (run steps s).world) ∧
    (∀ (cache cache' : ProgramCache) (redraw : RedrawKey) (vertex fragment : CompiledShader)
      (config : ProgramConfig) (w : World δ), config.cached = false →
        let built := (cache.compile redraw vertex fragment config).run w
        let built' := (cache'.compile redraw vertex fragment config).run w
        built.1.1 = built'.1.1 ∧ built.2 = built'.2 ∧ built.1.2.entries = cache.entries) := by
  have holds : Holds i {} s.liveStacks := ⟨stack, found, new⟩
  have distinct : (({} : ProgramCache).entries.map Prod.fst).Nodup := List.nodup_nil
  refine ⟨?_, ?_, fun cache cache' redraw vertex fragment config w uncached =>
    cache.compile_uncached cache' redraw vertex fragment uncached w⟩
  · obtain ⟨cache, holds', serves⟩ := serves_run holds spared
    have sound' := sound_run steps reached.sound
    obtain ⟨stack', there, same⟩ := holds'
    refine ⟨stack', there, ?_, ?_, ?_⟩
    · rw [same, serves.links_eq]
      exact Nat.zero_add _
    · intro before c middle d after h split cached linked cached' pair
      refine ⟨(split ▸ serves).links_once distinct cached linked cached' pair, fun p ok => ?_⟩
      exact serves.same_handle distinct (by simp [split]) (by simp [split]) cached cached' pair
        (.inl linked) (.inr ⟨p, ok, rfl⟩)
    · intro c here d there' cached cached' differ h uses uses'
      exact differ (Holds.eq_of_mem ⟨stack', there, same⟩ sound' minting
        (serves.mem_of_uses here cached uses) (serves.mem_of_uses there' cached' uses'))
  · rintro before step after rfl c member cached h uses
    rw [run_append] at minting ⊢
    obtain ⟨first, here, last⟩ := spared_append.mp spared
    obtain ⟨cache, holds', early⟩ := serves_run holds first
    obtain ⟨next, holds'', serves⟩ := serves_perform holds' here
    have sound' := sound_run before reached.sound
    obtain ⟨events, keeps⟩ := deletes_compiled member cached
    have compiling : Emits (fun e => e.deletes? ≠ some ⟨.program, h⟩) (run before s).world
        ((run before s).perform step).world := ⟨c.events, events, fun e member => keeps e member h⟩
    exact compiling.trans (keeps_programs holds'' (sound_perform step sound') last minting
      (serves.mem_of_uses member cached uses))

/-- A stack whose manager has compiled nothing yet. -/
def opened : Session RecordingDevice := run [.makeStack true 8 8 {}] (fresh {} {})

/-- One pair is compiled three times, once without the cache, and another pair in between. A program of
the cache is dropped meanwhile. -/
def requests : List SessionStep :=
  let shader (template : Identity) : CompiledShader := ⟨template, "void main", []⟩
  let config : ProgramConfig := { draw := .arrays 0 3, cached := true }
  [.compile 0 (shader 0) (shader 1) config, .dropProgram 0,
    .compile 0 (shader 0) (shader 2) config, .compile 0 (shader 0) (shader 1) config,
    .compile 0 (shader 0) (shader 1) { config with cached := false }, .dropProgram 2]

theorem requests_link_pairs_once :
    ∃ stack, (run requests opened).liveStacks[0]? = some stack ∧ stack.cache.links = 3 ∧
      LinksOnce (compilations 0 requests opened) stack.cache.links := by
  have reached : opened.Reached := ⟨_, _, _, rfl⟩
  have minting : Minting (run requests opened).world.events := by decide +kernel
  have counter : ((run requests opened).liveStacks[0]?.map fun stack => stack.cache.links) = some 3 := by
    decide +kernel
  have spared : Spared 0 requests := by simp [Spared, requests, SessionStep.Spares]
  obtain ⟨stack, found, links⟩ := (manager_links_pairs_once reached rfl rfl spared minting).1
  refine ⟨stack, found, ?_, links⟩
  rw [show (run requests opened).liveStacks[0]? = some stack from found] at counter
  exact Option.some.inj counter

end Session
end Managers
end ShaderStack

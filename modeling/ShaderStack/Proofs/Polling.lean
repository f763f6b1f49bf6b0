import ShaderStack.Frame.Drive
import ShaderStack.Proofs.Redraws

/-! Polling a stack that is drawn on demand.

A poll takes the requests of its stack and draws one frame for them. The frame settles what its own
layers ask for while they are drawn, so that the next poll rests until something else is drawn. -/
namespace ShaderStack

variable {δ : Type}

namespace FrameDriver

/-- The one action that clears, or none where clearing is off. -/
def clearing (d : FrameDriver) : List FrameAction :=
  match d.clear with
  | .off => []
  | .default => [.clear]
  | .custom => [.customClear]

/-- One call of each listener, in order. -/
def listening (d : FrameDriver) : List FrameAction := (List.range d.listeners).map .listener

/-- What a frame does before it renders. -/
def prelude (d : FrameDriver) : List FrameAction := d.clearing ++ d.listening

theorem frameActions_eq (d : FrameDriver) : d.frameActions = d.prelude ++ [.render] := rfl

theorem render_not_mem_prelude (d : FrameDriver) : FrameAction.render ∉ d.prelude := by
  unfold prelude clearing listening
  cases d.clear <;> simp

/-- A step takes all actions of a frame or none. -/
theorem actions_step (d : FrameDriver) (requested : Bool) (step : FrameStep) :
    (d.step requested step).2.1 = [] ∨ (d.step requested step).2.1 = d.frameActions := by
  cases step with
  | refresh now =>
    simp only [FrameDriver.step, refresh]
    split
    · exact .inl rfl
    · split
      · exact .inl rfl
      · exact .inr rfl
  | notify =>
    simp only [FrameDriver.step, notify]
    split
    · exact .inr rfl
    · exact .inl rfl
  | poll =>
    simp only [FrameDriver.step, poll, notify]
    split
    · split
      · exact .inr rfl
      · exact .inl rfl
    · exact .inl rfl
  | start => exact .inl rfl
  | stop => exact .inl rfl

theorem schedule_step (d : FrameDriver) (requested : Bool) (step : FrameStep) :
    (d.step requested step).2.2.schedule = d.schedule := by
  cases step with
  | refresh now =>
    simp only [FrameDriver.step, refresh]
    split
    · rfl
    · split <;> rfl
  | notify =>
    simp only [FrameDriver.step, notify]
    split <;> rfl
  | poll =>
    simp only [FrameDriver.step, poll, notify]
    split
    · split <;> rfl
    · rfl
  | start =>
    simp only [FrameDriver.step, start]
    split <;> rfl
  | stop => rfl

/-- A driver that draws on demand. -/
def onDemand (clear : ClearPolicy) (listeners : Nat) : FrameDriver :=
  { schedule := .onDemand, interval := none, clear, listeners, running := false }

theorem make_onDemand (clear : ClearPolicy) (listeners : Nat) :
    (make .onDemand).map (fun d => { d with clear, listeners }) = .ok (onDemand clear listeners) := rfl

end FrameDriver

open World (Hushed Attuned)

variable [GraphicsDevice δ] {w : World δ} {k : RedrawKey} {x : Handle}

namespace Stack

/-- What comes before a frame's render leaves the stack alone. -/
theorem run_actAll_of_not_mem {s : Stack} {actions : List FrameAction}
    (none : FrameAction.render ∉ actions) :
    ((s.actAll actions).run w).1 = s ∧ Hushed w ((s.actAll actions).run w).2 := by
  induction actions generalizing w with
  | nil => exact ⟨rfl, Hushed.refl w⟩
  | cons action rest ih =>
    rw [List.mem_cons, not_or] at none
    have first : ((s.act action).run w).1 = s ∧ Hushed w ((s.act action).run w).2 := by
      cases action with
      | clear => exact ⟨rfl, Hushed.emit⟩
      | customClear =>
        have called : Hushed w (w.called .customClear) := Hushed.emit
        exact ⟨rfl, called⟩
      | listener index =>
        have called : Hushed w (w.called (.frameListener index)) := Hushed.emit
        exact ⟨rfl, called⟩
      | render => exact absurd rfl none.1
    obtain ⟨same, hushed⟩ := first
    have split : (s.actAll (action :: rest)).run w =
        (((s.act action).run w).1.actAll rest).run ((s.act action).run w).2 := rfl
    rw [split, same]
    exact ⟨(ih none.2).1, hushed.trans (ih none.2).2⟩

/-- A frame renders its stack once, after everything else. -/
theorem run_frameActions {s : Stack} {d : FrameDriver} :
    (s.actAll d.frameActions).run w = s.render.run ((s.actAll d.prelude).run w).2 := by
  have split : (s.actAll d.frameActions).run w =
      (((s.actAll d.prelude).run w).1.actAll [.render]).run ((s.actAll d.prelude).run w).2 := by
    unfold actAll
    rw [d.frameActions_eq, List.foldlM_append]
    rfl
  rw [split, (run_actAll_of_not_mem d.render_not_mem_prelude).1]
  rfl

/-- The redraw request that a step finds, and the world without it. -/
def polled (step : FrameStep) (s : Stack) (w : World δ) : Bool × World δ :=
  if step = .poll then s.takeRedrawRequest.run w else (false, w)

theorem run_drive {s : Stack} {step : FrameStep} {d : FrameDriver} :
    (s.drive step d).run w =
      let asked := s.polled step w
      let stepped := d.step asked.1 step
      let drawn := (s.actAll stepped.2.1).run asked.2
      (((stepped.1, stepped.2.2), drawn.1), drawn.2) := by
  unfold drive polled
  by_cases poll : step = .poll
  · simp only [poll, if_true]
    rfl
  · simp only [poll, if_false]
    rfl

/-- The frame that a step of the driver draws. -/
def drivenFrame? (step : FrameStep) (d : FrameDriver) (s : Stack) (w : World δ) :
    Option (FrameStart δ) :=
  let asked := s.polled step w
  if (d.step asked.1 step).2.1 = [] then none
  else some ⟨s, none, s.width, s.height, ((s.actAll d.prelude).run asked.2).2⟩

omit [GraphicsDevice δ] in
theorem pending_polled {s : Stack} {step : FrameStep} :
    (s.polled step w).2.Pending k x ↔ w.Pending k x ∧ ¬ (step = .poll ∧ s.redraw = k) := by
  unfold polled
  by_cases poll : step = .poll
  · rw [if_pos poll]
    have taken : (s.takeRedrawRequest.run w).2 = w.setRequests s.redraw {} := rfl
    rw [taken, World.pending_setRequests]
    by_cases mine : s.redraw = k <;> simp [poll, mine]
  · simp [poll]

/-- What a step of the driver does to the requests of a stack. -/
theorem pending_drive (s : Stack) (step : FrameStep) (d : FrameDriver) (attuned : w.Attuned) :
    let w' := ((s.drive step d).run w).2
    w'.Attuned ∧ (w'.Pending k x ↔ (∃ f ∈ s.drivenFrame? step d w, f.Raises k x) ∨
      w.Pending k x ∧ ¬ ((step = .poll ∧ s.redraw = k) ∨
        ∃ f ∈ s.drivenFrame? step d w, f.Settles k x)) := by
  have own : (s.polled step w).2.Attuned := by
    unfold polled
    split <;> exact attuned
  have taken : (s.polled step w).2.Pending k x ↔ w.Pending k x ∧ ¬ (step = .poll ∧ s.redraw = k) :=
    pending_polled
  rw [run_drive]
  unfold drivenFrame?
  dsimp only
  generalize s.polled step w = asked at own taken ⊢
  rcases d.actions_step asked.1 step with idle | draws
  · rw [idle, if_pos rfl]
    refine ⟨own, taken.trans ?_⟩
    simp
  · have some_action : d.frameActions ≠ [] := by
      rw [d.frameActions_eq]
      simp
    rw [draws, if_neg some_action, run_frameActions]
    obtain ⟨_, hushed⟩ := run_actAll_of_not_mem (w := asked.2) (s := s) d.render_not_mem_prelude
    obtain ⟨own', drawn⟩ := FrameStart.pending_renderTo (k := k) (x := x)
      ⟨s, none, s.width, s.height, ((s.actAll d.prelude).run asked.2).2⟩ (hushed.attuned own)
    refine ⟨own', drawn.trans ?_⟩
    rw [hushed.pending_iff, taken]
    simp only [Option.mem_def, Option.some.injEq, exists_eq_left', not_or, and_assoc]

/-- A poll takes the requests and draws one frame. -/
def PollDraws (s : Stack) (d : FrameDriver) (w : World δ) : Prop :=
  let frame := (s.actAll d.frameActions).run (w.setRequests s.redraw {})
  (s.drive .poll d).run w = (((.drawn true, { d with frames := d.frames + 1 }), frame.1), frame.2) ∧
    d.frameActions.count .render = 1

/-- A poll finds no request and draws nothing. -/
def PollRests (s : Stack) (d : FrameDriver) (w : World δ) : Prop :=
  (s.drive .poll d).run w = (((.drawn false, d), s), w.setRequests s.redraw {})

theorem pollDraws_of_pending {s : Stack} {d : FrameDriver} (onDemand : d.schedule = .onDemand)
    (pending : w.Pending s.redraw x) : s.PollDraws d w := by
  have asked : s.polled .poll w = (true, w.setRequests s.redraw {}) :=
    Prod.ext (takeRedrawRequest_iff.mpr ⟨x, pending⟩) rfl
  have stepped : d.step true .poll =
      (.drawn true, d.frameActions, { d with frames := d.frames + 1 }) := by
    simp [FrameDriver.step, FrameDriver.poll, FrameDriver.notify, FrameDriver.draw, onDemand]
  refine ⟨?_, ?_⟩
  · rw [run_drive, asked]
    dsimp only
    rw [stepped]
  · rw [d.frameActions_eq, List.count_append, List.count_eq_zero.mpr d.render_not_mem_prelude]
    rfl

theorem pollRests_of_not_pending {s : Stack} {d : FrameDriver}
    (none : ∀ x, ¬ w.Pending s.redraw x) : s.PollRests d w := by
  have asked : s.polled .poll w = (false, w.setRequests s.redraw {}) := by
    refine Prod.ext ?_ rfl
    refine Bool.eq_false_iff.mpr fun requested => ?_
    obtain ⟨x, pending⟩ := takeRedrawRequest_iff.mp requested
    exact none x pending
  unfold PollRests
  rw [run_drive, asked]
  rfl

end Stack

/-- A session with a frame driver. -/
structure Driven (δ : Type) where
  session : Session δ
  driver : FrameDriver

/-- A call of the host, or a step of the driver on one of the stacks. -/
inductive DrivenStep
  | call (step : SessionStep)
  | drive (stack : Nat) (step : FrameStep)

namespace Driven

variable {d : Driven δ}

def driveStack (i : Nat) (step : FrameStep) (d : Driven δ) : Driven δ :=
  match d.session.liveStacks[i]? with
  | none => d
  | some stack =>
    let (((_, driver), stack), world) := (stack.drive step d.driver).run d.session.world
    { driver, session := { d.session with world, liveStacks := d.session.liveStacks.set i stack } }

theorem driveStack_some {i : Nat} {step : FrameStep} {stack : Stack}
    (found : d.session.liveStacks[i]? = some stack) :
    d.driveStack i step =
      let driven := (stack.drive step d.driver).run d.session.world
      { driver := driven.1.1.2
        session := { d.session with
          world := driven.2
          liveStacks := d.session.liveStacks.set i driven.1.2 } } := by
  unfold driveStack
  rw [found]
  rfl

theorem driveStack_none {i : Nat} {step : FrameStep} (missing : d.session.liveStacks[i]? = none) :
    d.driveStack i step = d := by
  unfold driveStack
  rw [missing]

def perform : DrivenStep → Driven δ → Driven δ
  | .call step, d => { d with session := d.session.perform step }
  | .drive i step, d => d.driveStack i step

def run (steps : List DrivenStep) (d : Driven δ) : Driven δ :=
  steps.foldl (fun d step => d.perform step) d

theorem run_append (before after : List DrivenStep) (d : Driven δ) :
    run (before ++ after) d = run after (run before d) := List.foldl_append

theorem run_cons (step : DrivenStep) (rest : List DrivenStep) (d : Driven δ) :
    run (step :: rest) d = run rest (d.perform step) := rfl

theorem run_snoc (steps : List DrivenStep) (step : DrivenStep) (d : Driven δ) :
    run (steps ++ [step]) d = (run steps d).perform step := run_append steps [step] d

/-- A context on which nothing was done yet, with a driver that draws on demand. -/
def fresh (device : δ) (host : Host) (clear : ClearPolicy) (listeners : Nat) : Driven δ :=
  ⟨Session.fresh device host, .onDemand clear listeners⟩

/-- The frame that a step draws. -/
def frame? (d : Driven δ) : DrivenStep → Option (FrameStart δ)
  | .call step => d.session.frame? step
  | .drive i step => d.session.liveStacks[i]?.bind fun stack =>
    stack.drivenFrame? step d.driver d.session.world

/-- A step brings new content of a texture that a sampler of the stack is subscribed to, and is no
frame of the stack. -/
def Raises (k : RedrawKey) (x : Handle) (d : Driven δ) : DrivenStep → Prop
  | .call step => d.session.Raises k x step
  | step => ∃ f ∈ d.frame? step, f.Raises k x

/-- A step takes the requests of the stack. -/
def Takes (k : RedrawKey) (d : Driven δ) : DrivenStep → Prop
  | .call (.takeRedraw i) => ∃ stack ∈ d.session.liveStacks[i]?, stack.redraw = k
  | .drive i step => step = .poll ∧ ∃ stack ∈ d.session.liveStacks[i]?, stack.redraw = k
  | _ => False

/-- A step draws a frame of the stack. -/
def Draws (k : RedrawKey) (d : Driven δ) (step : DrivenStep) : Prop :=
  ∃ f ∈ d.frame? step, f.stack.redraw = k

/-- A step takes the requests of the stack, or draws a frame of it with the texture as a layer. -/
def Settles (k : RedrawKey) (x : Handle) (d : Driven δ) (step : DrivenStep) : Prop :=
  d.Takes k step ∨ ∃ f ∈ d.frame? step, f.Settles k x

theorem settles_call {step : SessionStep} :
    d.Settles k x (.call step) ↔ d.session.Settles k x step := by
  cases step <;> simp [Settles, Takes, frame?, Session.Settles, Session.frame?]

/-- What a step does to the requests of a stack. -/
theorem pending_perform (k : RedrawKey) (x : Handle) (d : Driven δ) (step : DrivenStep)
    (attuned : d.session.world.Attuned) :
    (d.perform step).session.world.Attuned ∧ ((d.perform step).session.world.Pending k x ↔
      d.Raises k x step ∨ d.session.world.Pending k x ∧ ¬ d.Settles k x step) := by
  cases step with
  | call step =>
    rw [settles_call]
    exact d.session.pending_perform k x step attuned
  | drive i step =>
    change (d.driveStack i step).session.world.Attuned ∧
      ((d.driveStack i step).session.world.Pending k x ↔ _)
    cases found : d.session.liveStacks[i]? with
    | none =>
      rw [driveStack_none found]
      exact ⟨attuned, by simp [Raises, Settles, Takes, frame?, found]⟩
    | some stack =>
      rw [driveStack_some found]
      obtain ⟨own, pending⟩ := stack.pending_drive (k := k) (x := x) step d.driver attuned
      refine ⟨own, pending.trans ?_⟩
      simp [Raises, Settles, Takes, frame?, found]

/-- No step raises a request for a frame of the stack itself. -/
theorem not_raises_poll {i : Nat} {stack : Stack} (found : d.session.liveStacks[i]? = some stack) :
    ¬ d.Raises stack.redraw x (.drive i .poll) := by
  rintro ⟨f, member, other, _⟩
  simp only [frame?, found, Option.bind_some, Stack.drivenFrame?] at member
  split at member
  · simp at member
  · obtain rfl := Option.some.inj member
    exact other rfl

theorem schedule_perform (step : DrivenStep) (d : Driven δ) :
    (d.perform step).driver.schedule = d.driver.schedule := by
  cases step with
  | call step => rfl
  | drive i step =>
    change (d.driveStack i step).driver.schedule = _
    cases found : d.session.liveStacks[i]? with
    | none => rw [driveStack_none found]
    | some stack =>
      rw [driveStack_some found, Stack.run_drive]
      exact FrameDriver.schedule_step _ _ _

theorem schedule_run (steps : List DrivenStep) (d : Driven δ) :
    (run steps d).driver.schedule = d.driver.schedule := by
  induction steps generalizing d with
  | nil => rfl
  | cons step rest ih => exact (ih _).trans (schedule_perform step d)

theorem attuned_run (steps : List DrivenStep) (d : Driven δ) (attuned : d.session.world.Attuned) :
    (run steps d).session.world.Attuned := by
  induction steps generalizing d with
  | nil => exact attuned
  | cons step rest ih => exact ih _ (d.pending_perform 0 0 step attuned).1

/-- What a run leaves pending. -/
theorem pending_run_iff (k : RedrawKey) (x : Handle) (steps : List DrivenStep) (d : Driven δ)
    (attuned : d.session.world.Attuned) :
    (run steps d).session.world.Pending k x ↔
      (∃ before step after, steps = before ++ step :: after ∧ (run before d).Raises k x step ∧
        Stands (fun d step => d.perform step) (Settles k x) ((run before d).perform step) after) ∨
      d.session.world.Pending k x ∧ Stands (fun d step => d.perform step) (Settles k x) d steps :=
  pending_foldl_iff (fun d => d.session.world.Attuned) (fun d => d.session.world.Pending k x)
    (fun d step here => (pending_perform k x d step here).1)
    (fun d step here => (pending_perform k x d step here).2) d attuned steps

/-- No step takes the requests of the stack or draws a frame of it. -/
abbrev Unvisited (k : RedrawKey) : Driven δ → List DrivenStep → Prop :=
  Stands (fun d step => d.perform step) fun d step => d.Takes k step ∨ d.Draws k step

/-- No step brings new content that a sampler of the stack is subscribed to, but for the frames of the
stack. -/
abbrev Unraised (k : RedrawKey) : Driven δ → List DrivenStep → Prop :=
  Stands (fun d step => d.perform step) fun d step => ∃ x, d.Raises k x step

/-- A poll on demand draws exactly one frame if new content that the stack samples came since the last
frame and the last poll; and a poll after a poll draws nothing unless such content came in between,
whatever frames of the stack were drawn. -/
theorem polls_follow_renders (device : δ) (host : Host) (clear : ClearPolicy) (listeners : Nat)
    (steps : List DrivenStep) (stack : Stack) :
    let start := fresh device host clear listeners
    let d := run steps start
    (∀ before step after x, steps = before ++ step :: after →
      (run before start).Raises stack.redraw x step →
      Unvisited stack.redraw ((run before start).perform step) after →
      stack.PollDraws d.driver d.session.world) ∧
    (∀ before i polled after, steps = before ++ .drive i .poll :: after →
      (run before start).session.liveStacks[i]? = some polled → polled.redraw = stack.redraw →
      Unraised stack.redraw ((run before start).perform (.drive i .poll)) after →
      stack.PollRests d.driver d.session.world) := by
  have attuned : (fresh device host clear listeners).session.world.Attuned := nofun
  refine ⟨?_, ?_⟩
  · intro before step after x split raised unvisited
    refine Stack.pollDraws_of_pending (x := x) (schedule_run steps _) ?_
    refine (pending_run_iff _ _ _ _ attuned).mpr (.inl ⟨before, step, after, split, raised, ?_⟩)
    refine unvisited.mono fun d step settles => ?_
    exact settles.imp_right fun ⟨f, member, mine, _⟩ => ⟨f, member, mine⟩
  · rintro before i polled after rfl found same unraised
    have own := attuned_run before _ attuned
    rw [run_append, run_cons]
    generalize run before (fresh device host clear listeners) = d at found unraised own ⊢
    refine Stack.pollRests_of_not_pending fun x pending => ?_
    obtain ⟨own', polledOnce⟩ := d.pending_perform stack.redraw x (.drive i .poll) own
    rcases (pending_run_iff _ _ _ _ own').mp pending with ⟨early, step, late, rfl, raised, _⟩ | ⟨old, _⟩
    · exact unraised.not_settles ⟨x, raised⟩
    · -- the poll has taken what there was, and its frame has settled what its layers asked for
      rcases polledOnce.mp old with raised | ⟨_, settled⟩
      · exact not_raises_poll found (same ▸ raised)
      · exact settled (.inl ⟨rfl, polled, found, same⟩)

/-- A stack with a layer that it samples. -/
def layering : List DrivenStep := (sampling ++ [SessionStep.addLayer 0 1]).map .call

abbrev layered (steps : List DrivenStep) : Driven RecordingDevice :=
  run (layering ++ steps) (fresh {} {} .default 1)

/-- The layer is drawn on its own, which the next poll finds. Another poll finds nothing, although the
layer was drawn again in two frames. -/
theorem layering_polls_settle :
    let d := layered [.call (.renderTexture 1)]
    let d' := layered [.call (.renderTexture 1), .drive 0 .poll, .call (.render 0)]
    (∃ stack ∈ d.session.liveStacks, stack.PollDraws d.driver d.session.world) ∧
      ∃ stack ∈ d'.session.liveStacks, stack.PollRests d'.driver d'.session.world := by
  have live : (layered [.call (.renderTexture 1)]).session.liveStacks[0]?.map Stack.redraw =
      some 0 := by decide +kernel
  have live' : (layered [.call (.renderTexture 1), .drive 0 .poll,
      .call (.render 0)]).session.liveStacks[0]?.map Stack.redraw = some 0 := by decide +kernel
  have next : (layered [.call (.renderTexture 1), .drive 0 .poll]).session.liveStacks[0]?.map
      Stack.redraw = some 0 := by decide +kernel
  have held : 1 ∈ (layered []).session.held := by decide +kernel
  have heard : ((layered [.call (.renderTexture 1)]).session.world.texture? 1).map
      (fun t => (t.texture, t.listeners.map Subscription.redraw)) = some (1, [0]) := by decide +kernel
  -- from here on nothing is run
  unfold layered at live live' next held heard ⊢
  generalize layering = opening at live live' next held heard ⊢
  obtain ⟨stack, found, key⟩ := Option.map_eq_some_iff.mp live
  obtain ⟨stack', found', key'⟩ := Option.map_eq_some_iff.mp live'
  have drawn := polls_follow_renders ({} : RecordingDevice) {} .default 1
    (opening ++ [.call (.renderTexture 1)]) stack
  have rests := polls_follow_renders ({} : RecordingDevice) {} .default 1
    (opening ++ [.call (.renderTexture 1), .drive 0 .poll, .call (.render 0)]) stack'
  refine ⟨⟨stack, List.mem_of_getElem? found, ?_⟩, stack', List.mem_of_getElem? found', ?_⟩
  · obtain ⟨t, present, shown⟩ := Option.map_eq_some_iff.mp heard
    obtain ⟨texture, redraws⟩ := Prod.mk.inj shown
    obtain ⟨s, listening, mine⟩ : ∃ s ∈ t.listeners, s.redraw = 0 :=
      List.mem_map.mp (redraws ▸ List.mem_cons_self)
    refine drawn.1 opening (.call (.renderTexture 1)) [] 1 rfl ?_ trivial
    refine ⟨by simpa using held, t, ?_, texture, s, listening, mine.trans key.symm⟩
    rwa [run_snoc] at present
  · refine rests.2 (opening ++ [.call (.renderTexture 1)]) 0 stack [.call (.render 0)] (by simp) found
      (key.trans key'.symm) ⟨?_, trivial⟩
    rintro ⟨x, f, member, other, _⟩
    obtain ⟨own, here, rfl⟩ := Option.map_eq_some_iff.mp member
    rw [← run_snoc, List.append_assoc] at here
    obtain ⟨own', here', mine⟩ := Option.map_eq_some_iff.mp next
    obtain rfl : own = own' := Option.some.inj (here.symm.trans here')
    exact other (mine.trans key'.symm)

end Driven
end ShaderStack

import ShaderStack.Proofs.CallSites
import ShaderStack.Proofs.Managers
import ShaderStack.Proofs.Relinking

/-! Caching does not show.

One host makes the same calls on two contexts, compiling without the cache on the one and with it on the
other. Whatever it compiles and draws in between, the programs do the same and the calls of each frame are
the same but for the names of the objects, as long as there are names. The run without the cache makes more
objects and runs out of them first. -/
namespace ShaderStack

open World (Echo)

section Positions

variable {same : α → β → Prop} {xs : List α} {ys : List β}

theorem getElem?_twin (twins : List.Forall₂ same xs ys) (i : Nat) : Option.Rel same xs[i]? ys[i]? := by
  induction twins generalizing i with
  | nil => exact .none
  | cons head _ ih =>
    cases i with
    | zero => exact .some head
    | succ i => exact ih i

theorem set_twin (twins : List.Forall₂ same xs ys) (i : Nat) {a : α} {b : β} (new : same a b) :
    List.Forall₂ same (xs.set i a) (ys.set i b) := by
  induction twins generalizing i with
  | nil => exact .nil
  | cons head tail ih =>
    cases i with
    | zero => exact .cons new tail
    | succ i => exact .cons head (ih i)

theorem eraseIdx_twin (twins : List.Forall₂ same xs ys) (i : Nat) :
    List.Forall₂ same (xs.eraseIdx i) (ys.eraseIdx i) := by
  induction twins generalizing i with
  | nil => exact .nil
  | cons head tail ih =>
    cases i with
    | zero => exact tail
    | succ i => exact .cons head (ih i)

end Positions

/-- The calls that compile nothing and let nothing go. Textures of the host's own surfaces are older than
the run, so that their names are not given out in it. -/
def SessionStep.Keeps (known : Handle) : SessionStep → Prop
  | .compile _ _ _ _ | .dropProgram _ | .dropStack _ | .release _ => False
  | .changeSurface _ texture => ∀ h ∈ texture, h < known
  | _ => True

namespace Session

variable {R R' : Correspondence} {sound : ProgramCache → Prop} {s s' : Session RecordingDevice}
  {v v' : World RecordingDevice}

structure Twin (R : Correspondence) (sound : ProgramCache → Prop) (s s' : Session RecordingDevice) :
    Prop where
  world : s.world.Twin R s'.world
  liveStacks : List.Forall₂ (Stack.Twin R sound) s.liveStacks s'.liveStacks
  aside : List.Forall₂ (Program.Twin R) s.aside s'.aside
  held : s'.held = s.held

/-- Two sessions that have come from `s` and `s'` in step. -/
def Mirrored (R : Correspondence) (sound : ProgramCache → Prop) (s s' t t' : Session RecordingDevice) :
    Prop :=
  ∃ R', Echo R s.world s'.world R' t.world t'.world ∧ t.Twin R' sound t'

/-- What stands in the sessions waits while their worlds move on. -/
theorem Twin.advance (twin : s.Twin R sound s') (run : Echo R s.world s'.world R' v v') :
    { s with world := v }.Twin R' sound { s' with world := v' } where
  world := run.twin
  liveStacks := twin.liveStacks.imp fun _ _ known => known.mono run.grow fun _ same => same
  aside := twin.aside.imp fun _ _ known => known.mono run.grow
  held := twin.held

theorem Twin.moved (twin : s.Twin R sound s') (run : Echo R s.world s'.world R' v v') :
    Mirrored R sound s s' { s with world := v } { s' with world := v' } :=
  ⟨R', run, twin.advance run⟩

theorem Twin.still (twin : s.Twin R sound s') : Mirrored R sound s s' s s' :=
  ⟨R, Echo.refl twin.world, twin⟩

variable (twin : s.Twin R sound s')
include twin

theorem Twin.mirrored_attempt {m m' : Attempt RecordingDevice α}
    {same : Correspondence → α → α → Prop} {accept : α → Session RecordingDevice → Session RecordingDevice}
    (mirrored : Attempt.Mirrored R s.world s'.world m m' same)
    (world : ∀ a t, (accept a t).world = t.world)
    (accepts : ∀ R' a a' v v', Echo R s.world s'.world R' v v' → same R' a a' →
      Mirrored R sound s s' (accept a { s with world := v }) (accept a' { s' with world := v' })) :
    Unspent (s.attempt m accept).world.events →
      Mirrored R sound s s' (s.attempt m accept) (s'.attempt m' accept) := by
  refine attempt_of_ends
    (fun t => Unspent t.world.events → Mirrored R sound s s' t (s'.attempt m' accept)) ?_
  refine mirrored.imp ?_ ?_
  · intro a v ends room
    rw [world] at room
    refine attempt_of_ends (fun t' => Mirrored R sound s s' _ t') ((ends room).imp ?_ ?_)
    · rintro a' v' ⟨R', run, known⟩
      exact accepts R' a a' v v' run known
    · exact fun _ _ impossible => impossible.elim
  · intro e v ends room
    refine attempt_of_ends (fun t' => Mirrored R sound s s' _ t') ((ends room).imp ?_ ?_)
    · exact fun _ _ impossible => impossible.elim
    · rintro e' v' ⟨_, R', run⟩
      exact twin.moved run

theorem Twin.mirrored_onStack {i : Nat} {action : Stack → Engine RecordingDevice Stack}
    (each : ∀ stack stack', s.liveStacks[i]? = some stack → stack.Twin R sound stack' → ∃ R',
      ((action stack).run s.world).1.Twin R' sound ((action stack').run s'.world).1 ∧
        Echo R s.world s'.world R' ((action stack).run s.world).2 ((action stack').run s'.world).2) :
    Mirrored R sound s s' (s.onStack i action) (s'.onStack i action) := by
  rcases rel_cases (getElem?_twin twin.liveStacks i) with
    ⟨here, there⟩ | ⟨stack, stack', here, there, known⟩
  · rw [onStack_none here, onStack_none there]
    exact twin.still
  · obtain ⟨R', same, run⟩ := each stack stack' here known
    rw [onStack_some here, onStack_some there]
    have after := twin.advance run
    exact ⟨R', run, { after with liveStacks := set_twin after.liveStacks i same }⟩

theorem Twin.mirrored_onHeld {key : Nat} {call : Session RecordingDevice → Session RecordingDevice}
    (next : Mirrored R sound s s' (call s) (call s')) :
    Mirrored R sound s s' (s.onHeld key call) (s'.onHeld key call) := by
  unfold onHeld
  rw [twin.held]
  split
  · exact next
  · exact twin.still

theorem Twin.mirrored_takeAside {j : Nat}
    {use : Program → Session RecordingDevice → Session RecordingDevice}
    (next : ∀ p p' t t', p.Twin R p' → t.Twin R sound t' → t.world = s.world → t'.world = s'.world →
      Mirrored R sound t t' (use p t) (use p' t')) :
    Mirrored R sound s s' (s.takeAside j use) (s'.takeAside j use) := by
  unfold takeAside
  rcases rel_cases (getElem?_twin twin.aside j) with ⟨here, there⟩ | ⟨p, p', here, there, same⟩
  · rw [here, there]
    exact twin.still
  · rw [here, there]
    exact next p p' { s with aside := s.aside.eraseIdx j } { s' with aside := s'.aside.eraseIdx j }
      same { twin with aside := eraseIdx_twin twin.aside j } rfl rfl

theorem Twin.mirrored_addToStack {p p' : Program} (same : p.Twin R p') (i : Nat) :
    Mirrored R sound s s' (s.addToStack i p) (s'.addToStack i p') := by
  unfold addToStack
  rcases rel_cases (getElem?_twin twin.liveStacks i) with
    ⟨here, there⟩ | ⟨stack, stack', here, there, known⟩
  · rw [here, there]
    exact ⟨R, Echo.refl twin.world,
      { twin with aside := List.rel_append twin.aside (.cons same .nil) }⟩
  · rw [here, there]
    refine ⟨R, Echo.refl twin.world, { twin with liveStacks := set_twin twin.liveStacks i ?_ }⟩
    exact { known with programs := List.rel_append known.programs (.cons same .nil) }

theorem Twin.mirrored_renderAside (j : Nat) :
    Mirrored R sound s s' (s.renderAside j) (s'.renderAside j) := by
  unfold renderAside
  rcases rel_cases (getElem?_twin twin.aside j) with ⟨here, there⟩ | ⟨p, p', here, there, same⟩
  · rw [here, there]
    exact twin.still
  · rw [here, there]
    obtain ⟨drawn, run⟩ := Program.mirrored_render twin.world same
    have after := twin.advance run
    exact ⟨R, run, { after with aside := set_twin after.aside j drawn }⟩

theorem Twin.mirrored_read {i : Nat} {c : ReadConfig}
    (room : Unspent (s.onStack i (readStack c)).world.events) :
    Mirrored R sound s s' (s.onStack i (readStack c)) (s'.onStack i (readStack c)) := by
  refine twin.mirrored_onStack fun stack stack' here same => ?_
  have read := Stack.mirrored_read twin.world same c
  rw [onStack_some here] at room
  unfold Attempt.Mirrored Attempt.Ends at read
  unfold readStack at room ⊢
  simp only [Engine.run_bind] at room ⊢
  generalize (stack.read c).run.run s.world = answer at read room
  generalize (stack'.read c).run.run s'.world = answer' at read
  obtain ⟨e | ⟨pixels, after⟩, v⟩ := answer <;> obtain ⟨e' | ⟨pixels', after'⟩, v'⟩ := answer'
  · obtain ⟨_, R', run⟩ := read room
    exact ⟨R', same.mono run.grow fun _ known => known, run⟩
  · exact (read room).elim
  · exact (read room).elim
  · obtain ⟨R', run, known⟩ := read room
    exact ⟨R', known, run⟩

/-- A call that compiles nothing does the same in both sessions. -/
theorem Twin.mirrored_perform {step : SessionStep} {known : Handle} (keeps : step.Keeps known)
    (old : ∀ h < known, R .texture h h) (new : sound {}) (room : Unspent (s.perform step).world.events) :
    Mirrored R sound s s' (s.perform step) (s'.perform step) := by
  cases step with
  | compile _ _ _ _ | dropProgram _ | dropStack _ | release _ => exact keeps.elim
  | changeHost change =>
    refine twin.moved (twin.world.silent { twin.world.toAlike with host := ?_ } rfl rfl rfl rfl)
    exact congrArg change twin.world.host
  | changeSurface name texture =>
    refine twin.moved (twin.world.silent (twin.world.toAlike.setSurface name ⟨?_, ?_⟩) rfl rfl rfl rfl)
    · cases texture with
      | none => exact .none
      | some h => exact .some (old h (keeps h rfl))
    · exact (twin.world.surface name).listeners
  | fireSurface name => exact twin.moved (twin.world.notify (twin.world.surface name).listeners)
  | makeStack supported width height options =>
    refine twin.mirrored_attempt (Stack.mirrored_make twin.world new supported width height options)
      (fun _ _ => rfl) ?_ room
    intro R' stack stack' v v' run same
    have after := twin.advance run
    exact ⟨R', run, { after with liveStacks := List.rel_append after.liveStacks (.cons same .nil) }⟩
  | addToStack i j =>
    exact twin.mirrored_takeAside fun p p' t t' same twin _ _ => twin.mirrored_addToStack same i
  | addToTexture key j =>
    refine twin.mirrored_onHeld (twin.mirrored_takeAside fun p p' t t' same twin _ _ => ?_)
    refine twin.moved (twin.world.altered key fun _ _ known => ?_)
    exact { known with programs := List.rel_append known.programs (.cons same .nil) }
  | renderProgram j => exact twin.mirrored_renderAside j
  | render i =>
    refine twin.mirrored_onStack fun stack stack' _ same => ⟨R, ?_⟩
    unfold Stack.render
    rw [same.width, same.height]
    exact Stack.mirrored_renderTo twin.world same .none stack.width stack.height
  | clear => exact twin.moved (twin.world.perform (.plain fun _ => rfl))
  | resize i width height =>
    exact twin.mirrored_onStack fun stack stack' _ same =>
      ⟨R, Stack.mirrored_resize twin.world same width height⟩
  | onResize i listener =>
    refine twin.mirrored_onStack fun stack stack' _ same => ⟨R, ?_, Echo.refl twin.world⟩
    exact { same with resizeListeners := congrArg (· ++ [listener]) same.resizeListeners }
  | takeRedraw i =>
    refine twin.mirrored_onStack fun stack stack' _ same => ⟨R, same, ?_⟩
    have taken : Echo R s.world s'.world R (s.world.setRequests stack.redraw {})
        (s'.world.setRequests stack'.redraw {}) := by
      rw [same.redraw]
      exact twin.world.setRequests stack.redraw .nil
    exact taken
  | read i config => exact twin.mirrored_read room
  | makeTexture width height =>
    refine twin.mirrored_attempt (RenderTexture.mirrored_make twin.world width height)
      (fun _ _ => rfl) ?_ room
    rintro R' _ key v v' run rfl
    have after := twin.advance run
    exact ⟨R', run, { after with held := congrArg (key :: ·) after.held }⟩
  | retain key =>
    let retained (t : RenderTexture) : RenderTexture := { t with holders := t.holders + 1 }
    have altered : Echo R s.world s'.world R (s.world.altered key retained)
        (s'.world.altered key retained) :=
      twin.world.altered key fun _ _ known =>
        { known with holders := congrArg (· + 1) known.holders }
    have after := twin.advance altered
    exact twin.mirrored_onHeld
      ⟨R, altered, { after with held := congrArg (key :: ·) after.held }⟩
  | addLayer i key =>
    refine twin.mirrored_onHeld (twin.mirrored_onStack fun stack stack' _ same => ⟨R, ?_, ?_⟩)
    · exact { same with layers := congrArg (· ++ [key]) same.layers }
    · exact twin.world.altered key fun _ _ known => { known with holders := by rw [known.holders] }
  | renderTexture key =>
    exact twin.mirrored_onHeld (twin.moved (RenderTexture.mirrored_render twin.world key))

end Session

/-- The caches of the second session are sound for the texts of the templates. -/
abbrev Session.Paired (R : Correspondence) (text : Identity → String)
    (s s' : Session RecordingDevice) : Prop :=
  s.Twin R (ProgramCache.Sound R text s'.world.device.programs) s'

namespace Session

variable {R : Correspondence} {text : Identity → String} {s s' : Session RecordingDevice}

theorem aside_twin {result result' : Except RenderError Program}
    (same : ProgramCache.Same R result result') :
    List.Forall₂ (Program.Twin R) result.toOption.toList result'.toOption.toList := by
  cases same with
  | error => exact .nil
  | ok same => exact .cons same .nil

/-- Compiling a pair of templates keeps the sessions in step. -/
theorem Paired.compileOn (paired : Paired R text s s') (i : Nat) {vertex fragment : CompiledShader}
    (vertexText : vertex.source = text vertex.template)
    (fragmentText : fragment.source = text fragment.template) (config : ProgramConfig)
    (room : Unspent (s.compileOn i vertex fragment { config with cached := false }).world.events) :
    ∃ R', R ≤ R' ∧
      Paired R' text (s.compileOn i vertex fragment { config with cached := false })
        (s'.compileOn i vertex fragment { config with cached := true }) ∧
      Option.Rel (ProgramCache.Same R') (s.outcome i vertex fragment { config with cached := false })
        (s'.outcome i vertex fragment { config with cached := true }) := by
  unfold Session.compileOn outcome Paired
  rcases rel_cases (getElem?_twin paired.liveStacks i) with
    ⟨here, there⟩ | ⟨stack, stack', here, there, known⟩
  · rw [here, there]
    exact ⟨R, le_rfl, paired, .none⟩
  · unfold Session.compileOn at room
    rw [here] at room
    rw [here, there]
    obtain ⟨R', again, compiled⟩ :=
      Stack.mirrored_compile paired.world known vertexText fragmentText config room
    refine ⟨R', again.grow, ⟨again.world, ?_, ?_, paired.held⟩, .some again.result⟩
    · refine set_twin (paired.liveStacks.imp fun _ _ other => ?_) i compiled
      exact other.mono again.grow again.others
    · refine List.rel_append (paired.aside.imp fun _ _ other => other.mono again.grow) ?_
      exact aside_twin again.result

end Session

/-- A call of a host that compiles templates, or any other. -/
inductive Call
  | compile (stack : Nat) (vertex fragment : Template) (config : ProgramConfig)
  | other (step : SessionStep)

namespace Call

/-- The call where every compilation uses the cache, or none does. -/
def step (cached : Bool) : Call → SessionStep
  | compile i vertex fragment config =>
    .compile i vertex.compile fragment.compile { config with cached }
  | other step => step

def templates : Call → List Template
  | compile _ vertex fragment _ => [vertex, fragment]
  | other _ => []

def Keeps (known : Handle) : Call → Prop
  | compile _ _ _ _ => True
  | other step => step.Keeps known

/-- What a call does in two sessions, as far as it is compared. -/
def Answered (R : Correspondence) (s s' : Session RecordingDevice) : Call → Prop
  | compile i vertex fragment config =>
    Option.Rel (ProgramCache.Same R)
      (s.outcome i vertex.compile fragment.compile { config with cached := false })
      (s'.outcome i vertex.compile fragment.compile { config with cached := true })
  | other step =>
    ∃ es es', (s.perform step).world.events = s.world.events ++ es ∧
      (s'.perform step).world.events = s'.world.events ++ es' ∧ List.Forall₂ (Event.Twin R) es es'

end Call

theorem ProgramCache.Same.mono {R R' : Correspondence} {result result' : Except RenderError Program}
    (grow : R ≤ R') (same : Same R result result') : Same R' result result' := by
  cases same with
  | error => exact .error
  | ok same => exact .ok (same.mono grow)

theorem Call.Answered.mono {R R' : Correspondence} {s s' : Session RecordingDevice} {call : Call}
    (grow : R ≤ R') (answered : call.Answered R s s') : call.Answered R' s s' := by
  cases call with
  | compile i vertex fragment config => exact rel_imp (fun _ _ same => same.mono grow) answered
  | other step =>
    obtain ⟨es, es', events, events', same⟩ := answered
    exact ⟨es, es', events, events', same.imp fun _ _ event => event.mono grow⟩

namespace Session

variable {R : Correspondence} {text : Identity → String} {s s' : Session RecordingDevice}

/-- One call keeps the sessions in step. -/
theorem Paired.perform (paired : Paired R text s s') {call : Call} {known : Handle}
    (texts : ∀ t ∈ call.templates, t.compile.source = text t.id) (keeps : call.Keeps known)
    (old : ∀ h < known, R .texture h h) (room : Unspent (s.perform (call.step false)).world.events) :
    ∃ R', R ≤ R' ∧ Paired R' text (s.perform (call.step false)) (s'.perform (call.step true)) ∧
      call.Answered R' s s' := by
  cases call with
  | compile i vertex fragment config =>
    exact paired.compileOn i (texts vertex (by simp [Call.templates]))
      (texts fragment (by simp [Call.templates])) config room
  | other step =>
    have new : ProgramCache.Sound R text s'.world.device.programs {} := fun _ _ _ found => nomatch found
    obtain ⟨R', run, twin⟩ := Twin.mirrored_perform paired keeps old new room
    refine ⟨R', run.grow, { twin with liveStacks := ?_ }, run.events⟩
    refine twin.liveStacks.imp fun _ _ known => known.mono le_rfl fun _ same => ?_
    change ProgramCache.Sound R' text (s'.perform step).world.device.programs _
    rw [run.programs']
    exact same.mono run.grow

/-- A run keeps the sessions in step, and each of its calls is answered alike. -/
theorem Paired.run {calls : List Call} {known : Handle} (paired : Paired R text s s')
    (texts : ∀ t ∈ calls.flatMap Call.templates, t.compile.source = text t.id)
    (keeps : ∀ call ∈ calls, call.Keeps known) (old : ∀ h < known, R .texture h h)
    (room : Unspent (run (calls.map (Call.step false)) s).world.events) :
    ∃ R', R ≤ R' ∧
      Paired R' text (run (calls.map (Call.step false)) s) (run (calls.map (Call.step true)) s') ∧
      ∀ before call after, calls = before ++ call :: after →
        call.Answered R' (Session.run (before.map (Call.step false)) s)
          (Session.run (before.map (Call.step true)) s') := by
  induction calls generalizing R s s' with
  | nil => exact ⟨R, le_rfl, paired, by simp⟩
  | cons call calls ih =>
    rw [List.flatMap_cons] at texts
    obtain ⟨R₁, grow, next, answered⟩ := paired.perform
      (fun t member => texts t (List.mem_append_left _ member)) (keeps call List.mem_cons_self) old
      ((grows_run _).unspent room)
    obtain ⟨R₂, grow', last, later⟩ := ih next
      (fun t member => texts t (List.mem_append_right _ member))
      (fun call member => keeps call (List.mem_cons_of_mem _ member))
      (fun h bound => grow _ _ _ (old h bound)) room
    refine ⟨R₂, grow.trans grow', last, fun before call' after split => ?_⟩
    cases before with
    | nil =>
      obtain ⟨rfl, _⟩ := List.cons.inj split
      exact answered.mono grow'
    | cons first before =>
      obtain ⟨rfl, rest⟩ := List.cons.inj split
      exact later before call' after rest

/-- Both contexts are new. -/
theorem paired_fresh (device : RecordingDevice) (host : Host) (text : Identity → String) :
    Paired (fun _ h h' => h' = h ∧ h < device.nextHandle) text (fresh device host)
      (fresh device host) := by
  refine ⟨⟨⟨rfl, rfl, .nil, .nil, .nil⟩, ⟨?_, ?_⟩, ?_, le_rfl, rfl⟩, .nil, .nil, rfl⟩
  · rintro k h a b ⟨rfl, _⟩ ⟨rfl, _⟩
    rfl
  · rintro k a b h _ ⟨rfl, _⟩ ⟨same, _⟩
    exact same
  · rintro k h _ ⟨rfl, bound⟩
    exact ⟨bound, bound⟩

end Session

/-- The templates of one identity have one text. -/
theorem exists_text {templates : List Template}
    (again : ∀ t ∈ templates, ∀ u ∈ templates, u.id = t.id → t.SameSite u) :
    ∃ text : Identity → String, ∀ t ∈ templates, t.compile.source = text t.id := by
  refine ⟨fun id => ((templates.find? fun t => t.id = id).map fun t => t.compile.source).getD "", ?_⟩
  intro t member
  cases found : templates.find? fun u => u.id = t.id with
  | none => simpa using List.find?_eq_none.mp found t member
  | some u =>
    have same : u.id = t.id := by simpa using List.find?_some found
    have site := again u (List.mem_of_find?_eq_some found) t member same.symm
    simpa [found] using site.source_eq

/-- A correspondence as a function. Only programs may be taken to one. -/
theorem Correspondence.IsRenaming.exists_function {R : Correspondence} (proper : R.IsRenaming)
    {bound : Handle} (below : ∀ k h h', R k h h' → h' < bound) :
    ∃ ρ : ObjectKind → Handle → Handle, (∀ k, k ≠ .program → Function.Injective (ρ k)) ∧
      ∀ k h h', R k h h' → ρ k h = h' := by
  classical
  -- names that correspond to none go beyond all that correspond to one
  let ρ (k : ObjectKind) (h : Handle) : Handle :=
    if known : ∃ h', R k h h' then known.choose else h + bound
  have follows : ∀ k h h', R k h h' → ρ k h = h' := by
    intro k h h' partner
    have known : ∃ h', R k h h' := ⟨h', partner⟩
    simp only [ρ, dif_pos known]
    exact proper.unique known.choose_spec partner
  have beyond : ∀ k h, (¬ ∃ h', R k h h') → ρ k h = h + bound := fun k h unknown => dif_neg unknown
  refine ⟨ρ, fun k other a b same => ?_, follows⟩
  by_cases here : ∃ h', R k a h' <;> by_cases there : ∃ h', R k b h'
  · obtain ⟨a', partner⟩ := here
    obtain ⟨b', partner'⟩ := there
    rw [follows k a a' partner, follows k b b' partner'] at same
    exact proper.apart other partner (same ▸ partner')
  · obtain ⟨a', partner⟩ := here
    have less := below k a a' partner
    rw [follows k a a' partner, beyond k b there] at same
    rw [same] at less
    exact absurd less (Nat.not_lt.mpr (Nat.le_add_left bound b))
  · obtain ⟨b', partner⟩ := there
    have less := below k b b' partner
    rw [follows k b b' partner, beyond k a here] at same
    rw [← same] at less
    exact absurd less (Nat.not_lt.mpr (Nat.le_add_left bound a))
  · rw [beyond k a here, beyond k b there] at same
    exact Nat.add_right_cancel same

/-- Two programs that bind the same slots and draw the same, up to the names of their objects. -/
structure Program.Agrees (ρ : ObjectKind → Handle → Handle) (p p' : Program) : Prop where
  handle : p'.handle = ρ .program p.handle
  slots : p'.bindings.queue.slots = p.bindings.queue.slots
  missing : p'.bindings.missing = p.bindings.missing
  mode : p'.mode = p.mode
  draw : p'.draw = p.draw

/-- Two compilations that both succeed or both fail alike. -/
inductive Program.Alike (ρ : ObjectKind → Handle → Handle) :
    Except RenderError Program → Except RenderError Program → Prop
  | failed {e : RenderError} : Alike ρ (.error e) (.error e)
  | built {p p' : Program} (agrees : p.Agrees ρ p') : Alike ρ (.ok p) (.ok p')

/-- What the cache of a call leaves as it is: the outcome of a compilation, and of any other call all that
it asks of the device. -/
def Call.Transparent (ρ : ObjectKind → Handle → Handle) (s s' : Session RecordingDevice) : Call → Prop
  | compile i vertex fragment config =>
    Option.Rel (Program.Alike ρ)
      (s.outcome i vertex.compile fragment.compile { config with cached := false })
      (s'.outcome i vertex.compile fragment.compile { config with cached := true })
  | other step =>
    ∃ es, (s.perform step).world.events = s.world.events ++ es ∧
      (s'.perform step).world.events = s'.world.events ++ es.map (Event.rename ρ)

theorem Call.Answered.transparent {R : Correspondence} {s s' : Session RecordingDevice} {call : Call}
    (answered : call.Answered R s s') {ρ : ObjectKind → Handle → Handle}
    (follows : ∀ k h h', R k h h' → ρ k h = h') : call.Transparent ρ s s' := by
  cases call with
  | compile i vertex fragment config =>
    refine rel_imp (fun result result' same => ?_) answered
    cases same with
    | error => exact .failed
    | ok same =>
      exact .built ⟨(follows _ _ _ same.bindings.program).symm, same.bindings.slots_eq,
        same.bindings.missing, same.mode, same.draw⟩
  | other step =>
    obtain ⟨es, es', events, events', same⟩ := answered
    refine ⟨es, events, ?_⟩
    have renamed : es' = es.map (Event.rename ρ) := by
      clear events events'
      induction same with
      | nil => rfl
      | cons head _ ih => rw [List.map_cons, ← head.eq_rename follows, ← ih]
    rw [events', renamed]

/-- A run in which every compilation uses the cache and a run in which none does are the same up to the
names of the objects, if templates of one identity are evaluations of one place and the names do not run
out. -/
theorem Session.caching_transparent (device : RecordingDevice) (host : Host) (calls : List Call)
    (again : ∀ t ∈ calls.flatMap Call.templates, ∀ u ∈ calls.flatMap Call.templates,
      u.id = t.id → t.SameSite u)
    (keeps : ∀ call ∈ calls, call.Keeps device.nextHandle)
    (room : Unspent (run (calls.map (Call.step false)) (fresh device host)).world.events) :
    ∃ ρ : ObjectKind → Handle → Handle, (∀ k, k ≠ .program → Function.Injective (ρ k)) ∧
      ∀ before call after, calls = before ++ call :: after →
        call.Transparent ρ (run (before.map (Call.step false)) (fresh device host))
          (run (before.map (Call.step true)) (fresh device host)) := by
  obtain ⟨text, texts⟩ := exists_text again
  obtain ⟨R, _, last, answered⟩ := (paired_fresh device host text).run texts keeps
    (fun h bound => ⟨rfl, bound⟩) room
  obtain ⟨ρ, injective, follows⟩ := last.world.proper.exists_function
    fun k h h' partner => (last.world.known k h h' partner).2
  exact ⟨ρ, injective, fun before call after split =>
    (answered before call after split).transparent follows⟩

/-- A place of one uniform, evaluated with a token of its own. -/
def tinted (token : Identity) : Template :=
  let value : Accessor UniformValue := Accessor.value "tint"
  ⟨2, .token "void main float tint = " ⟨token, .uniform ⟨.vector .real .one, value, none⟩⟩
    (.text ";")⟩

theorem tinted_sameSite (a b : Identity) : (tinted a).SameSite (tinted b) := by
  refine ⟨fun _ => b, ?_, .token ⟨rfl, rfl, rfl, rfl, rfl⟩ .text⟩
  rintro _ ⟨t, here, rfl⟩ _ ⟨u, there, rfl⟩ _
  rw [List.mem_singleton.mp here, List.mem_singleton.mp there]

/-- Two evaluations of one place are drawn in one frame. -/
def revisit : List Call :=
  let vertex : Template := ⟨1, .text "void main"⟩
  let config : ProgramConfig := { draw := .arrays 0 3 }
  [.other (.makeStack true 8 8 {}), .compile 0 vertex (tinted 10) config,
    .compile 0 vertex (tinted 11) config, .other (.addToStack 0 0), .other (.addToStack 0 0),
    .other (.render 0)]

def revisited (cached : Bool) (calls : List Call) : Session RecordingDevice :=
  Session.run (calls.map (Call.step cached)) (Session.fresh {} {})

/-- The cache saves a program, and nothing else shows. -/
theorem revisit_transparent :
    (revisited false revisit).liveStacks.map (fun stack => stack.cache.links) = [2] ∧
      (revisited true revisit).liveStacks.map (fun stack => stack.cache.links) = [1] ∧
      ∃ ρ : ObjectKind → Handle → Handle, (∀ k, k ≠ .program → Function.Injective (ρ k)) ∧
        ∀ before call after, revisit = before ++ call :: after →
          call.Transparent ρ (revisited false before) (revisited true before) := by
  have room : Unspent (revisited false revisit).world.events := by decide +kernel
  refine ⟨by decide +kernel, by decide +kernel, Session.caching_transparent {} {} revisit ?_ ?_ room⟩
  · intro t here u there same
    simp only [revisit, Call.templates, List.flatMap_cons, List.flatMap_nil, List.nil_append,
      List.append_nil, List.cons_append, List.mem_cons, List.not_mem_nil, or_false] at here there
    rcases here with rfl | rfl | rfl | rfl <;> rcases there with rfl | rfl | rfl | rfl
    all_goals first
      | exact tinted_sameSite _ _
      | exact .refl _
      | exact absurd same (by decide)
  · simp [revisit, Call.Keeps, SessionStep.Keeps]

end ShaderStack

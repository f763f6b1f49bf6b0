import ShaderStack.Proofs.Polling

/-! Which frames a driver draws over a whole run, and when.

A run is told by its records, one for each call. Every record draws a whole frame or nothing, and
only a start of a stopped driver forgets the time of the last frame. Frames under a cap therefore
keep their distance until a start follows a stop. -/
namespace ShaderStack

/-- A call of a driver, with the redraw request that its frame reports if the call polls. -/
structure FrameCall where
  step : FrameStep
  requested : Bool := false
  deriving DecidableEq, Repr

/-- What one call did. -/
structure FrameRecord where
  before : FrameDriver
  call : FrameCall
  answer : FrameAnswer
  actions : List FrameAction
  after : FrameDriver
  deriving DecidableEq, Repr

namespace FrameRecord

def draws (r : FrameRecord) : Bool := !r.actions.isEmpty

/-- What a call can do to its driver. -/
inductive Outcome (r : FrameRecord) : Prop
  | refreshed (now : Nat) (step : r.call.step = .refresh now) (running : r.before.running = true)
      (due : r.before.isTooSoon now = false) (actions : r.actions = r.before.frameActions)
      (after : r.after = { r.before with lastFrame := some now, frames := r.before.frames + 1 })
  | demanded (step : r.call.step = .notify ∨ r.call.step = .poll)
      (onDemand : r.before.schedule = .onDemand) (actions : r.actions = r.before.frameActions)
      (after : r.after = { r.before with frames := r.before.frames + 1 })
  | resumed (step : r.call.step = .start) (continuous : r.before.schedule.isContinuous = true)
      (rested : r.before.running = false) (actions : r.actions = [])
      (after : r.after = { r.before with running := true, lastFrame := none })
  | stopped (step : r.call.step = .stop) (actions : r.actions = [])
      (after : r.after = { r.before with running := false })
  | passed (step : r.call.step ≠ .stop) (actions : r.actions = []) (after : r.after = r.before)

/-- Two records of refreshes whose times are at least `distance` apart. -/
def Apart (distance : Nat) (a b : FrameRecord) : Prop :=
  ∃ t u, a.call.step = .refresh t ∧ b.call.step = .refresh u ∧ t + distance ≤ u

theorem Apart.trans {m n : Nat} {a b c : FrameRecord} (first : a.Apart m b) (second : b.Apart n c) :
    a.Apart (m + n) c := by
  obtain ⟨t, u, at_a, at_b, le⟩ := first
  obtain ⟨u', v, at_b', at_c, le'⟩ := second
  have same : u = u' := by simpa [at_b] using at_b'
  exact ⟨t, v, at_a, at_c, by omega⟩

/-- Neighbours that keep a distance add it up. -/
theorem Apart.of_isChain {interval : Nat} {records : List FrameRecord}
    (refreshes : ∀ r ∈ records, ∃ now, r.call.step = .refresh now)
    (chain : records.IsChain (Apart interval)) (i n : Nat) (bound : i + n < records.length) :
    records[i].Apart (n * interval) records[i + n] := by
  induction n with
  | zero =>
    obtain ⟨now, at_now⟩ := refreshes records[i] (List.getElem_mem bound)
    exact ⟨now, now, at_now, at_now, by omega⟩
  | succ n ih =>
    have next := List.isChain_iff_getElem.mp chain (i + n) (by omega)
    have sum := (ih (by omega)).trans next
    rwa [← Nat.succ_mul] at sum

end FrameRecord

namespace FrameDriver

def record (d : FrameDriver) (call : FrameCall) : FrameRecord :=
  let (answer, actions, after) := d.step call.requested call.step
  { before := d, call, answer, actions, after }

/-- The records of a run. -/
def history (d : FrameDriver) : List FrameCall → List FrameRecord
  | [] => []
  | call :: rest => d.record call :: (d.record call).after.history rest

/-- The driver after a run. -/
def run (d : FrameDriver) : List FrameCall → FrameDriver
  | [] => d
  | call :: rest => (d.record call).after.run rest

/-- All actions of a run, in order. -/
def log (d : FrameDriver) (calls : List FrameCall) : List FrameAction :=
  (d.history calls).flatMap FrameRecord.actions

variable {d : FrameDriver} {call : FrameCall} {calls : List FrameCall}

section Steps

@[simp] theorem record_before : (d.record call).before = d := rfl

@[simp] theorem record_call : (d.record call).call = call := rfl

theorem outcome_record (d : FrameDriver) (call : FrameCall) : (d.record call).Outcome := by
  obtain ⟨step, requested⟩ := call
  cases step with
  | refresh now =>
    by_cases running : d.running
    · by_cases early : d.isTooSoon now
      · apply FrameRecord.Outcome.passed <;> simp [record, step, refresh, running, early]
      · apply FrameRecord.Outcome.refreshed now <;>
          simp [record, step, refresh, draw, frameActions, running, early]
    · apply FrameRecord.Outcome.passed <;> simp [record, step, refresh, running]
  | notify =>
    cases schedule : d.schedule with
    | onDemand => apply FrameRecord.Outcome.demanded <;> simp [record, step, notify, draw, schedule]
    | continuous fps => apply FrameRecord.Outcome.passed <;> simp [record, step, notify, schedule]
  | poll =>
    cases schedule : d.schedule with
    | onDemand =>
      cases requested
      · apply FrameRecord.Outcome.passed <;> simp [record, step, poll]
      · apply FrameRecord.Outcome.demanded <;> simp [record, step, poll, notify, draw, schedule]
    | continuous fps =>
      apply FrameRecord.Outcome.passed <;> simp [record, step, poll, notify, schedule]
  | start =>
    by_cases resumes : d.schedule.isContinuous ∧ d.running = false
    · apply FrameRecord.Outcome.resumed <;> simp [record, step, start, resumes]
    · apply FrameRecord.Outcome.passed <;> simp_all [record, step, start]
  | stop => apply FrameRecord.Outcome.stopped <;> simp [record, step, stop]

theorem answer_refresh (d : FrameDriver) {now : Nat} (step : call.step = .refresh now) :
    (d.record call).answer = .rescheduled .stopped ↔ d.running = false := by
  simp only [record, step, FrameDriver.step, refresh]
  by_cases running : d.running
  · by_cases early : d.isTooSoon now <;> simp [running, early]
  · simp [running]

theorem actions_eq_nil_of_rests {now : Nat} (step : call.step = .refresh now)
    (rests : d.running = false) : (d.record call).actions = [] := by
  simp [record, step, FrameDriver.step, refresh, rests]

end Steps

section Records

theorem actions_record (d : FrameDriver) (call : FrameCall) :
    (d.record call).actions = [] ∨ (d.record call).actions = d.frameActions := by
  cases d.outcome_record call with
  | refreshed _ _ _ _ actions _ => exact .inr actions
  | demanded _ _ actions _ => exact .inr actions
  | resumed _ _ _ actions _ => exact .inl actions
  | stopped _ actions _ => exact .inl actions
  | passed _ actions _ => exact .inl actions

theorem frameActions_ne_nil : d.frameActions ≠ [] := by
  simp [frameActions]

theorem count_render_frameActions : d.frameActions.count .render = 1 := by
  rw [frameActions_eq, List.count_append, List.count_eq_zero.mpr d.render_not_mem_prelude]
  rfl

/-- Calls change neither the schedule nor what a frame consists of. -/
structure SameSetup (d e : FrameDriver) : Prop where
  schedule : e.schedule = d.schedule
  interval : e.interval = d.interval
  frameActions : e.frameActions = d.frameActions

theorem sameSetup_record : d.SameSetup (d.record call).after := by
  cases d.outcome_record call with
  | refreshed _ _ _ _ _ after => rw [after]; exact ⟨rfl, rfl, rfl⟩
  | demanded _ _ _ after => rw [after]; exact ⟨rfl, rfl, rfl⟩
  | resumed _ _ _ _ after => rw [after]; exact ⟨rfl, rfl, rfl⟩
  | stopped _ _ after => rw [after]; exact ⟨rfl, rfl, rfl⟩
  | passed _ _ after => rw [after]; exact ⟨rfl, rfl, rfl⟩

/-- A call counts the frame that it draws. -/
theorem frames_record :
    (d.record call).after.frames = d.frames + (d.record call).actions.count .render := by
  cases d.outcome_record call with
  | refreshed _ _ _ _ actions after => rw [after, actions, record_before, count_render_frameActions]
  | demanded _ _ actions after => rw [after, actions, record_before, count_render_frameActions]
  | resumed _ _ _ actions after => rw [after, actions]; rfl
  | stopped _ actions after => rw [after, actions]; rfl
  | passed _ actions after => rw [after, actions]; rfl

theorem running_record_of_onDemand (onDemand : d.schedule = .onDemand) (rests : d.running = false) :
    (d.record call).after.running = false := by
  cases d.outcome_record call with
  | refreshed _ _ running => simp [rests] at running
  | demanded _ _ _ after => simpa [after] using rests
  | resumed _ continuous => simp [onDemand, Schedule.isContinuous] at continuous
  | stopped _ _ after => simp [after]
  | passed _ _ after => simpa [after] using rests

/-- Only a refresh of a running driver draws where frames are continuous. -/
theorem refreshed_of_draws (continuous : d.schedule.isContinuous) (draws : (d.record call).draws) :
    ∃ now, call.step = .refresh now ∧ d.running = true ∧ d.isTooSoon now = false ∧
      (d.record call).after = { d with lastFrame := some now, frames := d.frames + 1 } := by
  cases d.outcome_record call with
  | refreshed now step running due _ after => exact ⟨now, step, running, due, after⟩
  | demanded _ onDemand =>
    rw [record_before] at onDemand
    simp [onDemand, Schedule.isContinuous] at continuous
  | resumed _ _ _ actions => simp [FrameRecord.draws, actions] at draws
  | stopped _ actions => simp [FrameRecord.draws, actions] at draws
  | passed _ actions => simp [FrameRecord.draws, actions] at draws

end Records

section Runs

theorem history_append {early late : List FrameCall} :
    d.history (early ++ late) = d.history early ++ (d.run early).history late := by
  induction early generalizing d with
  | nil => rfl
  | cons call rest ih => simp [history, run, ih]

theorem map_call_history : (d.history calls).map FrameRecord.call = calls := by
  induction calls generalizing d with
  | nil => rfl
  | cons call rest ih => simp [history, ih]

/-- The parts of a history are the histories of their own calls, the later one from the driver that
the earlier one leaves. -/
theorem history_split {early late : List FrameRecord} (split : d.history calls = early ++ late) :
    early = d.history (early.map FrameRecord.call) ∧
      late = (d.run (early.map FrameRecord.call)).history (late.map FrameRecord.call) := by
  have calls_eq : calls = early.map FrameRecord.call ++ late.map FrameRecord.call := by
    rw [← List.map_append, ← split, map_call_history]
  rw [calls_eq, history_append] at split
  have lengths : (d.history (early.map FrameRecord.call)).length = early.length := by
    rw [← List.length_map FrameRecord.call, map_call_history, List.length_map]
  have parts := List.append_inj split lengths
  exact ⟨parts.1.symm, parts.2.symm⟩

theorem exists_of_mem_history {r : FrameRecord} (member : r ∈ d.history calls) :
    ∃ early, r = (d.run early).record r.call := by
  obtain ⟨early, late, split⟩ := List.append_of_mem member
  have rest := (history_split split).2
  rw [List.map_cons, history, List.cons.injEq] at rest
  exact ⟨_, rest.1⟩

theorem sameSetup_run : d.SameSetup (d.run calls) := by
  induction calls generalizing d with
  | nil => exact ⟨rfl, rfl, rfl⟩
  | cons call rest ih =>
    have first : d.SameSetup (d.record call).after := sameSetup_record
    have later := @ih (d.record call).after
    exact ⟨later.schedule.trans first.schedule, later.interval.trans first.interval,
      later.frameActions.trans first.frameActions⟩

theorem running_run_of_onDemand (onDemand : d.schedule = .onDemand) (rests : d.running = false) :
    (d.run calls).running = false := by
  induction calls generalizing d with
  | nil => exact rests
  | cons call rest ih =>
    exact ih (sameSetup_record.schedule.trans onDemand) (running_record_of_onDemand onDemand rests)

/-- The log of a run is one whole frame for each that it counts. -/
theorem log_eq (d : FrameDriver) (calls : List FrameCall) : ∃ n, (d.run calls).frames = d.frames + n ∧
    d.log calls = (List.replicate n d.frameActions).flatten := by
  induction calls generalizing d with
  | nil => exact ⟨0, rfl, rfl⟩
  | cons call rest ih =>
    obtain ⟨n, frames, log⟩ := ih (d.record call).after
    rw [frames_record] at frames
    rw [sameSetup_record.frameActions] at log
    have split : d.log (call :: rest) =
        (d.record call).actions ++ (d.record call).after.log rest := rfl
    rw [split, log]
    rcases d.actions_record call with none | whole
    · rw [none] at frames ⊢
      exact ⟨n, frames, rfl⟩
    · rw [whole, count_render_frameActions] at frames
      rw [whole]
      apply Exists.intro (n + 1)
      constructor
      · rw [run, frames]
        omega
      · rfl

theorem count_render_log (frames : Nat) :
    ((List.replicate frames d.frameActions).flatten).count .render = frames := by
  simp [List.count_flatten, count_render_frameActions]

end Runs

section Caps

/-- A stopped driver of continuous frames draws nothing until it is started. -/
theorem draws_none_of_rests (continuous : d.schedule.isContinuous) (rests : d.running = false)
    (unstarted : .start ∉ calls.map FrameCall.step) : (d.history calls).filter FrameRecord.draws = [] := by
  induction calls generalizing d with
  | nil => rfl
  | cons call rest ih =>
    rw [List.map_cons, List.mem_cons, not_or] at unstarted
    have still : (d.record call).after.running = false := by
      cases d.outcome_record call with
      | refreshed _ _ running => simp [rests] at running
      | demanded _ _ _ after => simpa [after] using rests
      | resumed step => exact absurd step.symm unstarted.1
      | stopped _ _ after => simp [after]
      | passed _ _ after => simpa [after] using rests
    have silent : (d.record call).draws = false := by
      by_contra draws
      obtain ⟨_, _, running, _⟩ := refreshed_of_draws continuous (Bool.eq_true_of_not_eq_false draws)
      simp [rests] at running
    rw [history, List.filter_cons_of_neg (by simp [silent])]
    apply ih _ still unstarted.2
    rw [sameSetup_record.schedule]
    exact continuous

/-- A refresh that comes in time keeps the interval, clocks that go backwards included. -/
theorem le_of_due {interval last now : Nat} (positive : 0 < interval)
    (capped : d.interval = some interval) (drawn : d.lastFrame = some last)
    (due : d.isTooSoon now = false) : last + interval ≤ now := by
  simp only [isTooSoon, capped, drawn, decide_eq_false_iff_not] at due
  omega

variable {interval : Nat}

/-- No start follows a stop. -/
def Unbroken (calls : List FrameCall) : Prop :=
  ¬ [FrameStep.stop, .start].Sublist (calls.map FrameCall.step)

theorem Unbroken.tail {rest : List FrameCall} (unbroken : Unbroken (call :: rest)) :
    Unbroken rest :=
  fun broken => unbroken (broken.cons _)

theorem Unbroken.unstarted {rest : List FrameCall} (unbroken : Unbroken (call :: rest))
    (stop : call.step = .stop) : .start ∉ rest.map FrameCall.step := by
  intro started
  apply unbroken
  rw [List.map_cons, stop]
  exact (List.singleton_sublist.mpr started).cons_cons _

/-- The frames after a frame keep the interval from it on. -/
theorem isChain_after {previous : FrameRecord} {last : Nat} (positive : 0 < interval)
    (continuous : d.schedule.isContinuous) (capped : d.interval = some interval)
    (unbroken : Unbroken calls) (running : d.running = true) (at_last : d.lastFrame = some last)
    (refresh : previous.call.step = .refresh last) :
    (previous :: (d.history calls).filter FrameRecord.draws).IsChain (FrameRecord.Apart interval) := by
  induction calls generalizing d previous last with
  | nil => exact .singleton _
  | cons call rest ih =>
    have schedule : (d.record call).after.schedule.isContinuous := by
      rw [sameSetup_record.schedule]
      exact continuous
    have cap : (d.record call).after.interval = some interval :=
      sameSetup_record.interval.trans capped
    by_cases draws : (d.record call).draws
    · obtain ⟨now, step, _, due, after⟩ := refreshed_of_draws continuous draws
      rw [history, List.filter_cons_of_pos draws]
      apply List.IsChain.cons_cons
      · exact ⟨last, now, refresh, step, le_of_due positive capped at_last due⟩
      · exact ih schedule cap unbroken.tail (by rw [after]; exact running) (by rw [after]) step
    · rw [history, List.filter_cons_of_neg draws]
      cases d.outcome_record call with
      | refreshed _ _ _ _ actions =>
        exact absurd (by simp [FrameRecord.draws, actions, frameActions_ne_nil]) draws
      | demanded _ _ actions =>
        exact absurd (by simp [FrameRecord.draws, actions, frameActions_ne_nil]) draws
      | resumed _ _ rested => simp [running] at rested
      | stopped step _ after =>
        have still : (d.record call).after.running = false := by rw [after]
        rw [draws_none_of_rests schedule still (unbroken.unstarted step)]
        exact .singleton _
      | passed _ _ after =>
        rw [record_before] at after
        rw [after]
        exact ih continuous capped unbroken.tail running at_last refresh

/-- The frames of an unbroken run keep the interval, whatever its driver drew before. -/
theorem isChain_draws (positive : 0 < interval) (continuous : d.schedule.isContinuous)
    (capped : d.interval = some interval) (unbroken : Unbroken calls) :
    ((d.history calls).filter FrameRecord.draws).IsChain (FrameRecord.Apart interval) := by
  induction calls generalizing d with
  | nil => exact .nil
  | cons call rest ih =>
    have schedule : (d.record call).after.schedule.isContinuous := by
      rw [sameSetup_record.schedule]
      exact continuous
    have cap : (d.record call).after.interval = some interval :=
      sameSetup_record.interval.trans capped
    rw [history]
    by_cases draws : (d.record call).draws
    · obtain ⟨now, step, running, _, after⟩ := refreshed_of_draws continuous draws
      rw [List.filter_cons_of_pos draws]
      exact isChain_after positive schedule cap unbroken.tail (by rw [after]; exact running)
        (by rw [after]) step
    · rw [List.filter_cons_of_neg draws]
      exact ih schedule cap unbroken.tail

/-- The frames of a continuous driver are drawn by refreshes. -/
theorem refreshes_of_draws (continuous : d.schedule.isContinuous) :
    ∀ r ∈ (d.history calls).filter FrameRecord.draws, ∃ now, r.call.step = .refresh now := by
  intro r member
  obtain ⟨member, draws⟩ := List.mem_filter.mp member
  obtain ⟨early, eq⟩ := exists_of_mem_history member
  rw [eq] at draws
  obtain ⟨now, step, _⟩ := refreshed_of_draws (by rwa [sameSetup_run.schedule]) draws
  exact ⟨now, step⟩

/-- From a stop on, the records of a continuous driver are empty until one of them is a start. -/
theorem actions_eq_nil_of_idle {stop : FrameRecord} {idle : List FrameRecord}
    (continuous : d.schedule.isContinuous) (stops : stop.call.step = .stop)
    (unstarted : ∀ r ∈ idle, r.call.step ≠ .start)
    (parts : stop :: idle = d.history ((stop :: idle).map FrameRecord.call)) :
    ∀ r ∈ stop :: idle, r.actions = [] := by
  rw [List.map_cons, history, List.cons.injEq] at parts
  obtain ⟨first, rest⟩ := parts
  have stopped : stop.actions = [] ∧ (d.record stop.call).after.running = false := by
    rw [first, record_call]
    simp [record, step, FrameDriver.stop, stops]
  have silent : idle.filter FrameRecord.draws = [] := by
    rw [rest]
    apply draws_none_of_rests _ stopped.2
    · simpa using unstarted
    · rw [sameSetup_record.schedule]
      exact continuous
  intro r member
  rw [List.mem_cons] at member
  rcases member with here | later
  · rw [here]
    exact stopped.1
  · simpa [FrameRecord.draws] using List.filter_eq_nil_iff.mp silent r later

end Caps

/-- What holds of every run of a driver. -/
structure Paced (d : FrameDriver) (calls : List FrameCall) : Prop where
  /-- As many renders are counted as happened. -/
  counted : (d.run calls).frames = (d.log calls).count .render
  /-- Nothing but whole frames: each render has its own clear and then every listener in order before it. -/
  whole : d.log calls =
    (List.replicate (d.run calls).frames (d.clearing ++ d.listening ++ [.render])).flatten
  refused : ∀ r ∈ d.history calls, ∀ now, r.call.step = .refresh now →
    (r.answer = .rescheduled .stopped ↔ r.before.running = false) ∧
      (r.before.running = false → r.actions = [])
  /-- A driver on demand never runs. -/
  onDemand : d.schedule = .onDemand → (d.run calls).running = false
  /-- A continuous driver leaves changes to its next refresh. -/
  deferred : d.schedule.isContinuous → ∀ r ∈ d.history calls,
    r.call.step = .notify ∨ r.call.step = .poll → r.actions = []
  /-- A continuous driver draws nothing from a stop to the next start. -/
  rests : d.schedule.isContinuous → ∀ early stop idle late,
    d.history calls = early ++ stop :: (idle ++ late) → stop.call.step = .stop →
      (∀ r ∈ idle, r.call.step ≠ .start) → ∀ r ∈ stop :: idle, r.actions = []
  /-- Frames under a cap stand at least one interval apart for each step from one to the next, in
  every stretch of the run in which no start follows a stop. -/
  spaced : ∀ interval, d.interval = some interval → 0 < interval → ∀ early stretch late,
    d.history calls = early ++ stretch ++ late →
      ¬ [FrameStep.stop, .start].Sublist (stretch.map fun r => r.call.step) →
        ∀ i n, (bound : i + n < (stretch.filter FrameRecord.draws).length) →
          FrameRecord.Apart (n * interval) ((stretch.filter FrameRecord.draws)[i])
            ((stretch.filter FrameRecord.draws)[i + n])

section Made

variable {schedule : Schedule}

/-- A new driver has drawn nothing, runs exactly on a continuous schedule, and has a cap only
there. -/
theorem of_make (made : make schedule = .ok d) :
    d.schedule = schedule ∧ d.running = schedule.isContinuous ∧ d.frames = 0 ∧
      (d.interval ≠ none → schedule.isContinuous) := by
  cases schedule with
  | onDemand =>
    cases made
    simp [Schedule.isContinuous]
  | continuous fps =>
    simp only [make] at made
    cases cap : capInterval fps with
    | error fault => simp [cap, bind, Except.bind] at made
    | ok interval =>
      simp only [cap, bind, Except.bind, pure, Except.pure, Except.ok.injEq] at made
      simp [← made, Schedule.isContinuous]

/-- A stretch of a history is the history of a driver with the same setup. -/
theorem exists_of_stretch {early stretch late : List FrameRecord}
    (split : d.history calls = early ++ stretch ++ late) :
    ∃ e, d.SameSetup e ∧ stretch = e.history (stretch.map FrameRecord.call) := by
  rw [List.append_assoc] at split
  have rest := (history_split split).2
  exact ⟨_, sameSetup_run, (history_split rest.symm).1⟩

/-- Every driver that can be made draws whole frames, counts them and keeps its pace. -/
theorem made_paced (made : make schedule = .ok d) (clear : ClearPolicy) (listeners : Nat)
    (calls : List FrameCall) : ({ d with clear, listeners } : FrameDriver).Paced calls := by
  obtain ⟨schedule_eq, running, unused, capped⟩ := of_make made
  set e : FrameDriver := { d with clear, listeners }
  obtain ⟨n, frames, log⟩ := e.log_eq calls
  have counts : n = (e.run calls).frames := by
    rw [frames]
    simp [e, unused]
  rw [counts] at log
  constructor
  · rw [log, count_render_log]
  · exact log
  · intro r member now step
    obtain ⟨early, eq⟩ := exists_of_mem_history member
    rw [eq]
    constructor
    · exact answer_refresh _ step
    · exact actions_eq_nil_of_rests step
  · intro onDemand
    apply running_run_of_onDemand onDemand
    have scheduled : schedule = .onDemand := schedule_eq.symm.trans onDemand
    rw [scheduled] at running
    exact running
  · intro continuous r member asked
    obtain ⟨early, eq⟩ := exists_of_mem_history member
    have scheduled : (e.run early).schedule.isContinuous := by
      rw [sameSetup_run.schedule]
      exact continuous
    by_contra drawn
    have draws : ((e.run early).record r.call).draws := by
      rw [← eq]
      simpa [FrameRecord.draws] using drawn
    obtain ⟨now, step, _⟩ := refreshed_of_draws scheduled draws
    rcases asked with asked | asked <;> simp [asked] at step
  · intro continuous early stop idle late split stops unstarted
    have whole : e.history calls = early ++ (stop :: idle) ++ late := by simpa using split
    obtain ⟨f, setup, parts⟩ := exists_of_stretch whole
    apply actions_eq_nil_of_idle _ stops unstarted parts
    rw [setup.schedule]
    exact continuous
  · intro interval cap positive early stretch late split unbroken i n bound
    obtain ⟨f, setup, part⟩ := exists_of_stretch split
    have continuous : f.schedule.isContinuous := by
      rw [setup.schedule, show e.schedule = schedule from schedule_eq]
      apply capped
      rw [show d.interval = some interval from cap]
      simp
    have quiet : Unbroken (stretch.map FrameRecord.call) := by
      rw [Unbroken, List.map_map]
      exact unbroken
    apply FrameRecord.Apart.of_isChain
    · intro r member
      rw [part] at member
      exact refreshes_of_draws continuous r member
    · rw [part]
      exact isChain_draws positive continuous (setup.interval.trans cap) quiet

/-- Four frames in a second. -/
def quartered : FrameDriver :=
  { schedule := .continuous (some ⟨0x40800000⟩), interval := some 250000000, running := true }

/-- A run with a clock that goes backwards, a start of a running driver and a restart. -/
def strollCalls : List FrameCall :=
  [{ step := .refresh 1000 }, { step := .refresh 100 }, { step := .start },
    { step := .refresh 250000999 }, { step := .refresh 250001000 },
    { step := .poll, requested := true }, { step := .notify }, { step := .stop },
    { step := .refresh 900000000 }, { step := .start }, { step := .refresh 250001001 }]

theorem quartered_stroll_paced : make quartered.schedule = .ok quartered ∧
    ({ quartered with clear := .custom, listeners := 2 } : FrameDriver).Paced strollCalls ∧
      (({ quartered with clear := .custom, listeners := 2 } : FrameDriver).run strollCalls).frames =
        3 := by
  have made : make quartered.schedule = .ok quartered := by decide +kernel
  exact ⟨made, made_paced made .custom 2 strollCalls, by decide +kernel⟩

end Made
end FrameDriver
end ShaderStack

import ShaderStack.Scene.Replay
import ShaderStack.Proofs.Polling
import ShaderStack.Proofs.Steadiness
import Mathlib.Algebra.Order.Floor.Div

/-! The frames of a replay.

The display refreshes at fixed times, so a cap lets every so many refreshes draw. The window of the cap
starts again at each frame that is drawn, and all of them lie on multiples of one stride. A stack that
uploads nothing reports the same totals for each. -/
namespace ShaderStack

namespace FrameDriver

variable {d : FrameDriver} {frame : Nat}

/-- How many refreshes there are from one frame to the next: as many as the cap takes, and at least one. -/
def stride (d : FrameDriver) : Nat := max 1 (d.interval.getD 0 ⌈/⌉ refreshInterval)

/-- The frames of a replay that are drawn. -/
def IsDue (d : FrameDriver) (frame : Nat) : Prop := d.schedule = .onDemand ∨ d.stride ∣ frame

instance : Decidable (d.IsDue frame) := inferInstanceAs (Decidable (_ ∨ _))

/-- Before a frame of a replay, a continuous driver has drawn at the last multiple of its stride. -/
structure AtFrame (frame : Nat) (d : FrameDriver) : Prop where
  running : d.schedule.isContinuous → d.running = true
  last : d.schedule.isContinuous → d.lastFrame = none ∧ frame = 0 ∨
    ∃ j, d.lastFrame = some (j * refreshInterval) ∧ d.stride ∣ j ∧ j < frame ∧ frame ≤ j + d.stride

theorem stride_pos : 0 < d.stride := Nat.le_max_left 1 _

/-- A refresh is too soon as long as it is within a stride of the last frame. -/
theorem isTooSoon_iff {j : Nat} (last : d.lastFrame = some (j * refreshInterval)) (later : j < frame) :
    d.isTooSoon (frame * refreshInterval) = true ↔ frame < j + d.stride := by
  have apart : d.isTooSoon (frame * refreshInterval) = true ↔
      frame * refreshInterval - j * refreshInterval < d.interval.getD 0 := by
    unfold isTooSoon
    rw [last]
    cases d.interval <;> simp
  have enough : d.interval.getD 0 ⌈/⌉ refreshInterval ≤ frame - j ↔
      d.interval.getD 0 ≤ refreshInterval * (frame - j) :=
    ceilDiv_le_iff_le_smul (by decide)
  rw [apart, ← Nat.sub_mul, Nat.mul_comm, ← Nat.not_le, ← enough]
  unfold stride
  omega

/-- Within a stride of one multiple, there is one more. -/
theorem stride_dvd_iff {j : Nat} (multiple : d.stride ∣ j) (later : j < frame)
    (near : frame ≤ j + d.stride) : d.stride ∣ frame ↔ frame = j + d.stride := by
  constructor
  · intro next
    have positive : 0 < frame - j := by omega
    have least := Nat.le_of_dvd positive (Nat.dvd_sub next multiple)
    omega
  · rintro rfl
    exact Nat.dvd_add multiple (Nat.dvd_refl _)

theorem step_notify (onDemand : d.schedule = .onDemand) :
    (d.step false .notify).2 = (d.frameActions, { d with frames := d.frames + 1 }) := by
  simp [step, notify, draw, onDemand]

theorem step_refresh {now : Nat} (running : d.running = true) :
    (d.step false (.refresh now)).2 =
      if d.isTooSoon now then ([], d)
      else (d.frameActions, { d with lastFrame := some now, frames := d.frames + 1 }) := by
  by_cases early : d.isTooSoon now <;> simp [step, refresh, draw, frameActions, running, early]

theorem onDemand_of_not_isContinuous (other : ¬ d.schedule.isContinuous) : d.schedule = .onDemand := by
  cases schedule : d.schedule with
  | onDemand => rfl
  | continuous fps => exact absurd (by rw [schedule]; rfl) other

/-- A frame that is due is drawn whole. -/
theorem AtFrame.step_due (here : d.AtFrame frame) (due : d.IsDue frame) :
    ∃ lastFrame,
      let next : FrameDriver := { d with lastFrame, frames := d.frames + 1 }
      (d.step false (Replay.stepOf d.schedule frame)).2 = (d.frameActions, next) ∧
        next.AtFrame (frame + 1) := by
  by_cases continuous : d.schedule.isContinuous
  · have multiple : d.stride ∣ frame := due.resolve_left fun onDemand => by
      rw [onDemand] at continuous
      cases continuous
    have late : d.isTooSoon (frame * refreshInterval) = false := by
      rcases here.last continuous with ⟨none, _⟩ | ⟨j, last, multiple', later, near⟩
      · simp [isTooSoon, none]
      · rw [← Bool.not_eq_true, isTooSoon_iff last later, (stride_dvd_iff multiple' later near).mp multiple]
        exact Nat.lt_irrefl _
    refine ⟨some (frame * refreshInterval), ?_, fun _ => here.running continuous, fun _ => .inr ?_⟩
    · rw [Replay.stepOf, if_pos continuous, step_refresh (here.running continuous), late]
      rfl
    · have positive : 0 < d.stride := stride_pos
      exact ⟨frame, rfl, multiple, Nat.lt_succ_self frame, Nat.add_le_add_left positive frame⟩
  · refine ⟨d.lastFrame, ?_, fun now => absurd now continuous, fun now => absurd now continuous⟩
    rw [Replay.stepOf, if_neg continuous]
    exact step_notify (onDemand_of_not_isContinuous continuous)

/-- A frame that is not due does nothing. -/
theorem AtFrame.step_early (here : d.AtFrame frame) (early : ¬ d.IsDue frame) :
    (d.step false (Replay.stepOf d.schedule frame)).2 = ([], d) ∧ d.AtFrame (frame + 1) := by
  obtain ⟨demandless, apart⟩ := not_or.mp early
  have continuous : d.schedule.isContinuous :=
    Decidable.not_not.mp (demandless ∘ onDemand_of_not_isContinuous)
  rcases here.last continuous with ⟨_, rfl⟩ | ⟨j, last, multiple, later, near⟩
  · exact absurd (Nat.dvd_zero _) apart
  · rw [stride_dvd_iff multiple later near] at apart
    have close : frame < j + d.stride := Nat.lt_of_le_of_ne near apart
    refine ⟨?_, here.running, fun _ => .inr ⟨j, last, multiple, Nat.lt_succ_of_lt later, close⟩⟩
    rw [Replay.stepOf, if_pos continuous, step_refresh (here.running continuous),
      (isTooSoon_iff last later).mpr close]
    rfl

end FrameDriver

/-- Asking for the time leaves the host alone. -/
theorem Scene.time_host (host : Host) : (Scene.time.run host).2 = host := by
  unfold Scene.time
  rw [StateT.run_bind, StateT.run_get, pure_bind]
  split <;> rfl

open World (Spends)

/-- Nothing that happens between the frames makes a stack unsteady. -/
theorem Stack.Steady.idle {sources : List (String × TextureSource)} {costs : List CallStats} {s : Stack}
    {w w' : World RecordingDevice} (steady : s.Steady sources w costs) (spent : w.Spends 0 w')
    (textures : w'.textures = w.textures) : s.Steady sources w' costs := by
  refine ⟨steady.programs, ?_, spent.sources.trans steady.sources⟩
  refine steady.layers.imp fun key cost holds => ?_
  unfold World.Holds World.texture? at *
  rwa [textures]

namespace Replay

variable {sources : List (String × TextureSource)} {costs : List CallStats} {cost : CallStats}
  {d : FrameDriver} {r : Replay} {frame : Nat}

/-- What a frame reports that costs so much if it is due. -/
def report (d : FrameDriver) (cost : CallStats) (frame : Nat) : FrameReport :=
  { frame, drawn := d.IsDue frame, stats := if d.IsDue frame then cost else {} }

/-- A replay before one of its frames. Those that are due upload nothing, and cost the same. -/
structure Steady (sources : List (String × TextureSource)) (costs : List CallStats) (cost : CallStats)
    (d : FrameDriver) (frame : Nat) (r : Replay) : Prop where
  stack : r.stack.Steady sources r.world costs
  cost : r.stack.frameCost costs = cost
  driver : r.driver.AtFrame frame
  schedule : r.driver.schedule = d.schedule
  interval : r.driver.interval = d.interval

theorem spends_advanceTime {w : World RecordingDevice} : w.Spends 0 (advanceTime.run w).2 := by
  refine .silent rfl ?_
  change (Scene.time.run w.host).2.sources = w.host.sources
  rw [Scene.time_host]

/-- Before a frame is rendered nothing is spent. -/
theorem act_of_ne_render {a : FrameAction} (other : a ≠ .render) :
    ∃ world, r.act a = { r with world } ∧ r.world.Spends 0 world ∧
      world.textures = r.world.textures := by
  cases a with
  | clear => exact ⟨_, rfl, .perform (.clear .opaqueBlack .one), rfl⟩
  | customClear => exact ⟨_, rfl, .silent rfl rfl, rfl⟩
  | listener index => exact ⟨_, rfl, spends_advanceTime, rfl⟩
  | render => exact absurd rfl other

theorem act_prelude {actions : List FrameAction} (others : .render ∉ actions) :
    ∃ world, actions.foldl act r = { r with world } ∧ r.world.Spends 0 world ∧
      world.textures = r.world.textures := by
  induction actions generalizing r with
  | nil => exact ⟨r.world, rfl, Spends.refl _, rfl⟩
  | cons a rest ih =>
    obtain ⟨first, acted, spent, textures⟩ :=
      act_of_ne_render (r := r) fun same => others (same ▸ List.mem_cons_self)
    obtain ⟨world, acted', spent', textures'⟩ :=
      ih (r := { r with world := first }) fun member => others (List.mem_cons_of_mem _ member)
    refine ⟨world, ?_, spent.after spent', textures'.trans textures⟩
    rw [List.foldl_cons, acted, acted']

/-- A whole frame costs what its render costs. -/
theorem act_frame (steady : r.stack.Steady sources r.world costs) (d : FrameDriver) :
    ∃ stack world, d.frameActions.foldl act r = { r with stack, world } ∧
      stack.Steady sources world costs ∧ stack.frameCost costs = r.stack.frameCost costs ∧
      world.device.stats = r.world.device.stats + r.stack.frameCost costs := by
  obtain ⟨world, acted, spent, textures⟩ := act_prelude (r := r) d.render_not_mem_prelude
  obtain ⟨again, kept, spent'⟩ := (steady.idle spent textures).render
  refine ⟨_, _, ?_, again, kept, (spent.after spent').stats⟩
  rw [d.frameActions_eq, List.foldl_append, acted]
  rfl

theorem isDue_iff (steady : r.Steady sources costs cost d frame) :
    r.driver.IsDue frame ↔ d.IsDue frame := by
  unfold FrameDriver.IsDue FrameDriver.stride
  rw [steady.schedule, steady.interval]

theorem playFrame_eq {actions : List FrameAction} {driver : FrameDriver}
    (step : (r.driver.step false (stepOf r.driver.schedule frame)).2 = (actions, driver)) :
    r.playFrame frame =
      let next := actions.foldl act { r with driver }
      (⟨frame, r.driver.frames < driver.frames, next.stats.since r.stats⟩, next) := by
  obtain ⟨rfl, rfl⟩ := Prod.mk.inj step
  rfl

/-- A frame reports what it is due, and leaves the replay before the next one. -/
theorem Steady.playFrame (steady : r.Steady sources costs cost d frame) :
    (r.playFrame frame).1 = report d cost frame ∧
      (r.playFrame frame).2.Steady sources costs cost d (frame + 1) := by
  by_cases due : d.IsDue frame
  · obtain ⟨lastFrame, step, next⟩ := steady.driver.step_due ((isDue_iff steady).mpr due)
    obtain ⟨stack, world, acted, again, kept, stats⟩ :=
      act_frame (r := { r with driver := { r.driver with lastFrame, frames := r.driver.frames + 1 } })
        steady.stack r.driver
    rw [steady.cost] at kept stats
    rw [playFrame_eq step, acted]
    refine ⟨?_, again, kept, next, steady.schedule, steady.interval⟩
    simp [report, due, Replay.stats, stats]
  · obtain ⟨step, next⟩ := steady.driver.step_early (due ∘ (isDue_iff steady).mp)
    rw [playFrame_eq step]
    refine ⟨?_, steady.stack, steady.cost, next, steady.schedule, steady.interval⟩
    simp [report, due]

/-- Frame after frame, by induction on how many are played. -/
theorem Steady.playFrom (steady : r.Steady sources costs cost d frame) (count : Nat) :
    (playFrom frame count r).1 = (List.range' frame count).map (report d cost) := by
  induction count generalizing frame r with
  | zero => rfl
  | succ count ih =>
    obtain ⟨reported, next⟩ := steady.playFrame
    rw [List.range'_succ, List.map_cons, ← ih next, ← reported]
    rfl

end Replay
end ShaderStack

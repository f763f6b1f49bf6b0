import ShaderStack.CommandLine.Run
import ShaderStack.Proofs.Acceptance
import ShaderStack.Proofs.Staging

/-! What a replay prints.

A bundled scene mounts under all settings, and its stack is steady. A replay therefore reports a draw for each
pass in the frames that the cap lets through, and nothing in the others. -/
namespace ShaderStack

namespace FrameDriver

variable {d : FrameDriver} {schedule : Schedule}

theorem eq_of_make (made : make schedule = .ok d) :
    d = { schedule, interval := d.interval, running := schedule.isContinuous } := by
  cases schedule with
  | onDemand =>
    cases made
    rfl
  | continuous fps =>
    rw [make_continuous] at made
    cases cap : capInterval fps with
    | error fault =>
      rw [cap] at made
      cases made
    | ok interval =>
      rw [cap] at made
      cases made
      rfl

/-- A new driver is before the first frame of a replay. -/
theorem atFrame_of_make (made : make schedule = .ok d) (clear : ClearPolicy) (listeners : Nat) :
    ({ d with clear, listeners } : FrameDriver).AtFrame 0 := by
  rw [eq_of_make made]
  exact ⟨id, fun _ => .inl ⟨rfl, rfl⟩⟩

end FrameDriver

namespace Replay

variable {driver : FrameDriver}

/-- A new stack has nothing in it, and asks nothing of the host. -/
theorem exists_stack (options : StackOptions) (width height : UInt32) (w : World RecordingDevice) :
    ∃ s w', (Stack.make true width height options).run.run w = (.ok s, w') ∧
      s.programs = [] ∧ s.layers = [] ∧ w'.host = w.host := by
  have made : (Stack.make true width height options).Ends w
      (fun s w' => s.programs = [] ∧ s.layers = [] ∧ w'.host = w.host) fun _ _ => False := by
    rw [Stack.ends_make, if_neg (by decide)]
    refine ⟨rfl, rfl, ?_⟩
    have probes (names : List String) (w : World RecordingDevice) :
        (names.foldl (fun w name => w.probed (.enableExtension name)) w).host = w.host := by
      induction names generalizing w with
      | nil => rfl
      | cons name names ih => exact ih _
    exact probes _ w
  exact made.exists_ok

theorem attempt_eq {α ε : Type} {w w' : World RecordingDevice} {wrap : ε → ReplayError} {a : α}
    {action : ExceptT ε (StateM (World RecordingDevice)) α} (ran : action.run.run w = (.ok a, w')) :
    attempt w wrap action = .ok (a, w') := by
  unfold attempt
  rw [ran]

/-- Every bundled scene is mounted, and every driver that can be made drives it. -/
theorem exists_start (kind : SceneKind) {settings : Settings} (width height : UInt32)
    (made : FrameDriver.make settings.schedule = .ok driver) :
    ∃ scene host r sources costs pushes, (Scene.build kind).run.run {} = (.ok scene, host) ∧
      start kind settings width height = .ok r ∧
      r.Steady sources costs { draws := scene.passes.length, uniformPushes := pushes } driver 0 := by
  obtain ⟨s, w, stacked, programs, layers, untouched⟩ :=
    exists_stack settings.stackOptions width height { device := {} }
  obtain ⟨scene, host, built, blank, good⟩ := Scene.exists_build kind
  have mounted := Scene.ends_mount (w := { w with host }) settings good blank programs layers
  unfold Mounting.Ends at mounted
  rcases ran : ((scene.mount settings : Mounting RecordingDevice Unit).run.run s).run { w with host } with
    ⟨⟨e | ⟨⟩, s'⟩, w'⟩ <;> rw [ran] at mounted
  · exact mounted.elim
  · obtain ⟨sources, layers, costs, pushes, steady, _, cost⟩ := mounted
    have readied : (ExceptT.mk (Engine.readHost (Scene.build kind).run) :
        ExceptT TokenError (StateM (World RecordingDevice)) Scene).run.run w =
          (.ok scene, { w with host }) := by
      change (((Scene.build kind).run.run w.host).1,
        { w with host := ((Scene.build kind).run.run w.host).2 }) = _
      rw [untouched, show ({ device := {} } : World RecordingDevice).host = {} from rfl, built]
    have started : start kind settings width height = .ok
        { stack := s', world := w',
          driver := { driver with clear := settings.clearPolicy, listeners := 1 } } := by
      unfold start
      rw [attempt_eq stacked]
      simp only [bind, Except.bind]
      rw [attempt_eq readied]
      simp only [ran, made]
      rfl
    exact ⟨scene, host, _, sources, costs, pushes, built, started, steady, cost,
      FrameDriver.atFrame_of_make made _ _, rfl, rfl⟩

end Replay

/-- What a frame reports that is drawn as the cap allows. It then draws each pass once, and neither links nor
uploads. -/
structure FrameReport.Keeps (report : FrameReport) (d : FrameDriver) (passes pushes frame : Nat) : Prop where
  numbered : report.frame = frame
  drawn : report.drawn = true ↔
    d.schedule = .onDemand ∨ max 1 (d.interval.getD 0 ⌈/⌉ refreshInterval) ∣ frame
  skipped : report.drawn = false → report.stats = {}
  steady : report.drawn = true → report.stats = { draws := passes, uniformPushes := pushes }

theorem Replay.keeps_report (d : FrameDriver) (passes pushes frame : Nat) :
    (report d { draws := passes, uniformPushes := pushes } frame).Keeps d passes pushes frame := by
  constructor
  · rfl
  · exact decide_eq_true_iff
  · intro early
    exact if_neg (of_decide_eq_false early)
  · intro due
    exact if_pos (of_decide_eq_true due)

/-- The settings of a replay: those of the file that it names, if it names one. -/
def ReplayOptions.load (options : ReplayOptions) (file : Except FileFault ByteArray) :
    Except SettingsError Settings :=
  match options.settings with
  | none => .ok {}
  | some _ => Settings.ofFile file

namespace CommandLine

variable {kind : SceneKind} {options : ReplayOptions} {settings : Settings} {driver : FrameDriver}
  {file : Except FileFault ByteArray}

theorem run_replay (accepted : options.load file = .ok settings) :
    (replay kind options).run file = replayScene kind options settings := by
  unfold ReplayOptions.load at accepted
  cases named : options.settings with
  | none =>
    rw [named] at accepted
    cases accepted
    simp only [run, named]
  | some path =>
    rw [named] at accepted
    simp only [run, named, accepted]

theorem output_failure (output : String) (e : ReplayError) : (failure output e).output = output := by
  unfold failure
  split <;> rfl

/-- Whether or not the last frame can be read back, the reports stay printed. -/
theorem output_finishReplay (output : String) (r : Replay) :
    (finishReplay options settings output r).output = output := by
  unfold finishReplay
  split
  · exact output_failure output _
  · split
    · rfl
    · split
      · exact output_failure output _
      · rfl

/-- Thirty frames in a second. -/
def cappedFile : String := "version = 1\n\n[stack]\nschedule = \"continuous\"\nfps = 30\n"

def cappedSettings : Settings := { stack := { pace := .continuous, fps := some ⟨0x41F00000⟩ } }

def cappedDriver : FrameDriver :=
  { schedule := cappedSettings.schedule, interval := some 33333335, running := true }

def cappedOptions : ReplayOptions := { frames := 4, settings := some "live.toml", json := true }

theorem load_capped : cappedOptions.load (.ok cappedFile.toUTF8) = .ok cappedSettings := by
  have loads : (cappedOptions.load (.ok cappedFile.toUTF8)).toOption = some cappedSettings := by
    decide +kernel
  revert loads
  cases cappedOptions.load (.ok cappedFile.toUTF8) with
  | ok settings => exact fun loads => congrArg _ (Option.some.inj loads)
  | error _ => exact fun loads => nomatch loads

end CommandLine
end ShaderStack

import ShaderStack.Proofs.Allocation
import ShaderStack.Proofs.Rounding
import ShaderStack.Settings.Check

/-! Settings that pass their check, where they are used.

A frame driver and a readback check once more what they are given. Their checks agree with the one
of the settings, except for caps so small that their interval has no representation. -/
namespace ShaderStack

namespace FrameDriver

/-- A finite cap above zero is refused exactly if its interval has no representation. -/
theorem capInterval_positive {fps : Single} (finite : fps.isFinite) (positive : fps.isPositive) :
    capInterval (some fps) =
      if 2 ^ 85 < fps.units then .ok (some fps.reciprocal.toNanoseconds)
      else .error (.unboundedInterval fps) := by
  simp only [Single.isPositive, Bool.and_eq_true, Bool.not_eq_true'] at positive
  obtain ⟨⟨_, nonzero⟩, above⟩ := positive
  have long := Single.hasInterval_reciprocal nonzero
  simp only [capInterval, finite, nonzero, above, Bool.not_true, Bool.false_and, Bool.or_self,
    Bool.false_eq_true, if_false]
  by_cases large : 2 ^ 85 < fps.units
  · rw [if_pos (long.mpr large), if_pos large]
  · rw [if_neg (large ∘ long.mp), if_neg large]

theorem make_continuous {fps : Option Single} :
    make (.continuous fps) = (capInterval fps).map fun interval =>
      { schedule := .continuous fps, interval, running := true } := by
  simp only [make]
  cases capInterval fps <;> rfl

end FrameDriver

namespace Settings

variable {s : Settings}

/-- The settings ask for a cap of at most `2 ^ (-64)` frames per second. -/
def Crawls (s : Settings) : Prop :=
  s.stack.pace = .continuous ∧ ∃ fps, s.stack.fps = some fps ∧ fps.isPositive ∧ fps.units ≤ 2 ^ 85

/-- What each part of the check has let through. -/
theorem of_validate (accepted : s.validate = .ok ()) :
    s.checkFps = .ok () ∧ s.checkReadback = .ok () := by
  unfold validate at accepted
  by_cases version : s.version = 1
  · cases fps : s.checkFps with
    | error fault => simp [version, fps, bind, Except.bind] at accepted
    | ok _ =>
      simp only [version, fps, bind, Except.bind] at accepted
      exact ⟨rfl, accepted⟩
  · simp [version, bind, Except.bind] at accepted

theorem isFinite_of_accepted (accepted : s.checkFps = .ok ()) {fps : Single}
    (capped : s.stack.fps = some fps) : fps.isFinite := by
  by_contra infinite
  rw [Bool.not_eq_true] at infinite
  simp [checkFps, capped, infinite] at accepted

theorem getD_ne_zero {size : Option UInt32} {other : UInt32} (given : size ≠ some 0)
    (nonzero : other ≠ 0) : size.getD other ≠ 0 := by
  cases size with
  | none => exact nonzero
  | some value => simpa using given

/-- A readback that the settings allow is allowed on every stack with a size. -/
theorem readable_of_accepted (accepted : s.checkReadback = .ok ()) {width height : UInt32}
    (wide : width ≠ 0) (high : height ≠ 0) :
    s.readback.validate (s.readback.width.getD width) (s.readback.height.getD height) = .ok () := by
  have parts : ¬(s.readback.width = some 0 ∨ s.readback.height = some 0) ∧
      s.readback.format ≠ .luminance ∧
        s.readback.internalFormat.isFloat = (s.readback.dataType == .float) := by
    simp only [checkReadback] at accepted
    split at accepted
    · cases accepted
    · next sized =>
      split at accepted
      · cases accepted
      · next coloured =>
        split at accepted
        · cases accepted
        · next fits => exact ⟨sized, coloured, by simpa using fits⟩
  obtain ⟨sized, coloured, fits⟩ := parts
  rw [not_or] at sized
  exact ReadConfig.validate_eq_ok_iff.mpr
    ⟨⟨getD_ne_zero sized.1 wide, getD_ne_zero sized.2 high⟩, coloured, fits⟩

/-- Settings that can be used. -/
structure Usable (s : Settings) : Prop where
  /-- A driver is made for each schedule but those that crawl. -/
  driven : (∃ d, FrameDriver.make s.schedule = .ok d) ↔ ¬ s.Crawls
  /-- The rate itself is never refused. -/
  refused : ∀ e, FrameDriver.make s.schedule = .error e →
    ∃ fps, s.stack.fps = some fps ∧ e = .unboundedInterval fps
  /-- A readback passes its check and fails only with its device. -/
  readable : ∀ {δ : Type} [GraphicsDevice δ] (stack : Stack) (w : World δ), stack.width ≠ 0 →
    stack.height ≠ 0 →
      s.readback.validate (s.readback.width.getD stack.width)
        (s.readback.height.getD stack.height) = .ok () ∧
      (stack.read s.readback).Ends w (fun _ _ => True) fun e w' =>
        e = .resource (.incompleteReadback s.readback.internalFormat) ∨
          ∃ a, Event.allocation a (.error e) ∈ w'.events.drop w.events.length

/-- A driver is made, or the cap is too small. -/
theorem make_cases (accepted : s.checkFps = .ok ()) :
    (¬ s.Crawls ∧ ∃ d, FrameDriver.make s.schedule = .ok d) ∨
      (s.Crawls ∧ ∃ fps, s.stack.fps = some fps ∧
        FrameDriver.make s.schedule = .error (.unboundedInterval fps)) := by
  cases pace : s.stack.pace with
  | onDemand =>
    have schedule : s.schedule = .onDemand := by simp [schedule, pace]
    rw [schedule]
    exact .inl ⟨by simp [Crawls, pace], _, rfl⟩
  | continuous =>
    cases capped : s.stack.fps with
    | none =>
      have schedule : s.schedule = .continuous none := by simp [schedule, pace, capped]
      rw [schedule]
      exact .inl ⟨by simp [Crawls, capped], _, rfl⟩
    | some fps =>
      by_cases positive : fps.isPositive
      · have schedule : s.schedule = .continuous (some fps) := by
          simp [schedule, pace, capped, positive, Option.filter]
        have crawls : s.Crawls ↔ ¬ 2 ^ 85 < fps.units := by simp [Crawls, pace, capped, positive]
        have finite := isFinite_of_accepted accepted capped
        rw [schedule, FrameDriver.make_continuous, FrameDriver.capInterval_positive finite positive,
          crawls]
        by_cases large : 2 ^ 85 < fps.units
        · rw [if_pos large]
          exact .inl ⟨not_not.mpr large, _, rfl⟩
        · rw [if_neg large]
          exact .inr ⟨large, fps, rfl, rfl⟩
      · have schedule : s.schedule = .continuous none := by
          simp [schedule, pace, capped, positive, Option.filter]
        rw [schedule]
        exact .inl ⟨by simp [Crawls, capped, positive], _, rfl⟩

theorem readable_read {δ : Type} [GraphicsDevice δ] {c : ReadConfig} {stack : Stack} {w : World δ}
    (valid : c.validate (c.width.getD stack.width) (c.height.getD stack.height) = .ok ()) :
    (stack.read c).Ends w (fun _ _ => True) fun e w' =>
      e = .resource (.incompleteReadback c.internalFormat) ∨
        ∃ a, Event.allocation a (.error e) ∈ w'.events.drop w.events.length := by
  rw [Stack.ends_read]
  simp only [valid]
  rw [Stack.ends_bindTarget]
  split
  · trivial
  · rw [Stack.ends_makeTarget]
    constructor
    · intro renderbuffer _
      constructor
      · intro framebuffer _
        dsimp only
        split
        · exact .inl rfl
        · trivial
      · intro e refused
        exact .inr ⟨.framebuffer, by simp [refused]⟩
    · intro e refused
      exact .inr ⟨.renderbuffer, by simp [refused]⟩

/-- Settings that pass their check can be used, whatever they combine; only a cap of `2 ^ (-64)` or
less has no driver. -/
theorem usable_of_accepted (accepted : s.validate = .ok ()) : s.Usable := by
  obtain ⟨rate, readback⟩ := of_validate accepted
  constructor
  · rcases make_cases rate with ⟨fast, made⟩ | ⟨crawls, fps, _, failed⟩
    · exact iff_of_true made fast
    · apply iff_of_false
      · rintro ⟨d, made⟩
        simp [failed] at made
      · exact not_not.mpr crawls
  · intro e failed
    rcases make_cases rate with ⟨_, d, made⟩ | ⟨_, fps, capped, failed'⟩
    · simp [made] at failed
    · rw [failed'] at failed
      exact ⟨fps, capped, (Except.error.inj failed).symm⟩
  · intro δ _ stack w wide high
    have valid := readable_of_accepted readback wide high
    exact ⟨valid, readable_read valid⟩

/-- Thirty frames in a second, read as floats. -/
def filmed : Settings :=
  { stack := { pace := .continuous, fps := some ⟨0x41f00000⟩ }
    readback := { internalFormat := .rgba16f, dataType := .float } }

theorem filmed_usable : filmed.validate = .ok () ∧ filmed.Usable ∧
    ∃ d, FrameDriver.make filmed.schedule = .ok d := by
  have accepted : filmed.validate = .ok () := by decide +kernel
  have usable := usable_of_accepted accepted
  exact ⟨accepted, usable, _, rfl⟩

/-- Some `10 ^ (-20)` frames in a second. -/
def crawling : Settings := { stack := { pace := .continuous, fps := some ⟨0x1e3ce508⟩ } }

/-- The cap passes the check of the settings, but no driver can be made for it. -/
theorem crawling_has_no_driver : crawling.validate = .ok () ∧
    ¬ ∃ d, FrameDriver.make crawling.schedule = .ok d := by
  have failed : FrameDriver.make crawling.schedule = .error (.unboundedInterval ⟨0x1e3ce508⟩) := by
    decide +kernel
  exact ⟨by decide +kernel, by simp [failed]⟩

end Settings
end ShaderStack

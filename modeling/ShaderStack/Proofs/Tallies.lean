import ShaderStack.Device.Log
import ShaderStack.Device.Request
import Mathlib.Algebra.BigOperators.Group.List.Basic

/-! The totals of a recording device, and the log that it keeps beside them.

Each call adds what it costs to the totals and its entries to the log, and the cost is the count of those
entries. So the totals are those of the log after any calls, and what was counted over stretches of a
recording adds up. -/
namespace ShaderStack

attribute [ext] CallStats

namespace CallStats

instance : Zero CallStats := ⟨{}⟩

instance : Add CallStats where
  add a b :=
    { links := a.links + b.links
      bufferUploads := a.bufferUploads + b.bufferUploads
      textureUploads := a.textureUploads + b.textureUploads
      uniformPushes := a.uniformPushes + b.uniformPushes
      vertexPointers := a.vertexPointers + b.vertexPointers
      draws := a.draws + b.draws
      framebuffers := a.framebuffers + b.framebuffers
      reads := a.reads + b.reads }

variable (a b : CallStats)

section Fields

@[simp] theorem links_add : (a + b).links = a.links + b.links := rfl
@[simp] theorem bufferUploads_add :
    (a + b).bufferUploads = a.bufferUploads + b.bufferUploads := rfl
@[simp] theorem textureUploads_add :
    (a + b).textureUploads = a.textureUploads + b.textureUploads := rfl
@[simp] theorem uniformPushes_add :
    (a + b).uniformPushes = a.uniformPushes + b.uniformPushes := rfl
@[simp] theorem vertexPointers_add :
    (a + b).vertexPointers = a.vertexPointers + b.vertexPointers := rfl
@[simp] theorem draws_add : (a + b).draws = a.draws + b.draws := rfl
@[simp] theorem framebuffers_add : (a + b).framebuffers = a.framebuffers + b.framebuffers := rfl
@[simp] theorem reads_add : (a + b).reads = a.reads + b.reads := rfl

end Fields

instance : AddCommMonoid CallStats where
  add_assoc a b c := by ext <;> exact Nat.add_assoc ..
  zero_add a := by ext <;> exact Nat.zero_add _
  add_zero a := by ext <;> exact Nat.add_zero _
  add_comm a b := by ext <;> exact Nat.add_comm ..
  nsmul := nsmulRec

/-- What was counted since is what was added. -/
@[simp] theorem since_add : (a + b).since a = b := by
  ext <;> exact Nat.add_sub_cancel_left ..

@[simp] theorem since_self : a.since a = {} := by
  ext <;> exact Nat.sub_self _

end CallStats

namespace LogEntry

/-- An image that came with pixels. -/
def hasPixels (e : LogEntry) : Bool :=
  e.name = "TexImage2D" &&
    match e.arguments with
    | [_, .flag uploaded] => uploaded
    | _ => false

def isUniform (e : LogEntry) : Bool := e.name ∈ ["UniformF32", "UniformI32", "UniformMatrix"]

def isDraw (e : LogEntry) : Bool := e.name ∈ ["DrawArrays", "DrawElements"]

/-- What an entry counts for. -/
def cost (e : LogEntry) : CallStats :=
  { links := if e.name = "LinkProgram" then 1 else 0
    bufferUploads := if e.name = "BufferData" then 1 else 0
    textureUploads := if e.hasPixels then 1 else 0
    uniformPushes := if e.isUniform then 1 else 0
    vertexPointers := if e.name = "VertexAttribPointer" then 1 else 0
    draws := if e.isDraw then 1 else 0
    reads := if e.name = "ReadPixels" then 1 else 0 }

end LogEntry

/-- What a command counts for: its entry, if it leaves one. -/
def Command.cost (c : Command) : CallStats := (c.brief?.map LogEntry.cost).getD 0

/-- The totals are the numbers of entries of their kinds. Framebuffers leave no entry. -/
structure CallStats.Tallies (s : CallStats) (entries : List LogEntry) : Prop where
  links : s.links = entries.countP (·.name = "LinkProgram")
  bufferUploads : s.bufferUploads = entries.countP (·.name = "BufferData")
  textureUploads : s.textureUploads = entries.countP LogEntry.hasPixels
  uniformPushes : s.uniformPushes = entries.countP LogEntry.isUniform
  vertexPointers : s.vertexPointers = entries.countP (·.name = "VertexAttribPointer")
  draws : s.draws = entries.countP LogEntry.isDraw
  reads : s.reads = entries.countP (·.name = "ReadPixels")

namespace CallStats

variable {a b : CallStats} {es fs : List LogEntry}

theorem tallies_nil (framebuffers : Nat) : Tallies { framebuffers } [] :=
  ⟨rfl, rfl, rfl, rfl, rfl, rfl, rfl⟩

theorem tallies_singleton (e : LogEntry) : e.cost.Tallies [e] := by
  constructor <;> simp [LogEntry.cost, List.countP_singleton]

theorem Tallies.add (first : a.Tallies es) (second : b.Tallies fs) : (a + b).Tallies (es ++ fs) := by
  constructor <;> simp only [List.countP_append, links_add, bufferUploads_add, textureUploads_add,
    uniformPushes_add, vertexPointers_add, draws_add, reads_add]
  · rw [first.links, second.links]
  · rw [first.bufferUploads, second.bufferUploads]
  · rw [first.textureUploads, second.textureUploads]
  · rw [first.uniformPushes, second.uniformPushes]
  · rw [first.vertexPointers, second.vertexPointers]
  · rw [first.draws, second.draws]
  · rw [first.reads, second.reads]

end CallStats

namespace RecordingDevice

variable {d : RecordingDevice}

/-- The log as it is shown. -/
def entries (d : RecordingDevice) : List LogEntry := d.log.toList.filterMap Event.brief?

theorem entries_record {e : Event} : (d.record e).entries = d.entries ++ e.brief?.toList := by
  simp only [entries, record, Array.toList_push, List.filterMap_append]
  cases shown : e.brief? <;> simp [shown]

/-- A command is recorded exactly if it has an entry, and counts for that entry. -/
theorem countCommand_eq (c : Command) (s : CallStats) : countCommand c s = s + c.cost := by
  cases c with
  | uniform location push => cases push <;> rfl
  | textureImage image pixels => cases pixels <;> rfl
  | _ => rfl

theorem recordsCommand_eq (c : Command) : recordsCommand c = c.brief?.isSome := by
  cases c with
  | uniform location push => cases push <;> rfl
  | _ => rfl

theorem tallies_command (c : Command) : c.cost.Tallies c.brief?.toList := by
  unfold Command.cost
  cases c.brief? with
  | none => exact CallStats.tallies_nil 0
  | some e => exact CallStats.tallies_singleton e

/-- What a device went through between two moments without a reset: its totals grew by a cost, and its log
by the entries that the cost tallies. -/
def Adds (d d' : RecordingDevice) : Prop :=
  ∃ cost entries, d'.stats = d.stats + cost ∧ d'.entries = d.entries ++ entries ∧ cost.Tallies entries

theorem Adds.refl (d : RecordingDevice) : d.Adds d :=
  ⟨0, [], (add_zero _).symm, (List.append_nil _).symm, CallStats.tallies_nil 0⟩

theorem Adds.trans {d₁ d₂ : RecordingDevice} (first : d.Adds d₁) (second : d₁.Adds d₂) :
    d.Adds d₂ := by
  obtain ⟨cost, entries, stats, log, tallies⟩ := first
  obtain ⟨cost', entries', stats', log', tallies'⟩ := second
  refine ⟨cost + cost', entries ++ entries', ?_, ?_, tallies.add tallies'⟩
  · rw [stats', stats, add_assoc]
  · rw [log', log, List.append_assoc]

theorem Adds.tallies {d' : RecordingDevice} (run : d.Adds d') (tallies : d.stats.Tallies d.entries) :
    d'.stats.Tallies d'.entries := by
  obtain ⟨cost, entries, stats, log, more⟩ := run
  rw [stats, log]
  exact tallies.add more

theorem stats_command {c : Command} : (d.command c).stats = d.stats + c.cost := by
  rw [← countCommand_eq]
  cases c <;> rfl

theorem log_command {c : Command} :
    (d.command c).log = if recordsCommand c then d.log.push (.command c) else d.log := by
  cases c <;> rfl

theorem entries_command {c : Command} : (d.command c).entries = d.entries ++ c.brief?.toList := by
  unfold entries
  rw [log_command, recordsCommand_eq]
  cases shown : c.brief? with
  | none => simp
  | some e => simp [Event.brief?, shown]

theorem adds_command (c : Command) (d : RecordingDevice) : d.Adds (d.command c) :=
  ⟨_, _, stats_command, entries_command, tallies_command c⟩

/-- Only a program that was built counts as a link, and only it is recorded. -/
theorem adds_allocate (a : Allocation) (d : RecordingDevice) : d.Adds (d.allocate a).2 := by
  cases a with
  | program vertex fragment =>
    cases built : Linkage.build vertex fragment with
    | error e =>
      simp only [allocate, built]
      exact Adds.refl d
    | ok linkage =>
      simp only [allocate, built]
      refine ⟨{ links := 1 }, _, rfl, entries_record, ?_⟩
      exact CallStats.tallies_singleton ⟨"LinkProgram", [.natural d.nextHandle]⟩
  | framebuffer =>
    exact ⟨{ framebuffers := 1 }, [], rfl, (List.append_nil _).symm, CallStats.tallies_nil 1⟩
  | _ => exact ⟨0, [], (add_zero _).symm, (List.append_nil _).symm, CallStats.tallies_nil 0⟩

theorem adds_read (r : PixelRead) (d : RecordingDevice) : d.Adds (d.read r).2 := by
  refine ⟨{ reads := 1 }, _, rfl, entries_record, ?_⟩
  exact CallStats.tallies_singleton ⟨"ReadPixels", [.natural r.width.toNat, .natural r.height.toNat]⟩

theorem adds_perform (r : Request) (d : RecordingDevice) : d.Adds (r.perform d).2 := by
  cases r with
  | allocate a => exact adds_allocate a d
  | lookup l => exact Adds.refl d
  | probe p => exact Adds.refl d
  | command c => exact adds_command c d
  | read r fill => exact adds_read r d

/-- A call on a recording device, or a reset of its recording. -/
inductive Step
  | call (request : Request)
  | reset

def step (d : RecordingDevice) : Step → RecordingDevice
  | .call request => (request.perform d).2
  | .reset => d.reset

def run (steps : List Step) (d : RecordingDevice) : RecordingDevice := steps.foldl step d

/-- The device after some calls without a reset. -/
def serve (requests : List Request) (d : RecordingDevice) : RecordingDevice :=
  d.run (requests.map .call)

theorem tallies_step (tallies : d.stats.Tallies d.entries) (s : Step) :
    (d.step s).stats.Tallies (d.step s).entries := by
  cases s with
  | call request => exact (adds_perform request d).tallies tallies
  | reset => exact CallStats.tallies_nil 0

theorem tallies_run (tallies : d.stats.Tallies d.entries) (steps : List Step) :
    (d.run steps).stats.Tallies (d.run steps).entries := by
  induction steps generalizing d with
  | nil => exact tallies
  | cons s steps ih => exact ih (tallies_step tallies s)

theorem adds_serve (requests : List Request) (d : RecordingDevice) : d.Adds (d.serve requests) := by
  induction requests generalizing d with
  | nil => exact Adds.refl d
  | cons request requests ih => exact (adds_perform request d).trans (ih _)

/-- What each of some consecutive stretches of calls added to the totals. -/
def differences (d : RecordingDevice) : List (List Request) → List CallStats
  | [] => []
  | requests :: later =>
    (d.serve requests).stats.since d.stats :: (d.serve requests).differences later

theorem serve_append (early late : List Request) :
    d.serve (early ++ late) = (d.serve early).serve late := by
  simp [serve, run]

theorem sum_differences (stretches : List (List Request)) (d : RecordingDevice) :
    (d.serve stretches.flatten).stats = d.stats + (d.differences stretches).sum := by
  induction stretches generalizing d with
  | nil => exact (add_zero _).symm
  | cons requests later ih =>
    obtain ⟨cost, _, stats, _⟩ := adds_serve requests d
    rw [List.flatten_cons, serve_append, ih, differences, List.sum_cons, stats, CallStats.since_add,
      add_assoc]

end RecordingDevice
end ShaderStack

import ShaderStack.Render.UpdateQueue
import ShaderStack.Proofs.Association
import Mathlib.Data.List.Induction
import Mathlib.Data.List.Nodup

/-! What an update queue holds and runs, in terms of the calls that it got.

The calls are numbered, and each closure carries the number of the call that registered it, so that its runs
can be told from those of another closure in the same slot. The numbers change nothing: a queue without them
goes through the same states. The calls alone say which closures a queue holds and in which order, and the
runs until then say in which state each one is. -/
namespace ShaderStack

/-- What is done with a queue. A flush happens in some context, which may be another each time. -/
inductive QueueCall (W α : Type)
  | register (slot : BindingSlot) (update : α)
  | flush (context : W)

namespace QueueCall

variable {W α : Type} {calls : List (QueueCall W α)} {slot : BindingSlot} {update : α} {i : Nat}

def slot? : QueueCall W α → Option BindingSlot
  | .register slot _ => some slot
  | .flush _ => none

/-- The slots of the registrations, as they were made. -/
def slots (calls : List (QueueCall W α)) : List BindingSlot := calls.filterMap slot?

/-- A call registered this update for a slot, and no later one registers the slot again. -/
structure Survives (calls : List (QueueCall W α)) (slot : BindingSlot) (i : Nat) (update : α) :
    Prop where
  registered : calls[i]? = some (.register slot update)
  last : ∀ c ∈ calls.drop (i + 1), c.slot? ≠ some slot

theorem Survives.lt_length (survives : Survives calls slot i update) : i < calls.length :=
  (List.getElem?_eq_some_iff.mp survives.registered).choose

theorem Survives.mem_slots (survives : Survives calls slot i update) : slot ∈ slots calls :=
  List.mem_filterMap.mpr ⟨_, List.mem_of_getElem? survives.registered, rfl⟩

/-- A registration survives a call for another slot, and a flush. -/
theorem Survives.snoc (survives : Survives calls slot i update) {c : QueueCall W α}
    (other : c.slot? ≠ some slot) : Survives (calls ++ [c]) slot i update := by
  have bound := survives.lt_length
  constructor
  · rw [List.getElem?_append_left bound, survives.registered]
  · rw [List.drop_append_of_le_length bound]
    intro d member
    rcases List.mem_append.mp member with old | new
    · exact survives.last d old
    · rw [List.mem_singleton.mp new]
      exact other

theorem survives_last : Survives (calls ++ [.register slot update]) slot calls.length update :=
  ⟨List.getElem?_concat_length, by simp⟩

/-- Each slot has one surviving registration at most. -/
theorem Survives.le {j : Nat} {other : α} (one : Survives calls slot i update)
    (two : Survives calls slot j other) : j ≤ i := by
  by_contra later
  have position : i + 1 + (j - (i + 1)) = j := by omega
  have member : (.register slot other) ∈ calls.drop (i + 1) := by
    apply List.mem_of_getElem? (i := j - (i + 1))
    rw [List.getElem?_drop, position, two.registered]
  exact one.last _ member rfl

theorem Survives.unique {j : Nat} {other : α} (one : Survives calls slot i update)
    (two : Survives calls slot j other) : i = j :=
  Nat.le_antisymm (two.le one) (one.le two)

end QueueCall

/-- A closure in a queue: the number of the call that registered it, and its state. -/
structure QueueClosure (α : Type) where
  call : Nat
  state : α

/-- One run of a closure: the state that it found, and the state that it left. -/
structure ClosureRun (α : Type) where
  call : Nat
  found : α
  left : α

namespace ClosureRun

variable {W α : Type} {runs : List (ClosureRun α)} {registered : α} {call : Nat}

/-- The state of a closure: as its last run left it, or as it was registered. -/
def stateAfter (runs : List (ClosureRun α)) (call : Nat) (registered : α) : α :=
  ((runs.filter (·.call = call)).getLast?.map left).getD registered

theorem stateAfter_of_unseen (unseen : ∀ r ∈ runs, r.call ≠ call) :
    stateAfter runs call registered = registered := by
  have none : runs.filter (·.call = call) = [] := by simpa using unseen
  simp [stateAfter, none]

/-- The last of all runs decides. -/
theorem stateAfter_append {r : ClosureRun α} {later : List (ClosureRun α)} (member : r ∈ later)
    (distinct : (later.map ClosureRun.call).Nodup) :
    stateAfter (runs ++ later) r.call registered = r.left := by
  have here : r ∈ later.filter (·.call = r.call) := by simpa using member
  have nonempty := List.ne_nil_of_mem here
  have lastOne : (later.filter (·.call = r.call)).getLast? = some r := by
    rw [List.getLast?_eq_some_getLast nonempty]
    obtain ⟨among, same⟩ := List.mem_filter.mp (List.getLast_mem nonempty)
    exact congrArg some (List.inj_on_of_nodup_map distinct among member (of_decide_eq_true same))
  simp [stateAfter, List.getLast?_append, lastOne]

/-- Runs one after another, each in the context that the one before it left. -/
inductive InTurn (run : α → StateM W α) : List (ClosureRun α) → W → W → Prop
  | nil {context : W} : InTurn run [] context context
  | cons {r : ClosureRun α} {rest : List (ClosureRun α)} {start next finish : W}
      (here : run r.found start = (r.left, next)) (later : InTurn run rest next finish) :
      InTurn run (r :: rest) start finish

end ClosureRun

open ClosureRun QueueCall

/-- A queue of numbered closures, and all of their runs so far. -/
structure QueueSession (α : Type) where
  queue : UpdateQueue (QueueClosure α) := {}
  calls : Nat := 0
  runs : List (ClosureRun α) := []

namespace QueueSession

variable {W α : Type} {run : α → StateM W α} {calls : List (QueueCall W α)} {s : QueueSession α}

/-- Runs a closure, and notes that it did. -/
def watch (run : α → StateM W α) (c : QueueClosure α) :
    StateM (W × List (ClosureRun α)) (QueueClosure α) :=
  fun (context, runs) =>
    let (left, context) := run c.state context
    ({ c with state := left }, (context, runs ++ [⟨c.call, c.state, left⟩]))

/-- Flushes the queue, and gives what ran and the context afterwards. -/
def flush (run : α → StateM W α) (context : W) (s : QueueSession α) :
    UpdateQueue (QueueClosure α) × W × List (ClosureRun α) :=
  s.queue.flush (watch run) (context, [])

def perform (run : α → StateM W α) (s : QueueSession α) : QueueCall W α → QueueSession α
  | .register slot update =>
    { s with queue := (s.queue.register slot ⟨s.calls, update⟩).2, calls := s.calls + 1 }
  | .flush context =>
    let (queue, _, runs) := s.flush run context
    { queue, calls := s.calls + 1, runs := s.runs ++ runs }

def after (run : α → StateM W α) (calls : List (QueueCall W α)) : QueueSession α :=
  calls.foldl (perform run) {}

/-- The queue as it is without numbers. -/
def plain (s : QueueSession α) : UpdateQueue α := ⟨s.queue.entries.map (Prod.map id QueueClosure.state)⟩

theorem slots_plain : s.plain.slots = s.queue.slots := List.map_map

/-- What a call does to a queue without numbers. -/
def performPlain (run : α → StateM W α) (queue : UpdateQueue α) : QueueCall W α → UpdateQueue α
  | .register slot update => (queue.register slot update).2
  | .flush context => (queue.flush run context).1

def plainAfter (run : α → StateM W α) (calls : List (QueueCall W α)) : UpdateQueue α :=
  calls.foldl (performPlain run) {}

theorem plainAfter_snoc {call : QueueCall W α} :
    plainAfter run (calls ++ [call]) = performPlain run (plainAfter run calls) call :=
  List.foldl_concat ..

/-- The entries after a flush, each closure as it was left. -/
def leftEntries (turns : List (BindingSlot × ClosureRun α)) : List (BindingSlot × QueueClosure α) :=
  turns.map fun t => (t.1, ⟨t.2.call, t.2.left⟩)

/-- What a flush does, with a slot and a run for each entry. -/
structure Flushes (run : α → StateM W α) (entries : List (BindingSlot × QueueClosure α)) (context : W)
    (turns : List (BindingSlot × ClosureRun α)) (context' : W) : Prop where
  finds : entries = turns.map fun t => (t.1, ⟨t.2.call, t.2.found⟩)
  inTurn : InTurn run (turns.map Prod.snd) context context'
  plainly : UpdateQueue.flushEntries run (entries.map (Prod.map id QueueClosure.state)) context =
    (turns.map (Prod.map id left), context')
  watched : ∀ past, UpdateQueue.flushEntries (watch run) entries (context, past) =
    (leftEntries turns, (context', past ++ turns.map Prod.snd))

section StateMonad

variable {σ β : Type} {f : β → StateM σ β} {u : β} {rest : List (BindingSlot × β)} {start : σ}

theorem flushEntries_cons {slot : BindingSlot} :
    UpdateQueue.flushEntries f ((slot, u) :: rest) start =
      ((slot, (f u start).1) :: (UpdateQueue.flushEntries f rest (f u start).2).1,
        (UpdateQueue.flushEntries f rest (f u start).2).2) := rfl

end StateMonad

theorem watch_apply {c : QueueClosure α} {context : W} {past : List (ClosureRun α)} :
    watch run c (context, past) =
      (⟨c.call, (run c.state context).1⟩,
        ((run c.state context).2, past ++ [⟨c.call, c.state, (run c.state context).1⟩])) := rfl

theorem exists_flushes (run : α → StateM W α) (entries : List (BindingSlot × QueueClosure α))
    (context : W) : ∃ turns context', Flushes run entries context turns context' := by
  induction entries generalizing context with
  | nil =>
    refine ⟨[], context, rfl, .nil, rfl, fun past => ?_⟩
    rw [List.map_nil, List.append_nil]
    rfl
  | cons entry rest ih =>
    obtain ⟨slot, closure⟩ := entry
    obtain ⟨turns, context', later⟩ := ih (run closure.state context).2
    let first : ClosureRun α := ⟨closure.call, closure.state, (run closure.state context).1⟩
    refine ⟨(slot, first) :: turns, context', ?_, .cons rfl later.inTurn, ?_, ?_⟩
    · rw [List.map_cons, ← later.finds]
    · rw [List.map_cons, Prod.map_apply, flushEntries_cons, later.plainly]
      rfl
    · intro past
      rw [flushEntries_cons, watch_apply, later.watched, List.append_assoc]
      rfl

namespace Flushes

variable {context context' : W} {turns : List (BindingSlot × ClosureRun α)}

theorem flush_eq (flushes : Flushes run s.queue.entries context turns context') :
    s.flush run context = (⟨leftEntries turns⟩, context', turns.map Prod.snd) := by
  have all := flushes.watched []
  rw [List.nil_append] at all
  rw [QueueSession.flush, UpdateQueue.flush]
  change ((⟨_⟩ : UpdateQueue (QueueClosure α)), _) = _
  rw [all]

theorem plain_flush_eq (flushes : Flushes run s.queue.entries context turns context') :
    s.plain.flush run context = (⟨turns.map (Prod.map id left)⟩, context') := by
  rw [UpdateQueue.flush]
  change ((⟨_⟩ : UpdateQueue α), _) = _
  rw [plain, flushes.plainly]

/-- The closures of the entries run in the order of the entries. -/
theorem calls_eq (flushes : Flushes run s.queue.entries context turns context') :
    (turns.map Prod.snd).map ClosureRun.call = s.queue.entries.map (·.2.call) := by
  rw [flushes.finds, List.map_map, List.map_map]
  rfl

theorem slots_eq (flushes : Flushes run s.queue.entries context turns context') :
    (UpdateQueue.mk (leftEntries turns)).slots = s.queue.slots := by
  rw [UpdateQueue.slots, UpdateQueue.slots, flushes.finds, leftEntries, List.map_map, List.map_map]
  rfl

end Flushes

/-- What the calls say about a session. -/
structure Follows (run : α → StateM W α) (calls : List (QueueCall W α)) (s : QueueSession α) :
    Prop where
  numbered : s.calls = calls.length
  plain : s.plain = plainAfter run calls
  /-- There is an entry for each slot that was registered. -/
  slots : ∀ slot, slot ∈ s.queue.slots ↔ slot ∈ QueueCall.slots calls
  /-- The entries are in the order of the first registrations. -/
  ordered : s.queue.slots.Pairwise fun a b =>
    (QueueCall.slots calls).idxOf a < (QueueCall.slots calls).idxOf b
  /-- An entry is the last registration of its slot, in the state that it was left in last. -/
  entries : ∀ entry ∈ s.queue.entries, ∃ update,
    Survives calls entry.1 entry.2.call update ∧
      entry.2.state = stateAfter s.runs entry.2.call update
  /-- Nothing runs before it is registered. -/
  runs : ∀ r ∈ s.runs, r.call < calls.length

namespace Follows

variable {context : W} {turns : List (BindingSlot × ClosureRun α)} {context' : W}

theorem nodup (follows : Follows run calls s) : s.queue.slots.Nodup :=
  follows.ordered.imp fun earlier same => by
    rw [same] at earlier
    exact Nat.lt_irrefl _ earlier

/-- No two entries are the closure of one call. -/
theorem nodup_calls (follows : Follows run calls s) : (s.queue.entries.map (·.2.call)).Nodup := by
  rw [List.Nodup, List.pairwise_map]
  have distinct := List.pairwise_map.mp follows.nodup
  refine (List.Pairwise.and_mem.mp distinct).imp ?_
  rintro e f ⟨one, two, apart⟩ same
  obtain ⟨_, first, _⟩ := follows.entries e one
  obtain ⟨_, second, _⟩ := follows.entries f two
  have equal := first.registered.symm.trans (same ▸ second.registered)
  injection equal with equal
  injection equal with equal
  exact apart equal

/-- The closures in the queue are the surviving ones. -/
theorem mem_calls_iff (follows : Follows run calls s) {i : Nat} :
    i ∈ s.queue.entries.map (·.2.call) ↔ ∃ slot update, Survives calls slot i update := by
  constructor
  · intro member
    obtain ⟨entry, there, rfl⟩ := List.mem_map.mp member
    obtain ⟨update, survives, _⟩ := follows.entries entry there
    exact ⟨entry.1, update, survives⟩
  · rintro ⟨slot, update, survives⟩
    obtain ⟨entry, there, rfl⟩ := List.mem_map.mp ((follows.slots slot).mpr survives.mem_slots)
    obtain ⟨_, present, _⟩ := follows.entries entry there
    exact List.mem_map.mpr ⟨entry, there, present.unique survives⟩

theorem empty : Follows run [] ({} : QueueSession α) where
  numbered := rfl
  plain := rfl
  slots _ := Iff.rfl
  ordered := .nil
  entries _ member := absurd member List.not_mem_nil
  runs _ member := absurd member List.not_mem_nil

/-- A new slot comes last, and a known one keeps its place. -/
theorem register (follows : Follows run calls s) (slot : BindingSlot) (update : α) :
    Follows run (calls ++ [.register slot update]) (s.perform run (.register slot update)) := by
  have registered : QueueCall.slots (calls ++ [QueueCall.register (W := W) slot update]) =
    QueueCall.slots calls ++ [slot] := List.filterMap_append
  have keys : (s.perform run (.register slot update)).queue.slots =
    if slot ∈ s.queue.slots then s.queue.slots else s.queue.slots ++ [slot] := keys_assign
  constructor
  · simp [perform, follows.numbered]
  · rw [plainAfter_snoc, ← follows.plain]
    exact congrArg UpdateQueue.mk assign_map
  · intro other
    rw [keys, registered, List.mem_append, List.mem_singleton, ← follows.slots]
    split
    · next known => exact ⟨.inl, fun member => member.elim id fun same => same ▸ known⟩
    · rw [List.mem_append, List.mem_singleton]
  · rw [keys, registered]
    have old : ∀ a ∈ s.queue.slots, (QueueCall.slots calls ++ [slot]).idxOf a =
        (QueueCall.slots calls).idxOf a := fun a member =>
      List.idxOf_append_of_mem ((follows.slots a).mp member)
    have kept : s.queue.slots.Pairwise fun a b =>
        (QueueCall.slots calls ++ [slot]).idxOf a < (QueueCall.slots calls ++ [slot]).idxOf b := by
      refine (List.Pairwise.and_mem.mp follows.ordered).imp ?_
      rintro a b ⟨one, two, earlier⟩
      rw [old a one, old b two]
      exact earlier
    split
    · exact kept
    · next new =>
      refine List.pairwise_append.mpr ⟨kept, List.pairwise_singleton .., ?_⟩
      intro a member b here
      rw [List.mem_singleton.mp here, old a member,
        List.idxOf_append_of_notMem (fun there => new ((follows.slots slot).mpr there))]
      have bound := List.idxOf_lt_length_of_mem ((follows.slots a).mp member)
      omega
  · intro entry member
    rcases mem_assign follows.nodup member with rfl | ⟨there, apart⟩
    · refine ⟨update, ?_, ?_⟩
      · rw [follows.numbered]
        exact survives_last
      · refine (stateAfter_of_unseen fun r ran same => ?_).symm
        have bound := follows.runs r ran
        rw [same, follows.numbered] at bound
        exact Nat.lt_irrefl _ bound
    · obtain ⟨first, survives, state⟩ := follows.entries entry there
      refine ⟨first, survives.snoc fun same => apart ?_, state⟩
      exact (Option.some.inj same).symm
  · intro r ran
    rw [List.length_append]
    exact Nat.lt_add_right _ (follows.runs r ran)

theorem flush (follows : Follows run calls s) (context : W) :
    Follows run (calls ++ [.flush context]) (s.perform run (.flush context)) := by
  obtain ⟨turns, context', flushes⟩ := exists_flushes run s.queue.entries context
  have performed : s.perform run (.flush context) =
      ⟨⟨leftEntries turns⟩, s.calls + 1, s.runs ++ turns.map Prod.snd⟩ := by
    rw [perform, flushes.flush_eq]
  have registered : QueueCall.slots (calls ++ [.flush (α := α) context]) = QueueCall.slots calls := by
    rw [QueueCall.slots, List.filterMap_append]
    exact List.append_nil _
  have keys : (UpdateQueue.mk (leftEntries turns)).slots = s.queue.slots := flushes.slots_eq
  rw [performed]
  constructor
  · rw [List.length_append, follows.numbered]
    rfl
  · rw [plainAfter_snoc, performPlain, ← follows.plain, flushes.plain_flush_eq]
    exact congrArg UpdateQueue.mk List.map_map
  · rw [keys, registered]
    exact follows.slots
  · rw [keys, registered]
    exact follows.ordered
  · intro entry member
    obtain ⟨t, turn, rfl⟩ := List.mem_map.mp member
    have there : (t.1, ⟨t.2.call, t.2.found⟩) ∈ s.queue.entries := by
      rw [flushes.finds]
      exact List.mem_map_of_mem turn
    obtain ⟨update, survives, _⟩ := follows.entries _ there
    refine ⟨update, survives.snoc (Option.some_ne_none _).symm, ?_⟩
    have distinct := follows.nodup_calls
    rw [← flushes.calls_eq] at distinct
    exact (stateAfter_append (List.mem_map_of_mem turn) distinct).symm
  · intro r ran
    rw [List.length_append]
    rcases List.mem_append.mp ran with old | new
    · exact Nat.lt_add_right _ (follows.runs r old)
    · have among := List.mem_map_of_mem (f := ClosureRun.call) new
      rw [flushes.calls_eq] at among
      obtain ⟨slot, update, survives⟩ := follows.mem_calls_iff.mp among
      exact Nat.lt_add_right _ survives.lt_length

theorem perform (follows : Follows run calls s) (call : QueueCall W α) :
    Follows run (calls ++ [call]) (s.perform run call) := by
  cases call with
  | register slot update => exact follows.register slot update
  | flush context => exact follows.flush context

/-- Each call keeps to what the calls say, so all of them do. -/
theorem after (run : α → StateM W α) (calls : List (QueueCall W α)) :
    Follows run calls (QueueSession.after run calls) := by
  induction calls using List.reverseRecOn with
  | nil => exact empty
  | append_singleton calls call ih =>
    rw [QueueSession.after, List.foldl_append]
    exact ih.perform call

end Follows

/-- A flush from here: what the queue becomes, the context that is left, and the runs. -/
structure RunsSurvivors (run : α → StateM W α) (calls : List (QueueCall W α)) (s : QueueSession α)
    (context : W) (queue : UpdateQueue (QueueClosure α)) (context' : W) (runs : List (ClosureRun α)) :
    Prop where
  /-- The closures of the entries run in the order of the entries, from the states that they are in. -/
  found : runs.map (fun r => ⟨r.call, r.found⟩) = s.queue.entries.map Prod.snd
  /-- The entries keep the states that their closures were left in. -/
  left : runs.map (fun r => ⟨r.call, r.left⟩) = queue.entries.map Prod.snd
  slots : queue.slots = s.queue.slots
  once : (runs.map ClosureRun.call).Nodup
  survivors : ∀ i, i ∈ runs.map ClosureRun.call ↔ ∃ slot update, Survives calls slot i update
  inTurn : InTurn run runs context context'
  plainly : ((plainAfter run calls).flush run context).2 = context'

theorem Follows.runsSurvivors (follows : Follows run calls s) (context : W) :
    let (queue, context', runs) := s.flush run context
    RunsSurvivors run calls s context queue context' runs := by
  obtain ⟨turns, context', flushes⟩ := exists_flushes run s.queue.entries context
  rw [flushes.flush_eq]
  constructor
  · rw [flushes.finds, List.map_map, List.map_map]
    rfl
  · rw [leftEntries, List.map_map, List.map_map]
    rfl
  · exact flushes.slots_eq
  · rw [flushes.calls_eq]
    exact follows.nodup_calls
  · intro i
    rw [flushes.calls_eq]
    exact follows.mem_calls_iff
  · exact flushes.inTurn
  · rw [← follows.plain, flushes.plain_flush_eq]

/-- After any calls a queue holds what the calls say. The next registration answers whether its slot was
registered before, and the next flush runs each surviving closure once. -/
theorem queue_is_ordered_map (run : α → StateM W α) (calls : List (QueueCall W α)) :
    let s := after run calls
    Follows run calls s ∧
      (∀ slot update, ((plainAfter run calls).register slot update).1 = true ↔
        slot ∈ QueueCall.slots calls) ∧
      ∀ context,
        let (queue, context', runs) := s.flush run context
        RunsSurvivors run calls s context queue context' runs := by
  intro s
  have follows : Follows run calls s := Follows.after run calls
  refine ⟨follows, fun slot update => ?_, follows.runsSurvivors⟩
  rw [UpdateQueue.register, List.contains_iff_mem, ← follows.plain, slots_plain]
  exact follows.slots slot

end QueueSession
end ShaderStack

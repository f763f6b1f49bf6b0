import ShaderStack.Proofs.Uploads

/-! The slot that each token of a program is bound to.

A token asks the linked program for the location of its name, and the answer names the slot. The
answers stand on the trace in the order of the tokens. Where tokens share a slot, the last one counts. -/
namespace ShaderStack

def Event.lookup? : Event → Option (Lookup × Option Location)
  | lookup l answer => some (l, answer)
  | _ => none

/-- What was looked up, with the answers. -/
def lookups (es : List Event) : List (Lookup × Option Location) := es.filterMap Event.lookup?

namespace NamedToken

/-- What a token looks up. Index buffers and scope references have no input. -/
def asks (program : Handle) (n : NamedToken) : Option Lookup :=
  match n.token.kind with
  | .vertexAttribute t =>
    match t.options.target with
    | .array => some (.attributeLocation program n.name)
    | .elementArray => none
  | .uniform _ | .sampler _ => some (.uniformLocation program n.name)
  | .scope _ => none

/-- The slot that a token takes, given the location of its input. -/
def slot? (n : NamedToken) (location : Option Location) : Option BindingSlot :=
  match n.token.kind with
  | .vertexAttribute t =>
    match t.options.target with
    | .array => location.map .vertexAttribute
    | .elementArray => some .elements
  | .uniform _ | .sampler _ => location.map .uniform
  | .scope _ => none

/-- A token at its slot, with the answer to what it asked first. -/
def bound (program : Handle) (n : NamedToken) (answers : List (Lookup × Option Location)) :
    List (BindingSlot × Token) :=
  let location := answers.head?.bind fun a => if n.asks program = some a.1 then a.2 else none
  ((n.slot? location).map fun slot => (slot, n.token)).toList

end NamedToken

/-- The tokens at their slots, in binding order. -/
def slots (program : Handle) :
    List NamedToken → List (Lookup × Option Location) → List (BindingSlot × Token)
  | [], _ => []
  | n :: ns, answers => n.bound program answers ++
      slots program ns (answers.drop (n.asks program).toList.length)

/-- How many answers some tokens wait for. -/
def asked (program : Handle) (ns : List NamedToken) : Nat :=
  (ns.filterMap (NamedToken.asks program)).length

section Slots

variable {program : Handle} {ns ms : List NamedToken} {answers more : List (Lookup × Option Location)}

theorem lookups_append {es fs : List Event} : lookups (es ++ fs) = lookups es ++ lookups fs :=
  List.filterMap_append

theorem asked_cons {n : NamedToken} :
    asked program (n :: ns) = (n.asks program).toList.length + asked program ns := by
  unfold asked
  cases asks : n.asks program with
  | none => simp [asks]
  | some l => simp [asks, Nat.add_comm]

theorem asked_append : asked program (ns ++ ms) = asked program ns + asked program ms := by
  simp [asked]

/-- A token looks at no answer but its own. -/
theorem NamedToken.bound_append {n : NamedToken}
    (enough : (n.asks program).toList.length ≤ answers.length) :
    n.bound program (answers ++ more) = n.bound program answers := by
  cases answers with
  | cons a rest => rfl
  | nil =>
    have silent : n.asks program = none := by
      cases asks : n.asks program with
      | none => rfl
      | some l => simp [asks] at enough
    cases more with
    | nil => rfl
    | cons a rest => simp [bound, silent]

theorem slots_append (enough : answers.length = asked program ns) :
    slots program (ns ++ ms) (answers ++ more) = slots program ns answers ++ slots program ms more := by
  induction ns generalizing answers with
  | nil =>
    obtain rfl : answers = [] := List.eq_nil_of_length_eq_zero enough
    rfl
  | cons n ns ih =>
    rw [asked_cons] at enough
    have own : (n.asks program).toList.length ≤ answers.length := by omega
    have rest : (answers.drop (n.asks program).toList.length).length = asked program ns := by
      rw [List.length_drop]
      omega
    rw [List.cons_append, slots, slots, NamedToken.bound_append own,
      List.drop_append_of_le_length own, ih rest, List.append_assoc]

end Slots

/-- All tokens of a program at their slots. An index token comes last. -/
def allSlots (program : Handle) (vertex fragment : CompiledShader) (config : ProgramConfig)
    (answers : List (Lookup × Option Location)) : List (BindingSlot × Token) :=
  slots program (vertex.tokens ++ fragment.tokens) answers ++
    config.indices.toList.map fun t => (.elements, t)

/-- The token that was bound last to a slot. -/
def lastAt (bound : List (BindingSlot × Token)) (slot : BindingSlot) : Option Token :=
  bound.reverse.lookup slot

/-- Every slot has one update, which brings the token that was bound last. -/
def Serves (entries : List (BindingSlot × Update)) (bound : List (BindingSlot × Token)) : Prop :=
  ∀ slot, Option.Rel (fun u t => u.slot = slot ∧ Update.Carries t u) (entries.lookup slot)
    (lastAt bound slot)

namespace Serves

variable {entries entries' : List (BindingSlot × Update)} {bound : List (BindingSlot × Token)}
  {slot : BindingSlot} {u : Update} {t : Token}

theorem register (serves : Serves entries bound) (place : u.slot = slot) (carried : u.Carries t) :
    Serves (assign slot u entries) (bound ++ [(slot, t)]) := by
  intro other
  unfold lastAt
  rw [List.reverse_append, List.reverse_singleton, List.singleton_append]
  by_cases same : other = slot
  · subst same
    rw [lookup_assign_same, List.lookup_cons_self]
    exact .some ⟨place, carried⟩
  · rw [lookup_assign_other same, lookup_cons_other same]
    exact serves other

theorem of_frozen (serves : Serves entries bound)
    (same : entries'.map (Prod.map id Update.frozen) = entries.map (Prod.map id Update.frozen)) :
    Serves entries' bound := by
  intro slot
  have found := congrArg (List.lookup slot) same
  rw [lookup_map, lookup_map] at found
  have serves := serves slot
  cases here : entries'.lookup slot with
  | none =>
    simp only [here, Option.map_none, Option.map_eq_none_iff, eq_comm (a := none)] at found
    rwa [found] at serves
  | some u' =>
    rw [here, Option.map_some] at found
    obtain ⟨u, there, frozen⟩ := Option.map_eq_some_iff.mp found.symm
    rw [there] at serves
    cases last : lastAt bound slot with
    | none =>
      rw [last] at serves
      cases serves
    | some t =>
      rw [last] at serves
      cases serves with
      | some parts =>
        obtain ⟨place, carried⟩ := parts
        refine .some ⟨?_, ?_⟩
        · rw [← Update.slot_of_frozen frozen]
          exact place
        · exact (Update.carries_of_frozen frozen).mp carried

/-- The slots are those that a token was bound to. -/
theorem mem_slots (serves : Serves entries bound) (slot : BindingSlot) :
    slot ∈ entries.map Prod.fst ↔ (lastAt bound slot).isSome := by
  have serves := serves slot
  cases here : entries.lookup slot with
  | none =>
    rw [here] at serves
    cases last : lastAt bound slot with
    | none =>
      refine ⟨fun member => ?_, nofun⟩
      obtain ⟨e, there, rfl⟩ := List.mem_map.mp member
      have apart := List.lookup_eq_none_iff.mp here e there
      simp at apart
    | some t =>
      rw [last] at serves
      cases serves
  | some u =>
    rw [here] at serves
    cases last : lastAt bound slot with
    | none =>
      rw [last] at serves
      cases serves
    | some t => exact ⟨fun _ => rfl, fun _ => List.mem_map_of_mem (mem_of_lookup here)⟩

/-- The update that brings the token of a slot. -/
theorem exists_of_last (serves : Serves entries bound) (last : lastAt bound slot = some t) :
    ∃ u, (slot, u) ∈ entries ∧ u.slot = slot ∧ u.Carries t := by
  have serves := serves slot
  rw [last] at serves
  cases here : entries.lookup slot with
  | none =>
    rw [here] at serves
    cases serves
  | some u =>
    rw [here] at serves
    cases serves with
    | some parts => exact ⟨u, mem_of_lookup here, parts⟩

end Serves

/-- The update of a sampler belongs to the last of some records that were made at its slot. -/
def Latest {α : Type} (slot : α → BindingSlot) (serves : α → SamplerUpdate → Prop) (records : List α)
    (entries : List (BindingSlot × Update)) : Prop :=
  ∀ place u, entries.lookup place = some (.sampler u) →
    ∃ x, records.reverse.find? (fun x => slot x = place) = some x ∧ serves x u

namespace Latest

variable {α : Type} {slot : α → BindingSlot} {serves : α → SamplerUpdate → Prop} {records : List α}
  {entries : List (BindingSlot × Update)} {place : BindingSlot}

theorem nil : Latest slot serves [] [] := fun _ _ found => by simp at found

/-- The update of another token leaves no record. -/
theorem register {u : Update} (latest : Latest slot serves records entries)
    (other : ∀ v, u ≠ .sampler v) : Latest slot serves records (assign place u entries) := by
  intro there v found
  by_cases same : there = place
  · subst same
    rw [lookup_assign_same] at found
    exact absurd (Option.some.inj found) (other v)
  · rw [lookup_assign_other same] at found
    exact latest there v found

/-- A new record is the last one at its slot. -/
theorem extend {x : α} {u : SamplerUpdate} (latest : Latest slot serves records entries)
    (here : slot x = place) (served : serves x u) :
    Latest slot serves (records ++ [x]) (assign place (.sampler u) entries) := by
  subst here
  intro there v found
  rw [List.reverse_append, List.reverse_singleton, List.singleton_append]
  by_cases same : there = slot x
  · subst same
    rw [lookup_assign_same] at found
    obtain rfl : u = v := by simpa using found
    exact ⟨x, by simp, served⟩
  · rw [lookup_assign_other same] at found
    obtain ⟨y, last, served'⟩ := latest there v found
    exact ⟨y, by simpa [Ne.symm same] using last, served'⟩

end Latest
end ShaderStack

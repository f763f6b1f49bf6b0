import ShaderStack.Proofs.Objects
import ShaderStack.Proofs.Allocation
import Mathlib.Algebra.Order.Group.Multiset
import Mathlib.Tactic.Abel

/-! Which objects each value owns, and how the library's operations pass objects on.

Every operation is described by what was accounted for before and after it, beside objects that it
has nothing to do with. What fails on the way has given back what it took. -/
namespace ShaderStack

open World (Accounted Extends)

variable {δ : Type} {w : World δ} {rest : Multiset Object}

def BoundObject.object : BoundObject → Object
  | buffer h => ⟨.buffer, h⟩
  | texture h => ⟨.texture, h⟩

/-- A vertex array and everything that was bound for it. -/
def Bindings.owns (b : Bindings) : Multiset Object :=
  {⟨.vertexArray, b.vertexArray⟩} + (b.objects.map BoundObject.object : List Object)

def Program.owns (p : Program) : Multiset Object :=
  p.bindings.owns + if p.owned then {⟨.program, p.handle⟩} else 0

def RenderTexture.owns (t : RenderTexture) : Multiset Object :=
  (t.programs.map Program.owns).sum + {⟨.framebuffer, t.framebuffer⟩} + {⟨.texture, t.texture⟩}

def ReadTarget.owns (t : ReadTarget) : Multiset Object :=
  {⟨.framebuffer, t.framebuffer⟩} + {⟨.renderbuffer, t.renderbuffer⟩}

def ProgramCache.owns (c : ProgramCache) : Multiset Object :=
  (c.entries.map fun entry => ⟨.program, entry.2⟩ : List Object)

/-- A stack owns its layers only together with their other holders. -/
def Stack.owns (s : Stack) : Multiset Object :=
  (s.programs.map Program.owns).sum + (s.targets.map fun t => t.2.owns).sum + s.cache.owns

theorem mem_sum_owned {f : α → Multiset Object} {xs : List α} {x : α} {o : Object} (member : x ∈ xs)
    (owned : o ∈ f x) : o ∈ (xs.map f).sum := by
  induction xs with
  | nil => simp at member
  | cons y xs ih =>
    rw [List.map_cons, List.sum_cons, Multiset.mem_add]
    rcases List.mem_cons.mp member with rfl | member
    · exact .inl owned
    · exact .inr (ih member)

/-- Without doubles, an object has one owner. -/
theorem eq_of_mem_owned {f : α → Multiset Object} {xs : List α} {x y : α} {o : Object}
    (distinct : (xs.map f).sum.Nodup) (here : x ∈ xs) (there : y ∈ xs) (first : o ∈ f x)
    (second : o ∈ f y) : x = y := by
  induction xs with
  | nil => simp at here
  | cons z xs ih =>
    rw [List.map_cons, List.sum_cons, Multiset.nodup_add] at distinct
    obtain ⟨_, rest, apart⟩ := distinct
    have later (v : α) (member : v ∈ xs) (owned : o ∈ f v) : o ∈ (xs.map f).sum :=
      mem_sum_owned member owned
    rcases List.mem_cons.mp here with rfl | here' <;> rcases List.mem_cons.mp there with rfl | there'
    · rfl
    · exact absurd (later y there' second) (Multiset.disjoint_left.mp apart first)
    · exact absurd (later x here' first) (Multiset.disjoint_left.mp apart second)
    · exact ih rest here' there'

/-- The render textures of a world own their targets and programs. -/
def World.owns (w : World δ) : Multiset Object := (w.textures.map fun t => t.2.owns).sum

theorem Program.array_mem_owns (p : Program) :
    (⟨.vertexArray, p.bindings.vertexArray⟩ : Object) ∈ p.owns := by
  simp [owns, Bindings.owns]

theorem Program.owns_shell (p : Program) : p.shell.owns = p.owns := rfl

theorem Program.owns_of_shell {ps qs : List Program} (same : ps.map shell = qs.map shell) :
    (ps.map owns).sum = (qs.map owns).sum := by
  have owned := congrArg (fun shells => (shells.map owns).sum) same
  simpa only [List.map_map, Function.comp_def, owns_shell] using owned

theorem RenderTexture.owns_shell (t : RenderTexture) : t.shell.owns = t.owns := by
  simp [owns, shell, Function.comp_def, Program.owns_shell]

theorem World.Extends.owns {allowed : Event → Prop} {w' : World δ}
    (run : Extends allowed RenderTexture.shell w w') : w'.owns = w.owns := by
  have owned := congrArg (fun ts => (ts.map fun t : Nat × RenderTexture => t.2.owns).sum)
    run.textures
  simpa [World.owns, Function.comp_def, RenderTexture.owns_shell] using owned

namespace World

/-- Every render texture is held as often as `holds` says, and nothing else is held. -/
structure Shared (holds : Multiset Nat) (w : World δ) : Prop where
  distinct : (w.textures.map Prod.fst).Nodup
  old : ∀ key ∈ w.textures.map Prod.fst, key < w.nextKey
  counted : ∀ key t, w.texture? key = some t → t.holders = holds.count key ∧ 0 < t.holders
  present : ∀ key ∈ holds, ∃ t, w.texture? key = some t

variable {holds : Multiset Nat} {key : Nat} {t : RenderTexture}

theorem Extends.keys {allowed : Event → Prop} {view : RenderTexture → RenderTexture}
    {w' : World δ} (run : Extends allowed view w w') :
    w'.textures.map Prod.fst = w.textures.map Prod.fst := by
  have keys := congrArg (List.map Prod.fst) run.textures
  simpa [Function.comp_def] using keys

theorem Shared.extend {allowed : Event → Prop} {w' : World δ} (shared : w.Shared holds)
    (run : Extends allowed RenderTexture.shell w w') : w'.Shared holds where
  distinct := run.keys ▸ shared.distinct
  old := by
    rw [run.keys, run.nextKey]
    exact shared.old
  counted := by
    intro key t' present
    have same := run.texture? key
    rw [present, Option.map_some] at same
    obtain ⟨t, found, view⟩ := Option.map_eq_some_iff.mp same.symm
    have holders : t'.shell.holders = t.shell.holders := by rw [view]
    change t'.holders = t.holders at holders
    rw [holders]
    exact shared.counted key t found
  present := by
    intro key member
    obtain ⟨t, found⟩ := shared.present key member
    obtain ⟨t', found', _⟩ := run.exists_texture found
    exact ⟨t', found'⟩

section Altered

variable {change : RenderTexture → RenderTexture}

theorem altered_of_present (present : w.texture? key = some t) :
    w.altered key change = w.setTexture key (change t) := by
  simp [altered, present]

theorem texture?_altered_same : (w.altered key change).texture? key = (w.texture? key).map change := by
  cases present : w.texture? key with
  | none => simp [altered, present]
  | some t =>
    rw [altered_of_present present]
    exact lookup_assign_same

theorem texture?_altered_other {other : Nat} (apart : other ≠ key) :
    (w.altered key change).texture? other = w.texture? other := by
  cases present : w.texture? key with
  | none => simp [altered, present]
  | some t =>
    rw [altered_of_present present]
    exact lookup_assign_other apart

theorem keys_altered : (w.altered key change).textures.map Prod.fst = w.textures.map Prod.fst := by
  cases present : w.texture? key with
  | none => simp [altered, present]
  | some t =>
    rw [altered_of_present present]
    exact map_assign present rfl

theorem nextKey_altered : (w.altered key change).nextKey = w.nextKey := by
  unfold altered
  split <;> rfl

/-- A render texture, the others and what they own, before and after it changes. -/
theorem owns_altered (present : w.texture? key = some t) :
    ∃ others : Multiset Object, w.owns = t.owns + others ∧
      ∀ change, (w.altered key change).owns = (change t).owns + others := by
  obtain ⟨before, after, split, _, assigned⟩ := split_of_lookup present
  refine ⟨(before.map fun t => t.2.owns).sum + (after.map fun t => t.2.owns).sum, ?_, ?_⟩
  · simp only [World.owns, split, List.map_append, List.map_cons, List.sum_append, List.sum_cons]
    abel
  · intro change
    rw [altered_of_present present]
    simp only [World.owns, World.setTexture, assigned, List.map_append, List.map_cons,
      List.sum_append, List.sum_cons]
    abel

end Altered

/-- A changed texture, with its holders counted anew. -/
theorem Shared.recount {holds' : Multiset Nat} {change : RenderTexture → RenderTexture}
    (shared : w.Shared holds) (present : w.texture? key = some t)
    (counted : (change t).holders = holds'.count key) (positive : 0 < (change t).holders)
    (others : ∀ other, other ≠ key → holds'.count other = holds.count other) :
    (w.altered key change).Shared holds' where
  distinct := by
    rw [keys_altered]
    exact shared.distinct
  old := by
    rw [keys_altered, nextKey_altered]
    exact shared.old
  counted := by
    intro other t' found
    by_cases same : other = key
    · subst same
      rw [texture?_altered_same, present] at found
      obtain rfl := Option.some.inj found
      exact ⟨counted, positive⟩
    · rw [texture?_altered_other same] at found
      rw [others other same]
      exact shared.counted other t' found
  present := by
    intro other member
    by_cases same : other = key
    · subst same
      exact ⟨_, by rw [texture?_altered_same, present]; rfl⟩
    · rw [texture?_altered_other same]
      refine shared.present other (Multiset.count_pos.mp ?_)
      rw [← others other same]
      exact Multiset.count_pos.mpr member

end World

variable [GraphicsDevice δ]

/-- Deleting objects one after another gives them all back. -/
theorem World.Accounted.deleteAll {objects : List Object} {cs : List Command}
    (accounted : w.Accounted (objects + rest))
    (deletes : cs.map Command.deletes? = objects.map some) : (w.performAll cs).Accounted rest := by
  induction cs generalizing w objects with
  | nil =>
    have empty : objects = [] := by simpa using deletes.symm
    simpa [empty] using accounted
  | cons c cs ih =>
    cases objects with
    | nil => simp at deletes
    | cons o objects =>
      obtain ⟨here, later⟩ := List.cons.inj deletes
      have first : w.Accounted ({o} + (objects + rest)) := by
        rwa [← Multiset.cons_coe, Multiset.cons_add, ← Multiset.singleton_add] at accounted
      exact ih (first.delete here) later

theorem Bindings.accounted_release {b : Bindings} (accounted : w.Accounted (b.owns + rest)) :
    (b.release.run w).2.Accounted rest := by
  have moved : w.Accounted ((b.objects.map BoundObject.object : List Object) +
      ({⟨.vertexArray, b.vertexArray⟩} + rest)) := by
    have same : b.owns + rest = (b.objects.map BoundObject.object : List Object) +
        ({⟨.vertexArray, b.vertexArray⟩} + rest) := by
      unfold owns
      abel
    rwa [same] at accounted
  unfold release
  simp only [Engine.run_bind, Engine.run_commands, Engine.run_command]
  refine (moved.deleteAll ?_).delete rfl
  simp only [List.map_map, List.map_inj_left]
  intro object _
  cases object <;> rfl

theorem Program.accounted_drop {p : Program} (accounted : w.Accounted (p.owns + rest)) :
    (p.drop.run w).2.Accounted rest := by
  have released : (p.bindings.release.run w).2.Accounted
      ((if p.owned then {⟨.program, p.handle⟩} else 0) + rest) := by
    refine Bindings.accounted_release ?_
    rwa [owns, add_assoc] at accounted
  unfold drop
  simp only [Engine.run_bind]
  by_cases owned : p.owned
  · rw [if_pos owned] at released ⊢
    exact released.delete rfl
  · rw [if_neg owned, zero_add] at released
    rw [if_neg owned]
    exact released

theorem Program.accounted_dropAll {ps : List Program}
    (accounted : w.Accounted ((ps.map Program.owns).sum + rest)) :
    ((dropAll ps).run w).2.Accounted rest := by
  unfold dropAll
  rw [Engine.run_forM]
  induction ps generalizing w with
  | nil => simpa using accounted
  | cons p ps ih =>
    rw [List.map_cons, List.sum_cons, add_assoc] at accounted
    exact ih (accounted_drop accounted)

namespace World

variable {holds : Multiset Nat} {key : Nat}

/-- What is accounted for beside the render textures, and how often each of them is held. -/
structure Kept (rest : Multiset Object) (holds : Multiset Nat) (w : World δ) : Prop where
  accounted : w.Accounted (w.owns + rest)
  shared : w.Shared holds

omit [GraphicsDevice δ] in
theorem Kept.frame {w' : World δ} (kept : Kept rest holds w)
    (run : Extends (·.isFrame) RenderTexture.shell w w') : Kept rest holds w' where
  accounted := by
    rw [run.owns]
    exact kept.accounted.frame run
  shared := kept.shared.extend run

omit [GraphicsDevice δ] in
/-- A change that moves no object and no holder. -/
theorem Kept.altered {change : RenderTexture → RenderTexture} {rest' : Multiset Object}
    {holds' : Multiset Nat} (kept : Kept rest holds w)
    (owned : (w.altered key change).owns + rest' = w.owns + rest)
    (shared : (w.altered key change).Shared holds') : Kept rest' holds' (w.altered key change) where
  accounted := by
    unfold World.Accounted
    rw [World.events_altered, owned]
    exact kept.accounted
  shared := shared

omit [GraphicsDevice δ] in
/-- A new texture under a new key, held once. -/
theorem Kept.add {t : RenderTexture} (kept : Kept (t.owns + rest) holds w) (held : t.holders = 1) :
    Kept rest ({w.nextKey} + holds)
      (World.setTexture w.nextKey t { w with nextKey := w.nextKey + 1 }) := by
  have unused : w.nextKey ∉ w.textures.map Prod.fst := fun member =>
    Nat.lt_irrefl _ (kept.shared.old _ member)
  have missing : w.textures.lookup w.nextKey = none := by
    rw [List.lookup_eq_none_iff]
    intro entry member
    have apart : w.nextKey ≠ entry.1 := fun same =>
      unused (List.mem_map.mpr ⟨entry, member, same.symm⟩)
    simpa using apart
  have textures : (World.setTexture w.nextKey t { w with nextKey := w.nextKey + 1 }).textures =
      w.textures ++ [(w.nextKey, t)] := assign_of_lookup_none missing
  have free : holds.count w.nextKey = 0 := by
    refine Multiset.count_eq_zero.mpr fun member => ?_
    obtain ⟨t', found⟩ := kept.shared.present _ member
    exact unused (List.mem_map.mpr ⟨_, mem_of_lookup found, rfl⟩)
  refine ⟨?_, ?_, ?_, ?_, ?_⟩
  · have accounted := kept.accounted
    have owned : (World.setTexture w.nextKey t { w with nextKey := w.nextKey + 1 }).owns + rest =
        w.owns + (t.owns + rest) := by
      simp only [World.owns, textures, List.map_append, List.map_cons, List.map_nil,
        List.sum_append, List.sum_cons, List.sum_nil]
      abel
    rw [owned]
    exact accounted
  · rw [textures, List.map_append, List.nodup_append]
    refine ⟨kept.shared.distinct, by simp, ?_⟩
    intro key member other here
    obtain rfl : other = w.nextKey := by simpa using here
    exact fun same => unused (same ▸ member)
  · intro key member
    rw [textures, List.map_append, List.mem_append] at member
    rcases member with early | here
    · exact Nat.lt_succ_of_lt (kept.shared.old key early)
    · obtain rfl : key = w.nextKey := by simpa using here
      exact Nat.lt_succ_self _
  · intro key t' found
    by_cases same : key = w.nextKey
    · subst same
      rw [World.texture?, World.setTexture, lookup_assign_same] at found
      obtain rfl := Option.some.inj found
      simp [held, free]
    · rw [World.texture?, World.setTexture, lookup_assign_other same] at found
      have counted := kept.shared.counted key t' found
      rwa [Multiset.count_add, Multiset.count_singleton, if_neg same, zero_add]
  · intro key member
    by_cases same : key = w.nextKey
    · subst same
      exact ⟨t, lookup_assign_same⟩
    · have there : key ∈ holds := by
        rcases Multiset.mem_add.mp member with here | there
        · exact absurd (Multiset.mem_singleton.mp here) same
        · exact there
      obtain ⟨t', found⟩ := kept.shared.present key there
      exact ⟨t', (lookup_assign_other same).trans found⟩

section Hands

variable {a : Allocation} {h : Handle} {o : Object} {c : Command}

omit [GraphicsDevice δ] in
theorem Kept.emit {act : δ → δ} {e : Event} (kept : Kept rest holds w) (creates : e.creates? = none)
    (deletes : e.deletes? = none) : Kept rest holds (w.emit act e) where
  accounted := kept.accounted.emit creates deletes
  shared := kept.shared.extend (Extends.step)

theorem Kept.probed {p : Probe} (kept : Kept rest holds w) : Kept rest holds (w.probed p) :=
  kept.emit rfl rfl

theorem Kept.lookedUp {l : Lookup} (kept : Kept rest holds w) : Kept rest holds (w.lookedUp l) :=
  kept.emit rfl rfl

theorem Kept.performed (kept : Kept rest holds w) (keep : c.deletes? = none) :
    Kept rest holds (w.perform c) :=
  kept.emit rfl keep

theorem Kept.performAll (cs : List Command) (kept : Kept rest holds w)
    (keep : ∀ c ∈ cs, c.deletes? = none) : Kept rest holds (w.performAll cs) := by
  induction cs generalizing w with
  | nil => exact kept
  | cons c cs ih =>
    exact ih (kept.performed (keep c List.mem_cons_self)) fun d member =>
      keep d (List.mem_cons_of_mem c member)

theorem Kept.deleteAll {objects : List Object} {cs : List Command}
    (kept : Kept (objects + rest) holds w)
    (deletes : cs.map Command.deletes? = objects.map some) : Kept rest holds (w.performAll cs) := by
  have tables : Extends (fun _ => True) RenderTexture.shell w (w.performAll cs) :=
    Extends.performAll fun _ _ => trivial
  refine ⟨?_, kept.shared.extend tables⟩
  have accounted := kept.accounted
  rw [add_left_comm] at accounted
  rw [tables.owns]
  exact accounted.deleteAll deletes

/-- A new object is in hand. -/
theorem Kept.allocated (kept : Kept rest holds w) (granted : w.granted a = .ok h) :
    Kept ({⟨a.kind, h⟩} + rest) holds (w.allocated a) where
  accounted := by
    have accounted := kept.accounted.allocated granted
    rwa [add_left_comm] at accounted
  shared := kept.shared.extend (Extends.step)

theorem Kept.refused {e : RenderError} (kept : Kept rest holds w)
    (granted : w.granted a = .error e) : Kept rest holds (w.allocated a) where
  accounted := kept.accounted.refused granted
  shared := kept.shared.extend (Extends.step)

theorem Kept.delete (kept : Kept ({o} + rest) holds w) (deletes : c.deletes? = some o) :
    Kept rest holds (w.perform c) where
  accounted := by
    have accounted := kept.accounted
    rw [add_left_comm] at accounted
    exact accounted.delete deletes
  shared := kept.shared.extend (Extends.step)

end Hands

theorem Kept.drop {p : Program} (kept : Kept (p.owns + rest) holds w) :
    Kept rest holds (p.drop.run w).2 where
  accounted := by
    have accounted := kept.accounted
    rw [Program.extends_drop.owns]
    rw [add_left_comm] at accounted
    exact Program.accounted_drop accounted
  shared := kept.shared.extend Program.extends_drop

theorem Kept.dropAll {ps : List Program} (kept : Kept ((ps.map Program.owns).sum + rest) holds w) :
    Kept rest holds ((Program.dropAll ps).run w).2 where
  accounted := by
    have accounted := kept.accounted
    rw [Program.extends_dropAll.owns]
    rw [add_left_comm] at accounted
    exact Program.accounted_dropAll accounted
  shared := kept.shared.extend Program.extends_dropAll

end World

open World (Kept)

variable {holds : Multiset Nat}

namespace RenderTexture

variable {key : Nat}

omit [GraphicsDevice δ] in
theorem kept_retain (kept : Kept rest holds w) (held : key ∈ holds) :
    Kept rest ({key} + holds) (w.altered key fun t => { t with holders := t.holders + 1 }) := by
  obtain ⟨t, present⟩ := kept.shared.present key held
  obtain ⟨others, before, after⟩ := World.owns_altered present
  refine kept.altered ?_ ?_
  · rw [after, before]
    rfl
  · refine kept.shared.recount present ?_ (Nat.succ_pos _) ?_
    · simp [(kept.shared.counted key t present).1]
    · intro other apart
      simp [apart]

omit [GraphicsDevice δ] in
/-- A texture that is held takes a program over. -/
theorem kept_add {p : Program} (kept : Kept (p.owns + rest) holds w) (held : key ∈ holds) :
    Kept rest holds (w.altered key fun t => { t with programs := t.programs ++ [p] }) := by
  obtain ⟨t, present⟩ := kept.shared.present key held
  obtain ⟨others, before, after⟩ := World.owns_altered present
  obtain ⟨counted, positive⟩ := kept.shared.counted key t present
  refine kept.altered ?_ ?_
  · rw [after, before]
    simp only [owns, List.map_append, List.map_cons, List.map_nil, List.sum_append, List.sum_cons,
      List.sum_nil]
    abel
  · exact kept.shared.recount present counted positive fun _ _ => rfl

omit [GraphicsDevice δ] in
/-- The last holder's texture is taken out of the world, and nothing else changes. -/
theorem shared_removed {t : RenderTexture} (present : w.texture? key = some t)
    (last : t.holders = 1) (shared : w.Shared ({key} + holds)) :
    World.Shared holds { w with textures := w.textures.filter (·.1 ≠ key) } ∧
      w.owns = t.owns + World.owns { w with textures := w.textures.filter (·.1 ≠ key) } := by
  obtain ⟨before, after, split, absent, _⟩ := split_of_lookup present
  have distinct := shared.distinct
  rw [split] at distinct
  have removed : w.textures.filter (·.1 ≠ key) = before ++ after := by
    rw [split]
    exact filter_split distinct
  have gone : holds.count key = 0 := by
    have counted := (shared.counted key t present).1
    rw [last, Multiset.count_add, Multiset.count_singleton_self] at counted
    omega
  have sublist : (before ++ after).Sublist w.textures := by
    rw [split]
    exact List.Sublist.append_left (List.sublist_cons_self _ _) _
  have lookup (other : Nat) (apart : other ≠ key) :
      (before ++ after).lookup other = w.textures.lookup other := by
    rw [split, List.lookup_append, List.lookup_append, lookup_cons_other apart]
  have missing : (before ++ after).lookup key = none := by
    rw [← removed, List.lookup_eq_none_iff]
    intro entry member
    have apart : entry.1 ≠ key := by simpa using (List.mem_filter.mp member).2
    simpa using apart.symm
  rw [removed]
  refine ⟨⟨?_, ?_, ?_, ?_⟩, ?_⟩
  · exact (sublist.map Prod.fst).nodup shared.distinct
  · intro other member
    exact shared.old other ((sublist.map Prod.fst).subset member)
  · intro other t' found
    by_cases same : other = key
    · subst same
      rw [World.texture?, missing] at found
      simp at found
    · rw [World.texture?, lookup other same] at found
      have counted := shared.counted other t' found
      rwa [Multiset.count_add, Multiset.count_singleton, if_neg same, zero_add] at counted
  · intro other member
    have apart : other ≠ key := by
      rintro rfl
      exact absurd gone (Multiset.count_pos.mpr member).ne'
    rw [World.texture?, lookup other apart]
    exact shared.present other (Multiset.mem_add.mpr (.inr member))
  · simp only [World.owns, split, List.map_append, List.map_cons, List.sum_append, List.sum_cons]
    abel

/-- Whoever lets go last deletes what the texture owns. -/
theorem kept_release (kept : Kept rest ({key} + holds) w) :
    Kept rest holds ((release key).run w).2 := by
  obtain ⟨t, present⟩ := kept.shared.present key (by simp)
  obtain ⟨counted, positive⟩ := kept.shared.counted key t present
  rw [Multiset.count_add, Multiset.count_singleton_self] at counted
  rw [run_release present]
  by_cases others : 1 < t.holders
  · rw [if_pos others]
    obtain ⟨remaining, before, after⟩ := World.owns_altered present
    refine kept.altered ?_ ?_
    · rw [after, before]
      rfl
    · have left : t.holders - 1 = holds.count key := by omega
      have positive' : 0 < t.holders - 1 := by omega
      refine kept.shared.recount present left positive' ?_
      intro other apart
      simp [apart]
  · rw [if_neg others]
    obtain ⟨shared, owned⟩ := shared_removed present (by omega) kept.shared
    have accounted : World.Accounted ((t.programs.map Program.owns).sum +
        ({⟨.framebuffer, t.framebuffer⟩} + ({⟨.texture, t.texture⟩} +
          (World.owns { w with textures := w.textures.filter (·.1 ≠ key) } + rest))))
        { w with textures := w.textures.filter (·.1 ≠ key) } := by
      have before := kept.accounted
      rw [owned] at before
      unfold RenderTexture.owns at before
      rw [← add_assoc, ← add_assoc, ← add_assoc]
      exact before
    have dropped := Program.accounted_dropAll accounted
    have tables : Extends (fun _ => True) shell { w with textures := w.textures.filter (·.1 ≠ key) }
        (((Program.dropAll t.programs).run
          { w with textures := w.textures.filter (·.1 ≠ key) }).2.performAll
            [.deleteFramebuffer t.framebuffer, .deleteTexture t.texture]) :=
      (Program.extends_dropAll.mono fun _ _ => trivial).trans (Extends.performAll fun _ _ => trivial)
    refine ⟨?_, shared.extend tables⟩
    rw [tables.owns]
    exact (dropped.delete rfl).delete rfl

/-- A texture is made whole or not at all. -/
theorem kept_make {width height : UInt32} (kept : Kept rest holds w) :
    (make width height : Attempt δ Nat).Ends w (fun key => Kept rest ({key} + holds))
      (fun _ => Kept rest holds) := by
  rw [ends_make]
  split
  · exact kept
  · refine ⟨?_, fun e granted => kept.refused granted⟩
    intro texture granted
    have stored := (kept.allocated granted).performAll (storage texture width height)
      (by simp [storage, Command.deletes?])
    refine ⟨?_, fun e refused => (stored.refused refused).delete rfl⟩
    intro framebuffer granted'
    have attached := (stored.allocated granted').performAll
      [.bindFramebuffer (some framebuffer), .framebufferTexture texture]
      (by simp [Command.deletes?])
    have closed := (attached.probed (p := .framebufferComplete)).performed
      (c := .bindFramebuffer none) rfl
    have whole : Kept ({⟨.framebuffer, framebuffer⟩} + ({⟨.texture, texture⟩} + rest)) holds _ :=
      closed
    dsimp only
    split
    · exact (whole.delete rfl).delete rfl
    · refine Kept.add ?_ rfl
      simpa only [RenderTexture.owns, List.map_nil, List.sum_nil, zero_add, add_assoc] using whole

end RenderTexture

theorem Bindings.owns_append {b : Bindings} {object : BoundObject} :
    Bindings.owns { b with objects := b.objects ++ [object] } = {object.object} + b.owns := by
  simp only [owns, List.map_append, List.map_cons, List.map_nil, ← Multiset.coe_add,
    Multiset.coe_singleton]
  abel

/-- Bindings start with a vertex array and nothing else. -/
theorem World.Kept.started {vertexArray : Handle} (program : Handle) (kept : Kept rest holds w)
    (granted : w.granted .vertexArray = .ok vertexArray) :
    Kept (Bindings.owns { program, vertexArray } + rest) holds (w.allocated .vertexArray) := by
  have allocated := kept.allocated granted
  simpa only [Bindings.owns, List.map_nil, Multiset.coe_nil, add_zero, Allocation.kind] using allocated

/-- Every binding step adds what it allocates to the bindings. -/
theorem World.Kept.path {b b' : Bindings} {w' : World δ} (kept : Kept (b.owns + rest) holds w)
    (path : Binder.Path (b, w) (b', w')) :
    Kept (b'.owns + rest) holds w' ∧ b'.program = b.program := by
  have walk (q : Bindings × World δ) (path : Binder.Path (b, w) q) :
      Kept (q.1.owns + rest) holds q.2 ∧ q.1.program = b.program := by
    induction path with
    | refl => exact ⟨kept, rfl⟩
    | tail _ step ih =>
      obtain ⟨kept, program⟩ := ih
      cases step with
      | note program' vertexArray objects =>
        refine ⟨?_, program'.trans program⟩
        unfold Bindings.owns
        rw [vertexArray, objects]
        exact kept
      | lookup l => exact ⟨Kept.lookedUp kept, program⟩
      | look value => exact ⟨kept.frame World.Extends.looked, program⟩
      | listen id s _ => exact ⟨kept.frame World.Extends.listen.coarsen, program⟩
      | refused _ granted => exact ⟨Kept.refused kept granted, program⟩
      | buffer granted target data pointers =>
        refine ⟨?_, program⟩
        rw [Bindings.owns_append, add_assoc]
        refine (Kept.allocated kept granted).performAll _ ?_
        intro c member
        simp only [Binder.fill, List.mem_append, List.mem_cons, List.mem_map, List.not_mem_nil,
          or_false] at member
        rcases member with (rfl | rfl | rfl) | ⟨pointer, _, rfl⟩ | rfl <;> rfl
      | texture granted unit parameters =>
        refine ⟨?_, program⟩
        rw [Bindings.owns_append, add_assoc]
        refine (Kept.allocated kept granted).performAll _ ?_
        simp [Binder.seat, Command.deletes?]
  exact walk (b', w') path

namespace ProgramCache

/-- What a build yields: a program that owns its objects, or nothing. -/
def yield (result : Except RenderError Program) : Multiset Object :=
  match result with
  | .ok p => p.owns
  | .error _ => 0

theorem kept_bind {handle : Handle} {owned : Bool} (redraw : RedrawKey)
    (vertex fragment : CompiledShader) (config : ProgramConfig)
    (kept : Kept ((if owned then {⟨.program, handle⟩} else 0) + rest) holds w) :
    (bind handle owned redraw vertex fragment config).Ends w
      (fun p => Kept (p.owns + rest) holds) (fun _ => Kept rest holds) := by
  rw [ends_bind]
  refine ⟨?_, ?_⟩
  · intro vertexArray granted
    have start := kept.started handle granted
    have whole (b : Bindings) (w' : World δ)
        (path : Binder.Path ({ program := handle, vertexArray }, w.allocated .vertexArray) (b, w')) :
        Kept ((bound owned config b).owns + rest) holds w' := by
      obtain ⟨bound, program⟩ := start.path path
      unfold Program.owns Program.handle ProgramCache.bound
      rw [program, add_assoc]
      exact bound
    refine (Binder.follows_bindAll _ _ _ .refl).imp ?_ ?_
    · exact fun _ b w' path => whole b w' path
    · exact fun _ b w' path => (whole b w' path).drop
  · intro e granted
    have refused := kept.refused granted
    cases owned with
    | true => exact refused.delete rfl
    | false => simpa using refused

/-- A linked program belongs to the caller or to the cache. -/
theorem kept_link {cache : ProgramCache} (vertex fragment : CompiledShader) (cached : Bool)
    (kept : Kept (cache.owns + rest) holds w) :
    match (cache.link vertex fragment cached).run w with
    | ((.error _, cache'), w') => Kept (cache'.owns + rest) holds w'
    | ((.ok (handle, owned), cache'), w') =>
      Kept ((if owned then {⟨.program, handle⟩} else 0) + (cache'.owns + rest)) holds w' := by
  rw [run_link]
  cases reused : (if cached then cache.find? vertex.template fragment.template else none) with
  | some handle => simpa using kept
  | none =>
    dsimp only
    cases granted : w.granted (.program vertex.source fragment.source) with
    | error e => exact kept.refused granted
    | ok handle =>
      have linked := kept.allocated granted
      cases cached with
      | true =>
        simp only [Bool.not_true, Bool.false_eq_true, if_false, zero_add, if_true]
        unfold owns
        rw [List.map_cons, ← Multiset.cons_coe, ← Multiset.singleton_add, add_assoc]
        exact linked
      | false => exact linked

theorem kept_compile {cache : ProgramCache} (redraw : RedrawKey) (vertex fragment : CompiledShader)
    (config : ProgramConfig) (kept : Kept (cache.owns + rest) holds w) :
    let built := (cache.compile redraw vertex fragment config).run w
    Kept (yield built.1.1 + (built.1.2.owns + rest)) holds built.2 := by
  rw [run_compile]
  cases checkSharedNames vertex fragment with
  | error e => simpa [yield] using kept
  | ok fit =>
    have linked := kept_link vertex fragment config.cached kept
    dsimp only
    generalize (cache.link vertex fragment config.cached).run w = answer at linked
    obtain ⟨⟨e | ⟨handle, owned⟩, cache'⟩, w'⟩ := answer
    · simpa [yield] using linked
    · have built := kept_bind redraw vertex fragment config linked
      unfold Attempt.Ends at built
      dsimp only
      generalize (bind handle owned redraw vertex fragment config).run.run w' = answer at built
      obtain ⟨e | p, w''⟩ := answer
      · simpa [yield] using built
      · exact built

end ProgramCache

namespace Stack

theorem kept_makeTarget {internal : InternalFormat} {width height : UInt32}
    (kept : Kept rest holds w) :
    (makeTarget internal width height).Ends w (fun t => Kept (t.owns + rest) holds)
      (fun _ => Kept rest holds) := by
  rw [ends_makeTarget]
  refine ⟨?_, fun e granted => kept.refused granted⟩
  intro renderbuffer granted
  have stored := (kept.allocated granted).performed
    (c := .renderbufferStorage renderbuffer internal width height) rfl
  refine ⟨?_, fun e refused => (stored.refused refused).delete rfl⟩
  intro framebuffer granted'
  have attached := ((stored.allocated granted').performAll
    [.bindFramebuffer (some framebuffer), .framebufferRenderbuffer renderbuffer]
    (by simp [Command.deletes?])).probed (p := .framebufferComplete)
  have whole : Kept ({⟨.framebuffer, framebuffer⟩} + ({⟨.renderbuffer, renderbuffer⟩} + rest))
      holds _ := attached
  dsimp only
  split
  · exact ((whole.performed (c := .bindFramebuffer none) rfl).delete rfl).delete rfl
  · unfold ReadTarget.owns
    rwa [add_assoc]

theorem owns_targets_append {s : Stack} {entry : ReadConfig × ReadTarget} :
    Stack.owns { s with targets := s.targets ++ [entry] } = entry.2.owns + s.owns := by
  simp only [owns, List.map_append, List.map_cons, List.map_nil, List.sum_append, List.sum_cons,
    List.sum_nil]
  abel

theorem kept_bindTarget {s : Stack} {c : ReadConfig} {width height : UInt32}
    (kept : Kept (s.owns + rest) holds w) :
    (bindTarget c width height s).Ends w
      (fun answer w' => Kept (answer.2.owns + rest) holds w' ∧ answer.2.layers = s.layers)
      (fun _ => Kept (s.owns + rest) holds) := by
  rw [ends_bindTarget]
  cases s.targets.lookup (c.resolve width height) with
  | some target => exact ⟨kept.performed rfl, rfl⟩
  | none =>
    refine (kept_makeTarget kept).imp ?_ fun _ _ failed => failed
    intro target w' made
    refine ⟨?_, rfl⟩
    rw [owns_targets_append, add_assoc]
    exact made

/-- A frame keeps a stack's objects and its layers. -/
theorem owns_renderTo (s : Stack) (framebuffer : Option Handle) (width height : UInt32)
    (w : World δ) :
    ((s.renderTo framebuffer width height).run w).1.owns = s.owns ∧
      ((s.renderTo framebuffer width height).run w).1.layers = s.layers := by
  obtain ⟨programs, same, shells⟩ := renderTo_eq s framebuffer width height w
  rw [same]
  refine ⟨?_, rfl⟩
  unfold owns
  rw [Program.owns_of_shell shells]

theorem owns_resize (s : Stack) (width height : UInt32) (w : World δ) :
    ((s.resize width height).run w).1.owns = s.owns ∧
      ((s.resize width height).run w).1.layers = s.layers := by
  rw [run_resize]
  split <;> exact ⟨rfl, rfl⟩

theorem kept_read {s : Stack} {c : ReadConfig} (kept : Kept (s.owns + rest) holds w) :
    (s.read c).Ends w
      (fun answer w' => Kept (answer.2.owns + rest) holds w' ∧ answer.2.layers = s.layers)
      (fun _ => Kept (s.owns + rest) holds) := by
  rw [ends_read]
  dsimp only
  split
  · exact kept
  · refine (kept_bindTarget kept).imp ?_ fun _ _ failed => failed
    rintro ⟨framebuffer, bound⟩ w' ⟨made, layers⟩
    obtain ⟨owned, layers'⟩ := owns_renderTo bound (some framebuffer) (c.width.getD s.width)
      (c.height.getD s.height) (w'.perform (.clear .opaqueBlack .one))
    have cleared := made.performed (c := .clear .opaqueBlack .one) rfl
    have drawn : Kept (bound.owns + rest) holds ((bound.renderTo (some framebuffer)
        (c.width.getD s.width) (c.height.getD s.height)).run _).2 := cleared.frame extends_renderTo
    dsimp only
    rw [owned]
    refine ⟨?_, layers'.trans layers⟩
    exact (drawn.emit rfl rfl).performAll _ (by simp [Command.deletes?])

/-- A stack's layers are let go one by one. -/
theorem kept_layers {layers : List Nat} (kept : Kept rest ((layers : Multiset Nat) + holds) w) :
    Kept rest holds
      (layers.foldl (fun w key => ((RenderTexture.release key).run w).2) w) := by
  induction layers generalizing w with
  | nil => simpa using kept
  | cons key layers ih =>
    rw [← Multiset.cons_coe, ← Multiset.singleton_add, add_assoc] at kept
    exact ih (RenderTexture.kept_release kept)

theorem kept_targets {targets : List (ReadConfig × ReadTarget)}
    (kept : Kept ((targets.map fun t => t.2.owns).sum + rest) holds w) :
    Kept rest holds
      (targets.foldl (fun w t => w.performAll
        [.deleteFramebuffer t.2.framebuffer, .deleteRenderbuffer t.2.renderbuffer]) w) := by
  induction targets generalizing w with
  | nil => simpa using kept
  | cons target targets ih =>
    rw [List.map_cons, List.sum_cons, ReadTarget.owns, add_assoc, add_assoc] at kept
    exact ih ((kept.delete rfl).delete rfl)

theorem kept_drop {s : Stack} (kept : Kept (s.owns + rest) ((s.layers : Multiset Nat) + holds) w) :
    Kept rest holds (s.drop.run w).2 := by
  rw [owns, add_assoc, add_assoc] at kept
  rw [run_drop]
  exact (kept_targets (kept_layers kept.dropAll)).deleteAll (by simp [Function.comp_def, Command.deletes?])

end Stack

end ShaderStack

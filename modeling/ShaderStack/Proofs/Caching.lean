import ShaderStack.Proofs.Lifetimes

/-! The programs that one manager builds, from its first compilation on.

A compilation is described by what the device was asked, by its result and by what it does to the cache.
A pair that was linked for the cache is linked once, whatever becomes of the rest of the compilation. -/
namespace ShaderStack

open World (Emits)

variable {δ : Type}

namespace ProgramCache

theorem find?_eq (cache : ProgramCache) (vertex fragment : Identity) :
    cache.find? vertex fragment = @List.lookup _ _ instBEqOfDecidableEq (vertex, fragment) cache.entries := by
  have same : (instBEqProd : BEq (Identity × Identity)) = instBEqOfDecidableEq :=
    lawful_beq_subsingleton _ _
  rw [find?, same]

end ProgramCache

/-- The answer to a request for a program, if the event is one. -/
def Event.link? : Event → Option (Except RenderError Handle)
  | allocation (.program _ _) answer => some answer
  | _ => none

/-- Links nothing, and deletes no program but `mine`. -/
def Event.LeavesPrograms (mine : Option Handle) (e : Event) : Prop :=
  e.link? = none ∧ ∀ h, e.deletes? = some ⟨.program, h⟩ → mine = some h

/-- One compilation as its manager sees it. -/
structure Compilation where
  vertex : Identity
  fragment : Identity
  cached : Bool
  events : List Event
  result : Except RenderError Program

namespace Compilation

def pair (c : Compilation) : Identity × Identity := (c.vertex, c.fragment)

/-- The answers to its requests for a program. -/
def links (c : Compilation) : List (Except RenderError Handle) := c.events.filterMap Event.link?

/-- A compilation uses the program that it links, and the one that its result draws with. -/
def Uses (c : Compilation) (h : Handle) : Prop :=
  .ok h ∈ c.links ∨ ∃ p, c.result = .ok p ∧ p.handle = h

/-- The ways in which a cache serves a compilation, and the cache afterwards. -/
inductive Served (cache : ProgramCache) (c : Compilation) : ProgramCache → Prop
  | rejected {e : RenderError} (events : c.events = []) (result : c.result = .error e) :
      Served cache c cache
  | refused {e : RenderError} {vertex fragment : String}
      (missing : c.cached = true → cache.find? c.vertex c.fragment = none)
      (events : c.events = [.allocation (.program vertex fragment) (.error e)])
      (result : c.result = .error e) : Served cache c cache
  | reused {h : Handle} (cached : c.cached = true)
      (found : cache.find? c.vertex c.fragment = some h)
      (others : ∀ e ∈ c.events, e.LeavesPrograms none)
      (handle : ∀ p, c.result = .ok p → p.handle = h) : Served cache c cache
  | linked {h : Handle} {vertex fragment : String} {rest : List Event}
      (missing : c.cached = true → cache.find? c.vertex c.fragment = none)
      (events : c.events = .allocation (.program vertex fragment) (.ok h) :: rest)
      (others : ∀ e ∈ rest, e.LeavesPrograms (if c.cached then none else some h))
      (handle : ∀ p, c.result = .ok p → p.handle = h) :
      Served cache c
        { entries := if c.cached then (c.pair, h) :: cache.entries else cache.entries
          links := cache.links + 1 }

/-- A cache serves compilations one after another. -/
inductive Serves : ProgramCache → List Compilation → ProgramCache → Prop
  | nil {cache : ProgramCache} : Serves cache [] cache
  | cons {cache next last : ProgramCache} {c : Compilation} {rest : List Compilation}
      (served : c.Served cache next) (later : Serves next rest last) : Serves cache (c :: rest) last

section Served

variable {cache next last : ProgramCache} {c d : Compilation} {h : Handle}

theorem filterMap_link? {es : List Event} {mine : Option Handle}
    (others : ∀ e ∈ es, e.LeavesPrograms mine) :
    es.filterMap Event.link? = [] :=
  List.filterMap_eq_nil_iff.mpr fun e member => (others e member).1

/-- The counter counts the links that succeed. -/
theorem Served.links_eq (served : c.Served cache next) :
    next.links = cache.links + c.links.countP (·.isOk) := by
  cases served with
  | rejected events _ => simp [links, events]
  | refused _ events _ => simp [links, events, Event.link?, Except.isOk, Except.toBool]
  | reused _ _ others _ => simp [links, filterMap_link? others]
  | linked _ events others _ =>
    simp [links, events, Event.link?, filterMap_link? others, Except.isOk, Except.toBool]

/-- A cache keeps what it has, and adds at most the missing pair that was compiled for it. -/
theorem Served.entries_eq (served : c.Served cache next) :
    next.entries = cache.entries ∨
      ∃ h, c.cached = true ∧ cache.find? c.vertex c.fragment = none ∧
        next.entries = (c.pair, h) :: cache.entries := by
  cases served with
  | rejected _ _ => exact .inl rfl
  | refused _ _ _ => exact .inl rfl
  | reused _ _ _ _ => exact .inl rfl
  | @linked h _ _ _ missing _ _ _ =>
    cases cached : c.cached with
    | true => exact .inr ⟨h, rfl, missing cached, by simp⟩
    | false => exact .inl (by simp)

theorem Served.subset (served : c.Served cache next) : cache.entries ⊆ next.entries := by
  rcases served.entries_eq with same | ⟨h, _, _, added⟩
  · rw [same]
    exact List.Subset.refl _
  · rw [added]
    exact List.subset_cons_self _ _

/-- A pair has one entry. -/
theorem Served.nodup (served : c.Served cache next) (distinct : (cache.entries.map Prod.fst).Nodup) :
    (next.entries.map Prod.fst).Nodup := by
  rcases served.entries_eq with same | ⟨h, _, missing, added⟩
  · rwa [same]
  · rw [added, List.map_cons, List.nodup_cons]
    refine ⟨fun member => ?_, distinct⟩
    obtain ⟨entry, here, same⟩ := List.mem_map.mp member
    have other := List.lookup_eq_none_iff.mp missing entry here
    simp [same, pair] at other

/-- What a cached compilation uses is in the cache. -/
theorem Served.mem_of_uses (served : c.Served cache next) (cached : c.cached = true) (uses : c.Uses h) :
    (c.pair, h) ∈ next.entries := by
  cases served with
  | rejected events result => simp [Uses, links, events, result] at uses
  | refused _ events result => simp [Uses, links, events, result, Event.link?] at uses
  | @reused known _ found others handle =>
    rcases uses with linked | ⟨p, ok, rfl⟩
    · simp [links, filterMap_link? others] at linked
    · rw [handle p ok]
      exact mem_of_lookup ((cache.find?_eq _ _).symm.trans found)
  | @linked new _ _ rest _ events others handle =>
    have same : h = new := by
      rcases uses with linked | ⟨p, ok, rfl⟩
      · simpa [links, events, Event.link?, filterMap_link? others] using linked
      · exact handle p ok
    simp [cached, same]

/-- A cached compilation deletes no program. -/
theorem Served.keeps (served : c.Served cache next) (cached : c.cached = true) :
    ∀ e ∈ c.events, ∀ h, e.deletes? ≠ some ⟨.program, h⟩ := by
  intro e member h deletes
  cases served with
  | rejected events _ => simp [events] at member
  | refused _ events _ =>
    rw [events, List.mem_singleton] at member
    simp [member, Event.deletes?] at deletes
  | reused _ _ others _ => exact absurd ((others e member).2 h deletes) (by simp)
  | linked _ events others _ =>
    rw [events] at member
    rcases List.mem_cons.mp member with rfl | member
    · simp [Event.deletes?] at deletes
    · have mine := (others e member).2 h deletes
      simp [cached] at mine

/-- A pair that is in the cache is not linked again. -/
theorem Served.links_nil (served : c.Served cache next) (cached : c.cached = true)
    (distinct : (cache.entries.map Prod.fst).Nodup) (member : (c.pair, h) ∈ cache.entries) :
    c.links = [] := by
  have found : cache.find? c.vertex c.fragment = some h :=
    (cache.find?_eq _ _).trans (lookup_of_mem distinct member)
  cases served with
  | rejected events _ => simp [links, events]
  | refused missing _ _ => simp [missing cached] at found
  | reused _ _ others _ => exact filterMap_link? others
  | linked missing _ _ _ => simp [missing cached] at found

end Served

section Serves

variable {cache last : ProgramCache} {history : List Compilation} {c d : Compilation} {h : Handle}

theorem serves_append {before after : List Compilation} :
    Serves cache (before ++ after) last ↔ ∃ mid, Serves cache before mid ∧ Serves mid after last := by
  induction before generalizing cache with
  | nil =>
    refine ⟨fun serves => ⟨cache, .nil, serves⟩, ?_⟩
    rintro ⟨mid, ⟨⟩, serves⟩
    exact serves
  | cons c before ih =>
    constructor
    · rintro ⟨⟩
      next served later =>
        obtain ⟨mid, early, late⟩ := ih.mp later
        exact ⟨mid, .cons served early, late⟩
    · rintro ⟨mid, ⟨⟩, late⟩
      next served early => exact .cons served (ih.mpr ⟨mid, early, late⟩)

theorem Serves.links_eq (serves : Serves cache history last) :
    last.links = cache.links + (history.flatMap links).countP (·.isOk) := by
  induction serves with
  | nil => rfl
  | cons served _ ih => rw [ih, served.links_eq, List.flatMap_cons, List.countP_append, Nat.add_assoc]

theorem Serves.subset (serves : Serves cache history last) : cache.entries ⊆ last.entries := by
  induction serves with
  | nil => exact List.Subset.refl _
  | cons served _ ih => exact List.Subset.trans served.subset ih

theorem Serves.nodup (serves : Serves cache history last)
    (distinct : (cache.entries.map Prod.fst).Nodup) : (last.entries.map Prod.fst).Nodup := by
  induction serves with
  | nil => exact distinct
  | cons served _ ih => exact ih (served.nodup distinct)

theorem Serves.mem_of_uses (serves : Serves cache history last) (member : c ∈ history)
    (cached : c.cached = true) (uses : c.Uses h) : (c.pair, h) ∈ last.entries := by
  obtain ⟨before, after, rfl⟩ := List.append_of_mem member
  obtain ⟨mid, _, rest⟩ := serves_append.mp serves
  cases rest with
  | cons served later => exact later.subset (served.mem_of_uses cached uses)

/-- Two cached compilations of one pair use one program. -/
theorem Serves.same_handle {h' : Handle} (serves : Serves cache history last)
    (distinct : (cache.entries.map Prod.fst).Nodup) (here : c ∈ history) (there : d ∈ history)
    (cached : c.cached = true) (cached' : d.cached = true) (same : d.pair = c.pair)
    (uses : c.Uses h) (uses' : d.Uses h') : h' = h := by
  have first := lookup_of_mem (serves.nodup distinct) (serves.mem_of_uses here cached uses)
  have second := lookup_of_mem (serves.nodup distinct) (serves.mem_of_uses there cached' uses')
  rw [same, first] at second
  exact (Option.some.inj second).symm

/-- A pair that was linked for the cache is not linked again. -/
theorem Serves.links_once {before middle after : List Compilation}
    (serves : Serves cache (before ++ c :: (middle ++ d :: after)) last)
    (distinct : (cache.entries.map Prod.fst).Nodup) (cached : c.cached = true) (linked : .ok h ∈ c.links)
    (cached' : d.cached = true) (same : d.pair = c.pair) : d.links = [] := by
  obtain ⟨mid, early, rest⟩ := serves_append.mp serves
  cases rest with
  | @cons _ next _ _ _ served later =>
    obtain ⟨before, between, rest⟩ := serves_append.mp later
    cases rest with
    | cons served' _ =>
      have known := between.subset (served.mem_of_uses cached (.inl linked))
      rw [← same] at known
      have distinct' := between.nodup (served.nodup (early.nodup distinct))
      exact served'.links_nil cached' distinct' known

end Serves
end Compilation

section Device

variable [GraphicsDevice δ] {w : World δ}

theorem Event.leavesPrograms_of_command {c : Command} (keep : ∀ h, c ≠ .deleteProgram h)
    {mine : Option Handle} :
    (Event.command c).LeavesPrograms mine := by
  refine ⟨rfl, fun h deletes => ?_⟩
  cases c <;> simp_all [deletes?, Command.deletes?]

theorem Event.LeavesPrograms.mono {e : Event} (leaves : e.LeavesPrograms none) (mine : Option Handle) :
    e.LeavesPrograms mine :=
  ⟨leaves.1, fun h deletes => nomatch leaves.2 h deletes⟩

theorem Event.leavesPrograms_of_silent {e : Event} (links : e.link? = none) (deletes : e.deletes? = none)
    {mine : Option Handle} : e.LeavesPrograms mine :=
  ⟨links, by simp [deletes]⟩

/-- Binding asks for no program and deletes none. -/
theorem Binder.leavesPrograms_path {b b' : Bindings} {w' : World δ} (path : Path (b, w) (b', w')) :
    Emits (Event.LeavesPrograms none) w w' ∧ b'.program = b.program := by
  have walk (q : Bindings × World δ) (path : Path (b, w) q) :
      Emits (Event.LeavesPrograms none) w q.2 ∧ q.1.program = b.program := by
    induction path with
    | refl => exact ⟨Emits.refl w, rfl⟩
    | tail _ step ih =>
      obtain ⟨run, same⟩ := ih
      cases step with
      | note program _ _ => exact ⟨run, program.trans same⟩
      | lookup l => exact ⟨run.push (Event.leavesPrograms_of_silent rfl rfl), same⟩
      | look value => exact ⟨run.trans (Emits.silent rfl), same⟩
      | listen id s _ => exact ⟨run.trans (Emits.silent World.listen_events), same⟩
      | refused resource _ =>
        rcases resource with rfl | rfl
        all_goals exact ⟨run.push (Event.leavesPrograms_of_silent rfl rfl), same⟩
      | buffer _ target data pointers =>
        refine ⟨(run.push (Event.leavesPrograms_of_silent rfl rfl)).pushAll ?_, same⟩
        intro c member
        apply Event.leavesPrograms_of_command
        rintro h rfl
        simp [fill] at member
      | texture _ unit parameters =>
        refine ⟨(run.push (Event.leavesPrograms_of_silent rfl rfl)).pushAll ?_, same⟩
        intro c member
        apply Event.leavesPrograms_of_command
        rintro h rfl
        simp [seat] at member
  exact walk (b', w') path

theorem Program.leavesPrograms_drop {p : Program} :
    Emits (Event.LeavesPrograms (if p.owned then some p.handle else none)) w (p.drop.run w).2 := by
  have released {mine : Option Handle} :
      Emits (Event.LeavesPrograms mine) w (p.bindings.release.run w).2 := by
    unfold Bindings.release
    simp only [Engine.run_bind, Engine.run_commands, Engine.run_command]
    refine (Emits.performAll ?_).push (Event.leavesPrograms_of_command (by simp))
    intro c member
    obtain ⟨object, _, rfl⟩ := List.mem_map.mp member
    apply Event.leavesPrograms_of_command
    cases object <;> simp [BoundObject.deletion]
  unfold drop
  simp only [Engine.run_bind]
  by_cases owned : p.owned
  · rw [if_pos owned, if_pos owned]
    refine released.push ⟨rfl, fun h deletes => ?_⟩
    simpa [Event.deletes?, Command.deletes?] using deletes
  · rw [if_neg owned, if_neg owned]
    exact released

namespace ProgramCache

/-- What binding a program leaves alone. If it fails, the program goes if it is the caller's. -/
theorem leavesPrograms_bind (handle : Handle) (owned : Bool) (redraw : RedrawKey)
    (vertex fragment : CompiledShader) (config : ProgramConfig) :
    (bind handle owned redraw vertex fragment config).Ends w
      (fun p w' => p.handle = handle ∧ Emits (Event.LeavesPrograms none) w w')
      (fun _ w' => Emits (Event.LeavesPrograms (if owned then some handle else none)) w w') := by
  have start : Emits (Event.LeavesPrograms none) w (w.allocated .vertexArray) :=
    Emits.emit (Event.leavesPrograms_of_silent rfl rfl)
  rw [ends_bind]
  refine ⟨?_, ?_⟩
  · intro vertexArray _
    refine (Binder.follows_bindAll _ _ _ .refl).imp ?_ ?_
    · intro _ b w' path
      obtain ⟨run, same⟩ := Binder.leavesPrograms_path path
      exact ⟨same, start.trans run⟩
    · intro _ b w' path
      obtain ⟨run, same⟩ := Binder.leavesPrograms_path path
      have dropped := Program.leavesPrograms_drop (w := w') (p := bound owned config b)
      have program : (bound owned config b).handle = handle := same
      rw [program] at dropped
      exact ((start.trans run).mono fun _ leaves => leaves.mono _).trans dropped
  · intro e _
    cases owned with
    | true =>
      refine (start.mono fun _ leaves => leaves.mono _).push ⟨rfl, fun h deletes => ?_⟩
      simpa [Event.deletes?, Command.deletes?] using deletes
    | false => exact start

/-- A compilation and the events that it emits. -/
def compilation (cache : ProgramCache) (redraw : RedrawKey) (vertex fragment : CompiledShader)
    (config : ProgramConfig) (w : World δ) : Compilation :=
  let built := (cache.compile redraw vertex fragment config).run w
  { vertex := vertex.template
    fragment := fragment.template
    cached := config.cached
    events := built.2.events.drop w.events.length
    result := built.1.1 }

/-- Every compilation is served in one of the known ways, and its events are the new ones. -/
theorem served_compile (cache : ProgramCache) (redraw : RedrawKey) (vertex fragment : CompiledShader)
    (config : ProgramConfig) (w : World δ) :
    ((cache.compile redraw vertex fragment config).run w).2.events =
        w.events ++ (cache.compilation redraw vertex fragment config w).events ∧
      (cache.compilation redraw vertex fragment config w).Served cache
        ((cache.compile redraw vertex fragment config).run w).1.2 := by
  have known (es : List Event)
      (split : ((cache.compile redraw vertex fragment config).run w).2.events = w.events ++ es)
      (served : Compilation.Served cache
        ⟨vertex.template, fragment.template, config.cached, es,
          ((cache.compile redraw vertex fragment config).run w).1.1⟩
        ((cache.compile redraw vertex fragment config).run w).1.2) :
      ((cache.compile redraw vertex fragment config).run w).2.events =
          w.events ++ (cache.compilation redraw vertex fragment config w).events ∧
        (cache.compilation redraw vertex fragment config w).Served cache
          ((cache.compile redraw vertex fragment config).run w).1.2 := by
    unfold compilation
    dsimp only
    rw [split, List.drop_left]
    exact ⟨rfl, served⟩
  have bound (handle : Handle) (owned : Bool) (w' : World δ) :
      ∃ es, (((bind handle owned redraw vertex fragment config).run.run w').2).events = w'.events ++ es ∧
        (∀ e ∈ es, e.LeavesPrograms (if owned then some handle else none)) ∧
        ∀ p, ((bind handle owned redraw vertex fragment config).run.run w').1 = .ok p →
          p.handle = handle := by
    have ends := leavesPrograms_bind (w := w') handle owned redraw vertex fragment config
    unfold Attempt.Ends at ends
    generalize (bind handle owned redraw vertex fragment config).run.run w' = answer at ends
    obtain ⟨e | p, w''⟩ := answer
    · obtain ⟨es, split, all⟩ := ends
      exact ⟨es, split, all, nofun⟩
    · obtain ⟨same, es, split, all⟩ := ends
      refine ⟨es, split, fun e member => (all e member).mono _, fun q ok => ?_⟩
      rwa [← Except.ok.inj ok]
  rw [run_compile]
  rw [run_compile] at known
  cases conflict : checkSharedNames vertex fragment with
  | error e =>
    rw [conflict] at known
    exact known [] (by simp) (.rejected rfl rfl)
  | ok fit =>
    rw [conflict] at known
    simp only [run_link] at known ⊢
    cases reuse : (if config.cached then cache.find? vertex.template fragment.template else none) with
    | some handle =>
      rw [reuse] at known
      have cached : config.cached = true := by
        by_contra uncached
        simp [uncached] at reuse
      obtain ⟨es, split, all, program⟩ := bound handle false w
      refine known es split (.reused cached ?_ all program)
      simpa [cached] using reuse
    | none =>
      rw [reuse] at known
      have missing : config.cached = true → cache.find? vertex.template fragment.template = none := by
        intro cached
        simpa [cached] using reuse
      cases granted : w.granted (.program vertex.source fragment.source) with
      | error e =>
        rw [granted] at known
        refine known [.allocation (.program vertex.source fragment.source) (.error e)] ?_
          (.refused missing rfl rfl)
        dsimp only
        rw [World.emit_events, granted]
      | ok handle =>
        rw [granted] at known
        obtain ⟨es, split, all, program⟩ :=
          bound handle (!config.cached) (w.allocated (.program vertex.source fragment.source))
        refine known (.allocation (.program vertex.source fragment.source) (.ok handle) :: es) ?_
          (.linked missing rfl ?_ program)
        · dsimp only
          rw [split, World.emit_events, granted]
          simp
        · intro e member
          have leaves := all e member
          cases cached : config.cached <;> simpa [cached] using leaves

end ProgramCache
end Device
end ShaderStack

import ShaderStack.Proofs.Emission
import ShaderStack.Proofs.Locations
import ShaderStack.Proofs.Contributions
import ShaderStack.Proofs.Relinking

/-! Which inputs of a compiled template a program finds.

A source declares its inputs on lines of their own, so an input has a location if another line mentions it,
and a uniform also if the other stage declares and uses it. Binding asks for these locations and for no
others. -/
namespace ShaderStack

open Text Linkage

section Uses

variable {shader : CompiledShader} {front after : List (List Char)} {i : Nat} {n : NamedToken}

/-- A source uses an input that it declares if a line besides the declaration mentions it. -/
theorem CompiledShader.Lists.nontrivial_iff (lists : shader.Lists front after)
    (here : shader.inputs[i]? = some n) (unreserved : n.Unreserved) :
    (mentions shader.source n.name).Nontrivial ↔
      ∃ place ∈ mentions shader.source n.name, place.1 ≠ front.length + i := by
  have once := lists.mentioned i n here unreserved i n here
  rw [if_pos rfl] at once
  obtain ⟨k, only⟩ := Set.encard_eq_one.mp once
  have own : (front.length + i, k) ∈ mentions shader.source n.name := by
    have member : k ∈ ({k} : Set Nat) := rfl
    rwa [← only] at member
  constructor
  · rintro ⟨⟨l, j⟩, there, ⟨l', j'⟩, there', apart⟩
    by_contra none
    push Not at none
    obtain rfl := none _ there
    obtain rfl := none _ there'
    have same : j ∈ ({k} : Set Nat) := by rwa [← only]
    have same' : j' ∈ ({k} : Set Nat) := by rwa [← only]
    exact apart (by rw [Set.mem_singleton_iff.mp same, Set.mem_singleton_iff.mp same'])
  · rintro ⟨place, there, other⟩
    exact ⟨_, own, place, there, fun same => other (by rw [← same])⟩

theorem CompiledShader.Lists.uses_iff (lists : shader.Lists front after)
    (here : shader.inputs[i]? = some n) (unreserved : n.Unreserved) {keyword : String}
    (solid : Solid keyword.toList) (declared : n.name ∈ declarations keyword shader.source) :
    Uses keyword shader.source n.name ↔
      ∃ place ∈ mentions shader.source n.name, place.1 ≠ front.length + i := by
  rw [Uses, ← mem_declarations solid, and_iff_right declared, lists.nontrivial_iff here unreserved]

theorem CompiledShader.Lists.uses_in_iff (lists : shader.Lists front after)
    (here : shader.inputs[i]? = some n) (unreserved : n.Unreserved) (array : n.token.isAttribute = true) :
    Uses "in" shader.source n.name ↔
      ∃ place ∈ mentions shader.source n.name, place.1 ≠ front.length + i := by
  refine lists.uses_iff here unreserved solid_keywords.1 ?_
  have listed := List.mem_filter.mp (List.mem_of_getElem? here)
  rw [lists.attributes]
  refine List.mem_append_right _ (List.mem_append_left _ (List.mem_map.mpr ⟨n, ?_, rfl⟩))
  exact List.mem_filter.mpr ⟨listed.1, array⟩

theorem CompiledShader.Lists.uses_uniform_iff (lists : shader.Lists front after)
    (here : shader.inputs[i]? = some n) (unreserved : n.Unreserved) (uniform : n.token.isUniform = true) :
    Uses "uniform" shader.source n.name ↔
      ∃ place ∈ mentions shader.source n.name, place.1 ≠ front.length + i := by
  refine lists.uses_iff here unreserved solid_keywords.2 ?_
  have listed := List.mem_filter.mp (List.mem_of_getElem? here)
  rw [lists.uniforms]
  refine List.mem_append_right _ (List.mem_append_left _ (List.mem_map.mpr ⟨n, ?_, rfl⟩))
  exact List.mem_filter.mpr ⟨listed.1, uniform⟩

end Uses

namespace RecordingDevice

/-- Locations depend on the linked programs alone. -/
theorem lookup_congr {d d' : RecordingDevice} (same : d'.programs = d.programs) (l : Lookup) :
    d'.lookup l = d.lookup l := by
  cases l <;> simp only [lookup, same]

end RecordingDevice

namespace Binder

variable {p q r : Bindings × World RecordingDevice}

/-- Binding keeps the linked programs, and the device answers it from these. -/
structure Answered (p q : Bindings × World RecordingDevice) : Prop where
  program : q.1.program = p.1.program
  programs : q.2.device.programs = p.2.device.programs
  answers : ∃ found, lookups q.2.events = lookups p.2.events ++ found ∧
    ∀ a ∈ found, a.2 = p.2.device.lookup a.1

theorem Answered.silent (program : q.1.program = p.1.program)
    (programs : q.2.device.programs = p.2.device.programs)
    (events : lookups q.2.events = lookups p.2.events) : Answered p q :=
  ⟨program, programs, [], by rw [events, List.append_nil], nofun⟩

theorem Answered.trans (first : Answered p q) (second : Answered q r) : Answered p r := by
  obtain ⟨found, events, told⟩ := first.answers
  obtain ⟨found', events', told'⟩ := second.answers
  refine ⟨second.program.trans first.program, second.programs.trans first.programs, found ++ found',
    by rw [events', events, List.append_assoc], fun a member => ?_⟩
  rcases List.mem_append.mp member with here | there
  · exact told a here
  · rw [told' a there, RecordingDevice.lookup_congr first.programs]

/-- Whatever is allocated for binding, no program comes or goes. -/
theorem programs_allocated {a : Allocation} {w : World RecordingDevice}
    (resource : a.kind ≠ .program) : (w.allocated a).device.programs = w.device.programs := by
  cases a with
  | program vertex fragment => exact absurd rfl resource
  | _ => rfl

theorem programs_performAll {cs : List Command} {w : World RecordingDevice}
    (keep : ∀ h, .deleteProgram h ∉ cs) : (w.performAll cs).device.programs = w.device.programs := by
  obtain ⟨device, trace, same, _, _, programs⟩ := w.performAll_eq cs
  rw [same]
  exact programs keep

theorem Step.answered (step : Step p q) : Answered p q := by
  cases step with
  | note program => exact .silent program rfl rfl
  | lookup l => exact ⟨rfl, rfl, _, lookups_lookedUp, by simp [World.located]; rfl⟩
  | look value => exact .silent rfl rfl rfl
  | @listen b w id s source =>
    have same : (w.listen id s).device = w.device ∧ (w.listen id s).trace = w.trace := by
      unfold World.listen
      split
      · split <;> exact ⟨rfl, rfl⟩
      · exact ⟨rfl, rfl⟩
    exact .silent rfl (by rw [same.1]) (by simp only [World.events, same.2])
  | @refused b w a e resource granted =>
    refine .silent rfl (programs_allocated ?_) lookups_allocated
    rcases resource with rfl | rfl <;> decide
  | @buffer b w buffer granted target data pointers =>
    refine .silent rfl ?_ (lookups_performAll.trans lookups_allocated)
    exact (programs_performAll (by simp [fill])).trans (programs_allocated (by decide))
  | @texture b w texture granted unit parameters =>
    refine .silent rfl ?_ (lookups_performAll.trans lookups_allocated)
    exact (programs_performAll (by simp [seat])).trans (programs_allocated (by decide))

theorem answered_path (path : Path p q) : Answered p q := by
  induction path with
  | refl => exact .silent rfl rfl rfl
  | tail _ step ih => exact ih.trans step.answered

end Binder

namespace ProgramCache

variable {cache cache' : ProgramCache} {redraw : RedrawKey} {vertex fragment : CompiledShader}
  {config : ProgramConfig} {w w' : World RecordingDevice} {p : Program}

/-- A program that is linked, or was linked before from the same two sources, has their locations. -/
theorem lookup_link {cached owned : Bool} {handle : Handle} {start : World RecordingDevice}
    (reuse : cached = true → ∀ h, cache.find? vertex.template fragment.template = some h →
      w.device.programs.lookup h = some (ofSources vertex.source fragment.source))
    (linked : (cache.link vertex fragment cached).run w = ((.ok (handle, owned), cache'), start)) :
    start.device.programs.lookup handle = some (ofSources vertex.source fragment.source) := by
  rw [run_link] at linked
  cases hit : (if cached then cache.find? vertex.template fragment.template else none) with
  | some h =>
    rw [hit] at linked
    obtain ⟨cached', found⟩ : cached = true ∧ cache.find? vertex.template fragment.template = some h := by
      cases cached <;> simp_all
    cases linked
    exact reuse cached' _ found
  | none =>
    rw [hit] at linked
    dsimp only at linked
    cases granted : w.granted (.program vertex.source fragment.source) with
    | error e =>
      rw [granted] at linked
      cases linked
    | ok h =>
      rw [granted] at linked
      cases linked
      exact RecordingDevice.lookup_allocate (Prod.ext granted rfl)

/-- The device answers binding from the programs that it has by then. -/
theorem answered_bind {handle : Handle} {owned : Bool} {start : World RecordingDevice}
    (bound : (bind handle owned redraw vertex fragment config).run.run start = (.ok p, w')) :
    Binder.Answered ({ program := handle, vertexArray := start.device.nextHandle },
      start.allocated .vertexArray) (p.bindings, w') := by
  have path : (bind handle owned redraw vertex fragment config).Ends start
      (fun p w' => Binder.Answered ({ program := handle, vertexArray := start.device.nextHandle },
        start.allocated .vertexArray) (p.bindings, w')) fun _ _ => True := by
    rw [ends_bind_recording]
    exact (Binder.follows_bindAll _ _ _ .refl).imp (fun _ _ _ path => Binder.answered_path path)
      fun _ _ _ _ => trivial
  exact path.of_ok bound

/-- A compiled program accounts for its tokens by the locations of the two sources. -/
theorem accounted_compile
    (compiled : (cache.compile redraw vertex fragment config).run w = ((.ok p, cache'), w'))
    (reuse : config.cached = true → ∀ h, cache.find? vertex.template fragment.template = some h →
      w.device.programs.lookup h = some (ofSources vertex.source fragment.source)) :
    w'.device.programs.lookup p.handle = some (ofSources vertex.source fragment.source) ∧
      Accounted w'.device.lookup (bindingOrder vertex fragment config) w.host p := by
  rw [run_compile] at compiled
  cases fit : checkSharedNames vertex fragment with
  | error e =>
    rw [fit] at compiled
    cases compiled
  | ok _ =>
    rw [fit] at compiled
    obtain ⟨_, still⟩ := lookups_link (w := w) cache vertex fragment config.cached
    dsimp only at compiled
    generalize linked : (cache.link vertex fragment config.cached).run w = link at compiled still
    obtain ⟨⟨e | ⟨handle, owned⟩, cache₁⟩, start⟩ := link
    · cases compiled
    · dsimp only at compiled still
      have located := lookup_link reuse linked
      generalize built : (bind handle owned redraw vertex fragment config).run.run start = answer
        at compiled
      obtain ⟨result, w₂⟩ := answer
      cases compiled
      obtain ⟨found, asked, account⟩ := (accounts_bind w₂.device.lookup).of_ok built
      obtain ⟨program, programs, answers, events, told⟩ := answered_bind built
      dsimp only at program programs events told
      have unchanged : w₂.device.programs = start.device.programs :=
        programs.trans (Binder.programs_allocated (by decide))
      refine ⟨?_, still ▸ account fun q member => ?_⟩
      · rw [unchanged, Program.handle, program]
        exact located
      · have same : found = answers := by
          rw [lookups_allocated, asked] at events
          exact List.append_cancel_left events
        rw [told q (same ▸ member), RecordingDevice.lookup_congr programs]

end ProgramCache

section Finding

variable {d : RecordingDevice} {p : Program} {n : NamedToken} {stage : ShaderStage} {host : Host}
  {ts : List StagedToken}

/-- The program finds the input of a token if it is used, and then has a slot for it. Otherwise it reports
the token as missing. -/
structure Program.Finds (p : Program) (d : RecordingDevice) (stage : ShaderStage) (n : NamedToken)
    (used : Prop) : Prop where
  slot : used → ∃ slot ∈ p.bindings.queue.slots,
    ∀ host, StagedToken.slot? d.lookup p.handle host ⟨stage, n⟩ = some slot
  missing : (∃ r ∈ p.bindings.missing, r.name = n.name ∧ r.type = n.token.type ∧ r.stage = stage) ↔ ¬ used

theorem mem_contributions {locate : LocationTable} {program : Handle} {t : StagedToken}
    {slot : BindingSlot} (member : t ∈ ts) (takes : ∀ host, t.slot? locate program host = some slot)
    (host : Host) : slot ∈ contributions locate program host ts := by
  induction ts generalizing host with
  | nil => contradiction
  | cons u us ih =>
    rcases List.mem_cons.mp member with rfl | later
    · exact List.mem_append_left _ (by simp [takes])
    · exact List.mem_append_right _ (ih later _)

/-- What a token looks up depends on its name and on its type. -/
theorem NamedToken.asks_eq {program : Handle} {l : Lookup} (asks : n.asks program = some l) :
    l = if n.token.type = .vertexAttribute then .attributeLocation program n.name
      else .uniformLocation program n.name := by
  obtain ⟨name, id, kind⟩ := n
  cases kind with
  | vertexAttribute a =>
    cases target : a.options.target <;> simp_all [NamedToken.asks, Token.type, TokenKind.type]
  | uniform u => simp_all [NamedToken.asks, Token.type, TokenKind.type]
  | sampler s => simp_all [NamedToken.asks, Token.type, TokenKind.type]
  | scope name => simp [NamedToken.asks] at asks

theorem StagedToken.exists_slot {locate : LocationTable} {program : Handle} {l : Lookup}
    {location : Location} (stage : ShaderStage) (asks : n.asks program = some l)
    (located : locate l = some location) :
    ∃ slot, ∀ host, StagedToken.slot? locate program host ⟨stage, n⟩ = some slot := by
  obtain ⟨name, id, kind⟩ := n
  cases kind with
  | vertexAttribute a =>
    cases target : a.options.target with
    | array =>
      refine ⟨.vertexAttribute location, fun host => ?_⟩
      simp_all [NamedToken.asks, StagedToken.slot?]
    | elementArray => simp [NamedToken.asks, target] at asks
  | uniform u =>
    refine ⟨.uniform location, fun host => ?_⟩
    simp_all [NamedToken.asks, StagedToken.slot?]
  | sampler s =>
    refine ⟨.uniform location, fun host => ?_⟩
    simp_all [NamedToken.asks, StagedToken.slot?]
  | scope name => simp [NamedToken.asks] at asks

theorem StagedToken.of_report {locate : LocationTable} {program : Handle} {t : StagedToken}
    {r : MissingBinding} (report : t.report? locate program = some r) :
    ∃ l, t.named.asks program = some l ∧ locate l = none ∧ r.name = t.named.name ∧
      r.type = t.named.token.type := by
  unfold report? at report
  split at report
  · contradiction
  · next l asks =>
    split at report
    · next lost =>
      obtain rfl := Option.some.inj report
      exact ⟨l, asks, lost, rfl, rfl⟩
    · contradiction

theorem ProgramCache.Accounted.finds (accounted : Accounted d.lookup ts host p)
    (member : ⟨stage, n⟩ ∈ ts) {l : Lookup} (asks : n.asks p.handle = some l) :
    p.Finds d stage n ((d.lookup l).isSome = true) := by
  have nowhere : d.lookup l = none ↔ ¬ (d.lookup l).isSome = true := by
    cases d.lookup l <;> simp
  constructor
  · intro found
    obtain ⟨location, located⟩ := Option.isSome_iff_exists.mp found
    have takes : ∃ slot, ∀ host, StagedToken.slot? d.lookup p.handle host ⟨stage, n⟩ = some slot :=
      StagedToken.exists_slot stage asks located
    obtain ⟨slot, takes⟩ := takes
    refine ⟨slot, ?_, takes⟩
    rw [accounted.slots, List.mem_eraseDups]
    exact mem_contributions member takes host
  · rw [accounted.missing, ← nowhere]
    constructor
    · rintro ⟨r, reported, name, type, _⟩
      obtain ⟨t, _, report⟩ := List.mem_filterMap.mp reported
      obtain ⟨l', asks', lost, named, typed⟩ := StagedToken.of_report report
      have same : l = l' := by
        rw [NamedToken.asks_eq asks, NamedToken.asks_eq asks', ← typed, ← named, name, type]
        rfl
      rw [same]
      exact lost
    · intro lost
      have report : ∃ r, StagedToken.report? d.lookup p.handle ⟨stage, n⟩ = some r ∧
          r.name = n.name ∧ r.type = n.token.type ∧ r.stage = stage := by
        unfold StagedToken.report?
        rw [asks]
        dsimp only
        rw [if_pos lost]
        exact ⟨_, rfl, rfl, rfl, rfl⟩
      obtain ⟨r, reported, known⟩ := report
      exact ⟨r, List.mem_filterMap.mpr ⟨_, member, reported⟩, known⟩

theorem Program.Finds.congr {used used' : Prop} (finds : p.Finds d stage n used) (same : used ↔ used') :
    p.Finds d stage n used' := by
  rwa [propext same] at finds

end Finding

/-- The shader of a stage and that of the other one, as a pair of a vertex and a fragment shader. -/
def ShaderStage.pair (own other : CompiledShader) : ShaderStage → CompiledShader × CompiledShader
  | vertex => (own, other)
  | fragment => (other, own)

/-- A program that was compiled from two shaders. If the cache had a program for the pair, that one was
linked from the same two sources. -/
structure ProgramCache.Compiles (cache : ProgramCache) (shaders : CompiledShader × CompiledShader)
    (config : ProgramConfig) (w w' : World RecordingDevice) (p : Program) : Prop where
  built : ∃ redraw cache', (cache.compile redraw shaders.1 shaders.2 config).run w = ((.ok p, cache'), w')
  linked : config.cached = true → ∀ h, cache.find? shaders.1.template shaders.2.template = some h →
    w.device.programs.lookup h = some (ofSources shaders.1.source shaders.2.source)

section Stages

variable {cache : ProgramCache} {own other : CompiledShader} {config : ProgramConfig}
  {w w' : World RecordingDevice} {p : Program} {n : NamedToken}

theorem ProgramCache.Compiles.finds_attribute (compiles : cache.Compiles (own, other) config w w' p)
    (member : n ∈ own.tokens) (array : n.token.isAttribute = true) :
    p.Finds w'.device .vertex n (Uses "in" own.source n.name) := by
  obtain ⟨redraw, cache', built⟩ := compiles.built
  obtain ⟨programs, accounted⟩ := accounted_compile built compiles.linked
  have listed : (⟨.vertex, n⟩ : StagedToken) ∈ bindingOrder own other config :=
    List.mem_append_left _ (List.mem_append_left _ (List.mem_map_of_mem member))
  have asks : n.asks p.handle = some (.attributeLocation p.handle n.name) := by
    unfold Token.isAttribute at array
    cases kind : n.token.kind <;> simp_all [NamedToken.asks]
  refine (accounted.finds listed asks).congr ?_
  rw [← (numbered_attributes own.source other.source).located n.name]
  simp only [RecordingDevice.lookup, programs, Option.bind_eq_bind, Option.bind_some]

theorem ProgramCache.Compiles.finds_uniform {stage : ShaderStage}
    (compiles : cache.Compiles (stage.pair own other) config w w' p)
    (member : n ∈ own.tokens) (uniform : n.token.isUniform = true) :
    p.Finds w'.device stage n (Uses "uniform" own.source n.name ∨ Uses "uniform" other.source n.name) := by
  obtain ⟨redraw, cache', built⟩ := compiles.built
  obtain ⟨programs, accounted⟩ := accounted_compile built compiles.linked
  have listed : (⟨stage, n⟩ : StagedToken) ∈
      bindingOrder (stage.pair own other).1 (stage.pair own other).2 config := by
    refine List.mem_append_left _ ?_
    cases stage with
    | vertex => exact List.mem_append_left _ (List.mem_map_of_mem member)
    | fragment => exact List.mem_append_right _ (List.mem_map_of_mem member)
  have asks : n.asks p.handle = some (.uniformLocation p.handle n.name) := by
    unfold Token.isUniform at uniform
    cases kind : n.token.kind <;> simp_all [NamedToken.asks]
  have either : (Uses "uniform" (stage.pair own other).1.source n.name ∨
      Uses "uniform" (stage.pair own other).2.source n.name) ↔
      Uses "uniform" own.source n.name ∨ Uses "uniform" other.source n.name := by
    cases stage with
    | vertex => rfl
    | fragment => exact or_comm
  refine (accounted.finds listed asks).congr (Iff.trans ?_ either)
  rw [← (numbered_uniforms (stage.pair own other).1.source
    (stage.pair own other).2.source).located n.name]
  simp only [RecordingDevice.lookup, programs, Option.bind_eq_bind, Option.bind_some]

end Stages

/-- Scanning the source of a template gives the names of its inputs in one block, in the order of their
first occurrences and whatever its text. A program that is linked from it finds an attribute if a line
besides the declaration mentions it, and a uniform if a stage that declares it mentions it at two places, of
which the declaration is one. -/
theorem linked_template_finds_used (t : Template)
    (identifiers : ∀ n ∈ t.compile.tokens, Identifies n.name) :
    t.compile.tokens.map (fun n => n.token.id) = (t.body.occurrences.map Token.id).eraseDups ∧
    ∃ front after, t.compile.Lists front after ∧
      ∀ (stage : ShaderStage) (other : CompiledShader) (cache : ProgramCache) (config : ProgramConfig)
        (w w' : World RecordingDevice) (p : Program),
        cache.Compiles (stage.pair t.compile other) config w w' p →
        ∀ i n, t.compile.inputs[i]? = some n → n.Unreserved →
          (stage = .vertex → n.token.isAttribute → p.Finds w'.device stage n
            (∃ place ∈ mentions t.compile.source n.name, place.1 ≠ front.length + i)) ∧
          (n.token.isUniform →
            p.Finds w'.device stage n
              (Uses "uniform" t.compile.source n.name ∨ Uses "uniform" other.source n.name) ∧
            (Uses "uniform" t.compile.source n.name ↔
              ∃ place ∈ mentions t.compile.source n.name, place.1 ≠ front.length + i)) := by
  obtain ⟨front, after, lists⟩ := t.exists_lists identifiers
  refine ⟨t.ids_compile, front, after, lists,
    fun stage other cache config w w' p compiles i n here unreserved => ?_⟩
  have member : n ∈ t.compile.tokens := (List.mem_filter.mp (List.mem_of_getElem? here)).1
  refine ⟨?_, fun uniform => ⟨compiles.finds_uniform member uniform,
    lists.uses_uniform_iff here unreserved uniform⟩⟩
  rintro rfl array
  exact (ProgramCache.Compiles.finds_attribute compiles member array).congr
    (lists.uses_in_iff here unreserved array)

section Sketch

/-- A function that uses its first attribute. Only a comment mentions the second one. -/
def sketch : Template :=
  let vectors (id : Identity) : Token := ⟨id, .vertexAttribute ⟨.vector .real .two, pure ⟨id, .f32, []⟩, {}⟩⟩
  ⟨0, .ofParts [.text "void main() \x7b gl_Position = vec4(", .token (vectors 1), .text ", 0.0, 1.0); \x7d // ",
    .token (vectors 2)]⟩

def sketchFragment : CompiledShader := ⟨1, "void main() \x7b \x7d", []⟩

def sketched : (Except RenderError Program × ProgramCache) × World RecordingDevice :=
  StateT.run (ProgramCache.compile {} 0 sketch.compile sketchFragment { draw := .arrays 0 3 }) { device := {} }

/-- The program has a slot for the one attribute and misses the other, which no other line mentions. -/
theorem sketch_finds_used : ∃ p w',
    ProgramCache.Compiles {} (ShaderStage.vertex.pair sketch.compile sketchFragment) { draw := .arrays 0 3 }
      { device := {} } w' p ∧
    p.bindings.queue.slots = [.vertexAttribute 0] ∧
    p.bindings.missing = [⟨"a_1", .vertexAttribute, .vertex, .elided⟩] ∧
    ∃ front after, sketch.compile.Lists front after ∧
      (∃ place ∈ mentions sketch.compile.source "a_0", place.1 ≠ front.length) ∧
      ¬ ∃ place ∈ mentions sketch.compile.source "a_1", place.1 ≠ front.length + 1 := by
  -- the run is evaluated once, for the slots and for the reports
  have outcome : sketched.1.1.toOption.map (fun p => (p.bindings.queue.slots, p.bindings.missing)) =
      some ([.vertexAttribute 0], [⟨"a_1", .vertexAttribute, .vertex, .elided⟩]) := by
    decide +kernel
  obtain ⟨a, b, inputs⟩ : ∃ a b, sketch.compile.inputs = [a, b] :=
    List.length_eq_two.mp (by decide +kernel)
  have names : a.name = "a_0" ∧ b.name = "a_1" := by
    have names : sketch.compile.inputs.map NamedToken.name = ["a_0", "a_1"] := by decide +kernel
    simpa [inputs] using names
  have arrays : a.token.isAttribute = true ∧ b.token.isAttribute = true := by
    have arrays : ∀ n ∈ sketch.compile.inputs, n.token.isAttribute = true := by decide +kernel
    simpa [inputs] using arrays
  have free {n : NamedToken} (named : n.name = "a_0" ∨ n.name = "a_1") : n.Unreserved := by
    refine ⟨by rcases named with named | named <;> rw [named] <;> decide, fun type => ?_⟩
    rcases named with named | named <;> rw [named]
    all_goals
      rcases type with ⟨_ | _, _ | _ | _ | _⟩ | ⟨_ | _ | _⟩ | _ <;> decide +kernel
  generalize built : sketched = answer at outcome
  obtain ⟨⟨e | p, cache⟩, w'⟩ := answer
  · simp [Except.toOption] at outcome
  · simp only [Except.toOption, Option.map_some, Option.some.injEq, Prod.mk.injEq] at outcome
    have compiles : ProgramCache.Compiles {} (ShaderStage.vertex.pair sketch.compile sketchFragment)
        { draw := .arrays 0 3 } { device := {} } w' p :=
      ⟨⟨0, cache, built⟩, fun cached => absurd cached Bool.false_ne_true⟩
    obtain ⟨_, front, after, lists, finds⟩ := linked_template_finds_used sketch (by decide +kernel)
    have first := (finds .vertex sketchFragment {} _ _ w' p compiles 0 a (by rw [inputs]; rfl)
      (free (.inl names.1))).1 rfl arrays.1
    have second := (finds .vertex sketchFragment {} _ _ w' p compiles 1 b (by rw [inputs]; rfl)
      (free (.inr names.2))).1 rfl arrays.2
    rw [names.1] at first
    rw [names.2] at second
    refine ⟨p, w', compiles, outcome.1, outcome.2, front, after, lists, ?_, ?_⟩
    · by_contra unused
      obtain ⟨r, reported, named, _⟩ := first.missing.mpr unused
      rw [outcome.2, List.mem_singleton] at reported
      rw [reported, names.1] at named
      exact absurd named (by decide)
    · have reported : ∃ r ∈ p.bindings.missing,
          r.name = b.name ∧ r.type = b.token.type ∧ r.stage = .vertex := by
        rw [outcome.2, names.2, Token.type_of_isAttribute arrays.2]
        exact ⟨_, List.mem_singleton_self _, rfl, rfl, rfl⟩
      exact second.missing.mp reported

end Sketch
end ShaderStack

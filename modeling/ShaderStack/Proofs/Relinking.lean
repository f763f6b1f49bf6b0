import ShaderStack.Proofs.Rebinding

/-! Compiling with and without the cache.

A hit binds the tokens of today to a program that was linked from the texts of an earlier evaluation. The
texts of one identity are equal, so that the program has the locations that a new link would have. -/
namespace ShaderStack

open World (Echo)
open Correspondence

variable {R R' : Correspondence} {w w' v v' : World RecordingDevice}

namespace World

/-- Two contexts stay the same while their devices make different calls. -/
theorem Twin.moved (twin : w.Twin R w') (alike : v.Alike R v')
    (counter : w.device.nextHandle ≤ v.device.nextHandle)
    (counter' : w'.device.nextHandle ≤ v'.device.nextHandle)
    (ahead : v'.device.nextHandle ≤ v.device.nextHandle)
    (extensions : v.device.extensions = w.device.extensions)
    (extensions' : v'.device.extensions = w'.device.extensions) : v.Twin R v' := by
  refine ⟨alike, twin.proper, fun k h h' known => ?_, ahead, ?_⟩
  · have bound := twin.known k h h' known
    exact ⟨Nat.lt_of_lt_of_le bound.1 counter, Nat.lt_of_lt_of_le bound.2 counter'⟩
  · rw [extensions, extensions', twin.extensions]

/-- One more pair of programs, the first of which is new. -/
theorem Twin.link (twin : w.Twin R w') {h h' : Handle} (here : h < w.device.nextHandle)
    (there : h' < w'.device.nextHandle) (new : ∀ k h', ¬ R k h h') :
    w.Twin (R.add .program h h') w' := by
  refine ⟨twin.toAlike.mono le_add, twin.proper.add (new _) fun other => absurd rfl other, ?_,
    twin.ahead, twin.extensions⟩
  rintro k a b (known | ⟨_, rfl, rfl⟩)
  · exact twin.known k a b known
  · exact ⟨here, there⟩

/-- Commands reach the device and the trace. -/
theorem performAll_eq (w : World RecordingDevice) (cs : List Command) :
    ∃ device trace, w.performAll cs = { w with device, trace } ∧
      device.nextHandle = w.device.nextHandle ∧ device.extensions = w.device.extensions ∧
      ((∀ h, .deleteProgram h ∉ cs) → device.programs = w.device.programs) := by
  induction cs generalizing w with
  | nil => exact ⟨w.device, w.trace, rfl, rfl, rfl, fun _ => rfl⟩
  | cons c cs ih =>
    obtain ⟨device, trace, eq, counter, extensions, programs⟩ := ih (w.perform c)
    obtain ⟨counted, offered⟩ := RecordingDevice.counter_command c w.device
    refine ⟨device, trace, eq, counter.trans counted, extensions.trans offered, fun keep => ?_⟩
    have kept := RecordingDevice.keeps_command
      (fun h same => keep h (same ▸ List.mem_cons_self)) w.device
    exact (programs fun h member => keep h (List.mem_cons_of_mem _ member)).trans kept.programs

/-- Commands may differ where nothing is compared any more. -/
theorem Twin.performed (twin : w.Twin R w') (cs cs' : List Command) :
    (w.performAll cs).Twin R (w'.performAll cs') := by
  obtain ⟨device, trace, eq, counter, extensions, _⟩ := w.performAll_eq cs
  obtain ⟨device', trace', eq', counter', extensions', _⟩ := w'.performAll_eq cs'
  rw [eq, eq']
  exact twin.moved { twin.toAlike with } counter.ge counter'.ge
    (counter'.trans_le (twin.ahead.trans counter.ge)) extensions extensions'

end World

/-- What is deleted with a program. -/
def Program.deletions (p : Program) : List Command :=
  p.bindings.objects.map BoundObject.deletion ++
    (.deleteVertexArray p.bindings.vertexArray ::
      if p.owned then [.deleteProgram p.handle] else [])

theorem Program.run_drop {p : Program} {w : World δ} [GraphicsDevice δ] :
    (p.drop.run w).2 = w.performAll p.deletions := by
  unfold drop Bindings.release deletions
  simp only [Engine.run_bind, Engine.run_commands, Engine.run_command, World.performAll_append]
  cases p.owned <;> rfl

namespace ProgramCache

/-- Each entry is a program that was linked from the texts of its pair. -/
def Sound (R : Correspondence) (text : Identity → String) (programs : List (Handle × Linkage))
    (cache : ProgramCache) : Prop :=
  ∀ vertex fragment h, cache.find? vertex fragment = some h →
    (∃ g, R .program g h) ∧
      ∃ linkage, programs.lookup h = some linkage ∧
        Linkage.build (text vertex) (text fragment) = .ok linkage

variable {text : Identity → String} {programs : List (Handle × Linkage)} {cache cache' : ProgramCache}

theorem Sound.mono (grow : R ≤ R') (sound : cache.Sound R text programs) :
    cache.Sound R' text programs := by
  intro vertex fragment h found
  obtain ⟨⟨g, partner⟩, linked⟩ := sound vertex fragment h found
  exact ⟨⟨g, grow _ _ _ partner⟩, linked⟩

/-- Linking a program hides no other. -/
theorem Sound.cons (twin : w.Twin R w') (sound : cache.Sound R text programs) (linkage : Linkage) :
    cache.Sound R text ((w'.device.nextHandle, linkage) :: programs) := by
  intro vertex fragment h found
  obtain ⟨⟨g, partner⟩, known, there, built⟩ := sound vertex fragment h found
  have older : h ≠ w'.device.nextHandle := Nat.ne_of_lt (twin.known _ _ _ partner).2
  exact ⟨⟨g, partner⟩, known, (lookup_cons_other older).trans there, built⟩

/-- A new entry for the program that was linked last. -/
theorem Sound.insert {vertex fragment : Identity} {g h : Handle} {linkage : Linkage} {links : Nat}
    (sound : cache.Sound R text ((h, linkage) :: programs)) (partner : R .program g h)
    (built : Linkage.build (text vertex) (text fragment) = .ok linkage) :
    ProgramCache.Sound R text ((h, linkage) :: programs)
      { entries := ((vertex, fragment), h) :: cache.entries, links } := by
  intro v f h' found
  unfold find? at found
  dsimp only at found
  by_cases same : (v, f) = (vertex, fragment)
  · obtain ⟨rfl, rfl⟩ := Prod.mk.inj same
    rw [List.lookup_cons_self] at found
    obtain rfl := Option.some.inj found
    exact ⟨⟨g, partner⟩, linkage, List.lookup_cons_self, built⟩
  · rw [List.lookup_cons, beq_false_of_ne same] at found
    exact sound v f h' found

/-- Two programs to be bound, with the same locations. -/
structure Linked (R : Correspondence) (w w' : World RecordingDevice) (h h' : Handle) : Prop where
  world : w.Twin R w'
  partner : R .program h h'
  linkage : w'.device.programs.lookup h' = w.device.programs.lookup h

/-- The recording device has a vertex array for everybody. -/
theorem ends_bind_recording {handle : Handle} {owned : Bool} {redraw : RedrawKey}
    {vertex fragment : CompiledShader} {config : ProgramConfig}
    {done : Program → World RecordingDevice → Prop}
    {failed : RenderError → World RecordingDevice → Prop} :
    (bind handle owned redraw vertex fragment config).Ends w done failed ↔
      (Binder.bindAll redraw vertex fragment config).Ends
        { program := handle, vertexArray := w.device.nextHandle } (w.allocated .vertexArray)
        (fun _ b w' => done (bound owned config b) w')
        fun e b w' => failed e (w'.performAll (bound owned config b).deletions) := by
  have granted (w : World RecordingDevice) : w.granted .vertexArray = .ok w.device.nextHandle := rfl
  rw [ends_bind]
  simp only [granted, Except.ok.injEq, forall_eq', reduceCtorEq, IsEmpty.forall_iff, implies_true,
    and_true, Program.run_drop]

theorem keeps_deletions {p : Program} (shared : p.owned = false) (h : Handle) :
    .deleteProgram h ∉ p.deletions := by
  unfold Program.deletions
  rw [shared]
  intro member
  rcases List.mem_append.mp member with object | array
  · obtain ⟨object, _, same⟩ := List.mem_map.mp object
    cases object <;> simp [BoundObject.deletion] at same
  · simp at array

/-- Both answers are errors, and equal, or both are programs that do the same. -/
inductive Same (R : Correspondence) : Except RenderError Program → Except RenderError Program → Prop
  | error {e : RenderError} : Same R (.error e) (.error e)
  | ok {p p' : Program} (same : p.Twin R p') : Same R (.ok p) (.ok p')

/-- All tokens are bound alike to programs with the same locations, through new vertex arrays. -/
theorem mirrored_bindAll {h h' : Handle} (linked : Linked R w w' h h') (redraw : RedrawKey)
    (vertex fragment : CompiledShader) (config : ProgramConfig) :
    (Binder.bindAll redraw vertex fragment config).Ends { program := h, vertexArray := w.device.nextHandle }
      (w.allocated .vertexArray)
      (fun _ b v => Unspent v.events →
        (Binder.bindAll redraw vertex fragment config).Ends
          { program := h', vertexArray := w'.device.nextHandle } (w'.allocated .vertexArray)
          (fun _ b' v' => Binder.Reached R w w' b b' v v') fun _ _ _ => False)
      fun e b v => Unspent v.events →
        (Binder.bindAll redraw vertex fragment config).Ends
          { program := h', vertexArray := w'.device.nextHandle } (w'.allocated .vertexArray)
          (fun _ _ _ => False) fun e' b' v' => e' = e ∧ Binder.Reached R w w' b b' v v' := by
  -- the vertex arrays already need names, and without them nothing later is compared
  by_cases room : Unspent (w.allocated .vertexArray).events
  · have allocated := linked.world.allocated (by decide) room
    have paired : Binder.Paired _ { program := h, vertexArray := w.device.nextHandle }
        { program := h', vertexArray := w'.device.nextHandle } _ _ :=
      ⟨allocated.twin,
        ⟨allocated.grow _ _ _ linked.partner, add_self, .nil, rfl, rfl, rfl, rfl⟩, by
          rw [allocated.programs, allocated.programs']
          exact linked.linkage⟩
    refine ((Binder.mirrored_bindAll redraw vertex fragment config).after allocated paired).imp ?_ ?_
    · exact fun _ _ _ ends room => (ends room).imp (fun _ _ _ done => done.2) fun _ _ _ => id
    · exact fun _ _ _ ends => ends
  · exact Binder.follows_bindAll.spent room

/-- Programs with the same locations are bound alike. A program of the cache stays when this fails. -/
theorem mirrored_bind {h h' : Handle} (linked : Linked R w w' h h') (redraw : RedrawKey)
    (vertex fragment : CompiledShader) (config : ProgramConfig) :
    let bound := (bind h true redraw vertex fragment { config with cached := false }).run.run w
    let bound' := (bind h' false redraw vertex fragment { config with cached := true }).run.run w'
    Unspent bound.2.events → ∃ R', R ≤ R' ∧ bound.2.Twin R' bound'.2 ∧
      bound'.2.device.programs = w'.device.programs ∧ Same R' bound.1 bound'.1 := by
  have ends : (bind h true redraw vertex fragment { config with cached := false }).Ends w
      (fun p v => Unspent v.events →
        (bind h' false redraw vertex fragment { config with cached := true }).Ends w'
          (fun p' v' => ∃ R', R ≤ R' ∧ v.Twin R' v' ∧ v'.device.programs = w'.device.programs ∧
            p.Twin R' p') fun _ _ => False)
      fun e v => Unspent v.events →
        (bind h' false redraw vertex fragment { config with cached := true }).Ends w'
          (fun _ _ => False) fun e' v' => e' = e ∧ ∃ R', R ≤ R' ∧ v.Twin R' v' ∧
            v'.device.programs = w'.device.programs := by
    rw [ends_bind_recording]
    refine (mirrored_bindAll linked redraw vertex fragment config).imp ?_ ?_
    · intro _ b v ends room
      rw [ends_bind_recording]
      refine (ends room).imp ?_ fun _ _ _ impossible => impossible
      rintro _ b' v' ⟨R', run, _, bindings, _⟩
      refine ⟨R', run.grow, run.twin, run.programs', bindings, ?_, rfl, rfl⟩
      unfold bound
      rw [bindings.modes]
    · intro e b v ends room
      rw [ends_bind_recording]
      refine (ends room.of_performAll).imp (fun _ _ _ impossible => impossible.elim) ?_
      rintro e' b' v' ⟨same, R', run, _⟩
      refine ⟨same, R', run.grow, run.twin.performed _ _, ?_⟩
      obtain ⟨device, trace, eq, _, _, programs⟩ :=
        v'.performAll_eq (bound false { config with cached := true } b').deletions
      rw [eq]
      exact (programs (keeps_deletions rfl)).trans run.programs'
  unfold Attempt.Ends at ends
  dsimp only
  intro room
  generalize (bind h true redraw vertex fragment _).run.run w = answer at ends room
  generalize (bind h' false redraw vertex fragment _).run.run w' = answer' at ends
  obtain ⟨e | p, v⟩ := answer <;> obtain ⟨e' | p', v'⟩ := answer'
  · obtain ⟨rfl, R', grow, twin, programs⟩ := ends room
    exact ⟨R', grow, twin, programs, .error⟩
  · exact (ends room).elim
  · exact (ends room).elim
  · obtain ⟨R', grow, twin, programs, same⟩ := ends room
    exact ⟨R', grow, twin, programs, .ok same⟩

section Link

variable {vertex fragment : CompiledShader} {linkage : Linkage} {e : RenderError}

/-- Texts that do not build give no program. -/
theorem refused_program (w : World RecordingDevice)
    (failed : Linkage.build vertex.source fragment.source = .error e) :
    w.granted (.program vertex.source fragment.source) = .error e ∧
      (w.allocated (.program vertex.source fragment.source)).device = w.device := by
  have answer : w.device.allocate (.program vertex.source fragment.source) =
      (.error e, w.device) := by
    simp [RecordingDevice.allocate, failed]
  exact ⟨congrArg Prod.fst answer, congrArg Prod.snd answer⟩

/-- Texts that build give a new program with their locations. -/
theorem granted_program (w : World RecordingDevice)
    (built : Linkage.build vertex.source fragment.source = .ok linkage) :
    w.granted (.program vertex.source fragment.source) = .ok w.device.nextHandle ∧
      let device := (w.allocated (.program vertex.source fragment.source)).device
      device.nextHandle = w.device.mint.2.nextHandle ∧ device.extensions = w.device.extensions ∧
        device.programs = (w.device.nextHandle, linkage) :: w.device.programs := by
  have answer : ∃ device, w.device.allocate (.program vertex.source fragment.source) =
      (.ok w.device.nextHandle, device) ∧ device.nextHandle = w.device.mint.2.nextHandle ∧
      device.extensions = w.device.extensions ∧
      device.programs = (w.device.nextHandle, linkage) :: w.device.programs := by
    simp [RecordingDevice.allocate, built, RecordingDevice.mint, RecordingDevice.count,
      RecordingDevice.record]
  obtain ⟨device, answer, counter⟩ := answer
  have after : (w.allocated (.program vertex.source fragment.source)).device = device :=
    congrArg Prod.snd answer
  dsimp only
  rw [after]
  exact ⟨congrArg Prod.fst answer, counter⟩

/-- A new program of each run. -/
theorem linked_new (twin : w.Twin R w')
    (built : Linkage.build vertex.source fragment.source = .ok linkage)
    (room : Unspent (w.allocated (.program vertex.source fragment.source)).events) :
    Linked (R.add .program w.device.nextHandle w'.device.nextHandle)
      (w.allocated (.program vertex.source fragment.source))
      (w'.allocated (.program vertex.source fragment.source)) w.device.nextHandle
      w'.device.nextHandle := by
  obtain ⟨granted, counter, extensions, programs⟩ := granted_program w built
  obtain ⟨_, counter', extensions', programs'⟩ := granted_program w' built
  have below := room.granted_lt granted
  rw [RecordingDevice.counter_mint below] at counter
  rw [RecordingDevice.counter_mint (twin.ahead.trans_lt below)] at counter'
  have alike : World.Alike R (w.allocated (.program vertex.source fragment.source))
      (w'.allocated (.program vertex.source fragment.source)) := { twin.toAlike with }
  have moved := twin.moved alike (by rw [counter]; exact Nat.le_succ _)
    (by rw [counter']; exact Nat.le_succ _)
    (by rw [counter, counter']; exact Nat.succ_le_succ twin.ahead) extensions extensions'
  refine ⟨moved.link ?_ ?_ fun k h' old => ?_, add_self, ?_⟩
  · rw [counter]
    exact Nat.lt_succ_self _
  · rw [counter']
    exact Nat.lt_succ_self _
  · exact Nat.lt_irrefl _ (twin.known _ _ _ old).1
  · rw [programs, programs', List.lookup_cons_self, List.lookup_cons_self]

/-- A new program of the first run, and one that the second run has had before. -/
theorem linked_old (twin : w.Twin R w') {g h : Handle} (partner : R .program g h)
    (built : Linkage.build vertex.source fragment.source = .ok linkage)
    (found : w'.device.programs.lookup h = some linkage)
    (room : Unspent (w.allocated (.program vertex.source fragment.source)).events) :
    Linked (R.add .program w.device.nextHandle h)
      (w.allocated (.program vertex.source fragment.source)) w' w.device.nextHandle h := by
  obtain ⟨granted, counter, extensions, programs⟩ := granted_program w built
  rw [RecordingDevice.counter_mint (room.granted_lt granted)] at counter
  have alike : World.Alike R (w.allocated (.program vertex.source fragment.source)) w' :=
    { twin.toAlike with }
  have moved := twin.moved alike (by rw [counter]; exact Nat.le_succ _) le_rfl
    (by rw [counter]; exact Nat.le_succ_of_le twin.ahead) extensions rfl
  refine ⟨moved.link ?_ (twin.known _ _ _ partner).2 fun k h' old => ?_, add_self, ?_⟩
  · rw [counter]
    exact Nat.lt_succ_self _
  · exact Nat.lt_irrefl _ (twin.known _ _ _ old).1
  · rw [programs, List.lookup_cons_self, found]

end Link

/-- What has become of two contexts in which one pair was compiled, with a cache in the second. -/
structure Recompiled (R : Correspondence) (text : Identity → String) (w' v v' : World RecordingDevice)
    (result result' : Except RenderError Program) (cache : ProgramCache) (R' : Correspondence) : Prop where
  grow : R ≤ R'
  world : v.Twin R' v'
  result : Same R' result result'
  cache : cache.Sound R' text v'.device.programs
  /-- The programs of other caches are still there. -/
  others : ∀ other : ProgramCache, other.Sound R text w'.device.programs →
    other.Sound R' text v'.device.programs

/-- Compiling a pair anew and with the cache gives programs that do the same, or fails alike, unless the
names of the first run out. -/
theorem mirrored_compile (twin : w.Twin R w') (sound : cache'.Sound R text w'.device.programs)
    (redraw : RedrawKey) {vertex fragment : CompiledShader}
    (vertexText : vertex.source = text vertex.template)
    (fragmentText : fragment.source = text fragment.template) (config : ProgramConfig)
    (cache : ProgramCache) :
    let built := (cache.compile redraw vertex fragment { config with cached := false }).run w
    let built' := (cache'.compile redraw vertex fragment { config with cached := true }).run w'
    Unspent built.2.events →
      ∃ R', Recompiled R text w' built.2 built'.2 built.1.1 built'.1.1 built'.1.2 R' := by
  rw [run_compile, run_compile]
  cases checkSharedNames vertex fragment with
  | error e => exact fun _ => ⟨R, le_rfl, twin, .error, sound, fun _ same => same⟩
  | ok fit =>
    simp only [run_link, Bool.false_eq_true, if_false, if_true, Bool.not_false, Bool.not_true]
    cases built : Linkage.build vertex.source fragment.source with
    | error e =>
      obtain ⟨granted, device⟩ := refused_program w built
      obtain ⟨granted', device'⟩ := refused_program w' built
      -- a pair whose texts do not build is in no cache
      have missing : cache'.find? vertex.template fragment.template = none := by
        cases found : cache'.find? vertex.template fragment.template with
        | none => rfl
        | some h =>
          obtain ⟨_, linkage, _, linked⟩ := sound _ _ h found
          rw [← vertexText, ← fragmentText, built] at linked
          exact nomatch linked
      simp only [granted, missing, granted']
      have alike : World.Alike R (w.allocated (.program vertex.source fragment.source))
          (w'.allocated (.program vertex.source fragment.source)) := { twin.toAlike with }
      have moved := twin.moved alike (by rw [device]) (by rw [device'])
        (by rw [device, device']; exact twin.ahead) (by rw [device]) (by rw [device'])
      intro _
      refine ⟨R, le_rfl, moved, .error, ?_, fun other same => ?_⟩
      · rwa [device']
      · rwa [device']
    | ok linkage =>
      obtain ⟨granted, _⟩ := granted_program w built
      obtain ⟨granted', _, _, programs'⟩ := granted_program w' built
      simp only [granted]
      intro spare
      have room : Unspent (w.allocated (.program vertex.source fragment.source)).events :=
        (Attempt.world_of_ends (extends_bind _ _ _ _ _ _)).events.unspent spare
      cases found : cache'.find? vertex.template fragment.template with
      | some h =>
        obtain ⟨⟨g, partner⟩, known, there, linked⟩ := sound _ _ h found
        rw [← vertexText, ← fragmentText, built] at linked
        obtain rfl := Except.ok.inj linked
        obtain ⟨R', grow, world, programs, same⟩ :=
          mirrored_bind (linked_old twin partner built there room) redraw vertex fragment config spare
        have wider := le_add.trans grow
        refine ⟨R', wider, world, same, ?_, fun other known => ?_⟩
        · dsimp only
          rw [programs]
          exact sound.mono wider
        · dsimp only
          rw [programs]
          exact known.mono wider
      | none =>
        simp only [granted']
        obtain ⟨R', grow, world, programs, same⟩ :=
          mirrored_bind (linked_new twin built room) redraw vertex fragment config spare
        have wider := le_add.trans grow
        have others (other : ProgramCache) (known : other.Sound R text w'.device.programs) :
            other.Sound R' text ((w'.device.nextHandle, linkage) :: w'.device.programs) :=
          (known.cons twin linkage).mono wider
        refine ⟨R', wider, world, same, ?_, fun other known => ?_⟩
        · rw [programs, programs']
          rw [vertexText, fragmentText] at built
          exact (others _ sound).insert (grow _ _ _ add_self) built
        · rw [programs, programs']
          exact others other known

end ProgramCache

namespace Stack

variable {text : Identity → String} {s s' : Stack} {vertex fragment : CompiledShader}

theorem run_compile {config : ProgramConfig} {w : World δ} [GraphicsDevice δ] :
    (s.compile vertex fragment config).run w =
      let built := (s.cache.compile s.redraw vertex fragment config).run w
      ((built.1.1, { s with cache := built.1.2 }), built.2) := rfl

theorem mirrored_compile (twin : w.Twin R w')
    (same : s.Twin R (ProgramCache.Sound R text w'.device.programs) s')
    (vertexText : vertex.source = text vertex.template)
    (fragmentText : fragment.source = text fragment.template) (config : ProgramConfig) :
    let built := (s.compile vertex fragment { config with cached := false }).run w
    let built' := (s'.compile vertex fragment { config with cached := true }).run w'
    Unspent built.2.events →
      ∃ R', ProgramCache.Recompiled R text w' built.2 built'.2 built.1.1 built'.1.1 built'.1.2.cache R' ∧
        built.1.2.Twin R' (ProgramCache.Sound R' text built'.2.device.programs) built'.1.2 := by
  rw [run_compile, run_compile, same.redraw]
  intro _ _ room
  obtain ⟨R', again⟩ := ProgramCache.mirrored_compile twin same.cache s.redraw vertexText fragmentText
    config s.cache room
  have after := same.mono again.grow again.others
  exact ⟨R', again, { after with cache := again.cache, redraw := rfl }⟩

end Stack
end ShaderStack

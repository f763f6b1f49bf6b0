import ShaderStack.Proofs.Bundles

/-! Bundled scenes on a new stack.

Every pass of a bundled scene becomes a steady program, on the screen or in the layer. So the frames of the
stack cost one draw for each pass, and as many pushes as there are uniforms that were found. -/
namespace ShaderStack

namespace Mounting

variable {δ : Type} {α β : Type}

/-- Work on a stack that gets through, and what holds afterwards. -/
def Ends (m : Mounting δ α) (s : Stack) (w : World δ) (done : α → Stack → World δ → Prop) : Prop :=
  match (m.run.run s).run w with
  | ((.ok a, s'), w') => done a s' w'
  | ((.error _, _), _) => False

variable {s : Stack} {w : World δ} {done : α → Stack → World δ → Prop} {next : β → Stack → World δ → Prop}

theorem ends_bind {m : Mounting δ α} {f : α → Mounting δ β} :
    Ends (m >>= f) s w next ↔ Ends m s w fun a s' w' => Ends (f a) s' w' next := by
  unfold Ends
  simp only [ExceptT.run_bind, StateT.run_bind]
  rcases StateT.run (StateT.run m.run s) w with ⟨⟨e | a, s'⟩, w'⟩ <;> rfl

theorem ends_pure {a : α} : Ends (pure a : Mounting δ α) s w done ↔ done a s w := Iff.rfl

theorem ends_map {m : Mounting δ α} {f : α → β} :
    Ends (f <$> m) s w next ↔ Ends m s w fun a => next (f a) := by
  rw [map_eq_pure_bind, ends_bind]
  rfl

theorem ends_engine {m : Engine δ α} :
    Ends (engine m) s w done ↔ done (m.run w).1 s (m.run w).2 := Iff.rfl

theorem ends_get {done : Stack → Stack → World δ → Prop} :
    Ends (getThe Stack : Mounting δ Stack) s w done ↔ done s s w := Iff.rfl

theorem ends_set {s' : Stack} {done : PUnit → Stack → World δ → Prop} :
    Ends (set s' : Mounting δ PUnit) s w done ↔ done ⟨⟩ s' w := Iff.rfl

theorem ends_modify {f : Stack → Stack} {done : PUnit → Stack → World δ → Prop} :
    Ends (modifyThe Stack f : Mounting δ PUnit) s w done ↔ done ⟨⟩ (f s) w := Iff.rfl

theorem ends_orElse {attempt : String} {a : α} :
    Ends (orElse attempt (.ok a) : Mounting δ α) s w done ↔ done a s w := Iff.rfl

theorem Ends.imp {m : Mounting δ α} {done' : α → Stack → World δ → Prop} (ends : Ends m s w done)
    (weaker : ∀ a s' w', done a s' w' → done' a s' w') : Ends m s w done' := by
  unfold Ends at *
  rcases answer : StateT.run (StateT.run m.run s) w with ⟨⟨e | a, s'⟩, w'⟩ <;> rw [answer] at ends
  · exact ends
  · exact weaker a s' w' ends

/-- A loop keeps an invariant that counts its turns. -/
theorem ends_forM {f : β → Mounting δ PUnit} {xs : List β} (invariant : Nat → Stack → World δ → Prop)
    (step : ∀ n, ∀ x ∈ xs, ∀ s w, invariant n s w → Ends (f x) s w fun _ => invariant (n + 1)) {n : Nat}
    (start : invariant n s w) : Ends (xs.forM f) s w fun _ => invariant (n + xs.length) := by
  induction xs generalizing n s w with
  | nil => exact start
  | cons x xs ih =>
    change Ends (f x >>= fun _ => xs.forM f) s w _
    rw [ends_bind]
    refine (step n x List.mem_cons_self s w start).imp fun _ s' w' here => ?_
    have later := ih (fun n y member => step n y (List.mem_cons_of_mem _ member)) here
    rwa [Nat.add_assoc, Nat.add_comm 1] at later

end Mounting

namespace Stack

variable {sources : List (String × TextureSource)} {layers : List Nat} {draws : Nat} {s : Stack}
  {w w' : World RecordingDevice} {p : Program}

/-- A steady stack with these layers, whose frames draw so often. -/
def Staged (sources : List (String × TextureSource)) (layers : List Nat) (draws : Nat) (s : Stack)
    (w : World RecordingDevice) : Prop :=
  ∃ costs pushes, s.Steady sources w costs ∧ s.layers = layers ∧
    s.frameCost costs = { draws, uniformPushes := pushes }

/-- Compiling a program leaves everything that is staged as it is. -/
theorem Staged.compiled (staged : s.Staged sources layers draws w)
    (run : w.LeavesTargets w') (same : w'.host.sources = sources)
    (cache : ProgramCache) : ({ s with cache } : Stack).Staged sources layers draws w' := by
  obtain ⟨costs, pushes, steady, holds, cost⟩ := staged
  exact ⟨costs, pushes,
    ⟨steady.programs, steady.layers.imp fun _ _ there => there.extends run, same⟩, holds, cost⟩

/-- What one more program adds to a frame. -/
theorem cost_add {draws pushes : Nat} :
    ({ draws, uniformPushes := pushes } : CallStats) + p.cost =
      { draws := draws + 1, uniformPushes := pushes + p.pushCount } := by
  ext <;> simp [Program.cost]

theorem Staged.add (staged : s.Staged sources layers draws w) (steady : p.Steady sources) :
    (s.add p).Staged sources layers (draws + 1) w := by
  obtain ⟨costs, pushes, old, holds, cost⟩ := staged
  refine ⟨costs, pushes + p.pushCount, ⟨?_, old.layers, old.sources⟩, holds, ?_⟩
  · intro q member
    rcases List.mem_append.mp member with there | new
    · exact old.programs q there
    · rw [List.mem_singleton.mp new]
      exact steady
  · rw [← cost_add, ← cost]
    simp [frameCost, Stack.add, add_assoc]

/-- A program for the layer is drawn with the layer. -/
theorem Staged.addToLayer {key : Nat} (staged : s.Staged sources [key] draws w)
    (steady : p.Steady sources) :
    s.Staged sources [key] (draws + 1)
      (w.altered key fun t => { t with programs := t.programs ++ [p] }) := by
  obtain ⟨costs, pushes, old, holds, cost⟩ := staged
  have layers := old.layers
  rw [holds] at layers
  obtain _ | @⟨_, c, _, _, ⟨t, found, calm, sum⟩, _ | _⟩ := layers
  have altered : w.altered key (fun t => { t with programs := t.programs ++ [p] }) =
      w.setTexture key { t with programs := t.programs ++ [p] } := by
    unfold World.altered
    rw [found]
  refine ⟨[c + p.cost], pushes + p.pushCount, ⟨old.programs, ?_, ?_⟩, holds, ?_⟩
  · rw [holds, altered]
    refine .cons ⟨_, lookup_assign_same, fun q member => ?_, ?_⟩ .nil
    · rcases List.mem_append.mp member with there | new
      · exact calm q there
      · rw [List.mem_singleton.mp new]
        exact steady
    · rw [List.map_append, List.sum_append, sum]
      exact congrArg (c + ·) (add_zero _)
  · rw [World.host_altered]
    exact old.sources
  · rw [← cost_add, ← cost]
    simp [frameCost, add_right_comm]

end Stack

namespace Scene

open Mounting Stack

variable {sources : List (String × TextureSource)} {s : Stack} {w : World RecordingDevice} {p : Pass}
  {layer : Option Nat} {draws : Nat}

/-- A compiled pass binds the tokens of its bodies. -/
theorem calm_compile (calm : p.Calm sources) :
    ∀ n ∈ p.vertex.compile.tokens ++ p.fragment.compile.tokens, n.token.Calm sources := by
  have occurs (t : Template) {n : NamedToken} (member : n ∈ t.compile.tokens) :
      n.token ∈ t.body.occurrences :=
    mem_distinctTokens (t.tokens_compile ▸ List.mem_map_of_mem member)
  intro n member
  apply calm.tokens
  rcases List.mem_append.mp member with here | here
  · exact List.mem_append_left _ (occurs _ here)
  · exact List.mem_append_right _ (occurs _ here)

/-- What a pass is compiled with. -/
def config (settings : Settings) (p : Pass) : ProgramConfig :=
  let config :=
    match p.indices with
    | some token => (settings.programConfig p.draw).withIndices token
    | none => settings.programConfig p.draw
  { config with cached := config.cached || p.cached }

theorem indices_config {settings : Settings} : (config settings p).indices = p.indices := by
  unfold config
  cases p.indices <;> rfl

/-- Compiling, and the place of the program that comes of it. -/
theorem ends_mountPass_iff {settings : Settings} {program : Program} {cache : ProgramCache}
    {w' : World RecordingDevice} {done : Unit → Stack → World RecordingDevice → Prop}
    (compiled : (s.cache.compile s.redraw p.vertex.compile p.fragment.compile (config settings p)).run w =
      ((.ok program, cache), w')) :
    Mounting.Ends (mountPass settings layer p) s w done ↔
      match p.target, layer with
      | .layer, some key => done () { s with cache }
          (w'.altered key fun t => { t with programs := t.programs ++ [program] })
      | _, _ => done () (({ s with cache } : Stack).add program) w' := by
  have ran : (s.compile p.vertex.compile p.fragment.compile (config settings p)).run w =
      ((.ok program, { s with cache }), w') := by
    unfold Stack.compile
    rw [Engine.run_bind, compiled]
    rfl
  unfold mountPass
  cases indices : p.indices
  all_goals
    simp only [config, indices] at ran ⊢
    simp only [Mounting.ends_bind, Mounting.ends_get, Mounting.ends_engine, Mounting.ends_set, ran,
      Mounting.ends_orElse]
    cases p.target <;> cases layer <;> rfl

/-- A pass adds a steady program to the screen or to the layer. -/
theorem ends_mountPass {settings : Settings} (builds : p.builds) (calm : p.Calm sources)
    (staged : s.Staged sources layer.toList draws w) :
    Mounting.Ends (mountPass settings layer p) s w fun _ s' w' =>
      s'.Staged sources layer.toList (draws + 1) w' := by
  obtain ⟨fit, linkage, built⟩ := Pass.exists_linkage builds
  have fixed : ∀ t ∈ (config settings p).indices, t.FixedIndices := by
    rw [indices_config]
    exact calm.indices
  have same : w.host.sources = sources := staged.choose_spec.choose_spec.1.sources
  obtain ⟨program, cache, w', compiled, steady, same', run⟩ :=
    ProgramCache.exists_compile s.cache s.redraw fit built (calm_compile calm) fixed same
  have staged' := staged.compiled run same' cache
  rw [ends_mountPass_iff compiled]
  split
  · exact staged'.addToLayer steady
  · exact staged'.add steady

/-- All passes, one draw each. -/
theorem ends_passes (settings : Settings) {passes : List Pass}
    (good : ∀ p ∈ passes, p.builds ∧ p.Calm sources) (staged : s.Staged sources layer.toList draws w) :
    Mounting.Ends (passes.forM (mountPass settings layer)) s w fun _ s' w' =>
      s'.Staged sources layer.toList (draws + passes.length) w' :=
  ends_forM (fun n s w => s.Staged sources layer.toList n w)
    (fun _ p member _ _ staged => ends_mountPass (good p member).1 (good p member).2 staged) staged

/-- Nothing is staged on a new stack. -/
theorem staged_new (programs : s.programs = []) (layers : s.layers = []) (w : World RecordingDevice) :
    s.Staged w.host.sources [] 0 w := by
  refine ⟨[], 0, ⟨?_, ?_, rfl⟩, layers, ?_⟩
  · simp [programs]
  · rw [layers]
    exact .nil
  · simp [frameCost, programs]
    rfl

/-- Pixels belong to nobody. -/
theorem releaseSource_blank {host : Host} (blank : isBlank host) (w : World RecordingDevice) :
    (RenderTexture.releaseSource (host.source layerCell)).run w = ((), w) := by
  unfold isBlank at blank
  cases found : host.source layerCell with
  | pixels data => rfl
  | surface id =>
    rw [found] at blank
    cases blank

/-- A layer without programs. -/
theorem staged_layer {key : Nat} {t : RenderTexture} (found : w.texture? key = some t)
    (empty : t.programs = []) (programs : s.programs = []) (layers : s.layers = [key]) :
    s.Staged w.host.sources [key] 0 w := by
  refine ⟨[0], 0, ⟨?_, ?_, rfl⟩, layers, ?_⟩
  · simp [programs]
  · rw [layers]
    refine .cons ⟨t, found, ?_, ?_⟩ .nil <;> simp [empty]
  · simp [frameCost, programs]
    rfl

/-- The layer is made, and its cell shows it. -/
theorem ends_mountLayer (blank : isBlank w.host) (programs : s.programs = []) (layers : s.layers = []) :
    Mounting.Ends mountLayer s w fun key s' w' =>
      Shows w'.host.sources ∧ s'.Staged w'.host.sources [key] 0 w' := by
  have made : (RenderTexture.make layerSize layerSize).Ends w (fun key w' => w'.host = w.host ∧
      ∃ t, w'.texture? key = some t ∧ t.programs = []) fun _ _ => False := by
    rw [RenderTexture.ends_make_recording, if_neg (by decide)]
    refine ⟨?_, _, lookup_assign_same, rfl⟩
    simp only [World.setTexture, World.emit_host, World.performAll_host]
  obtain ⟨key, w₁, ran, host, t, found, empty⟩ := made.exists_ok
  let w₂ := w₁.looked (Host.setSource layerCell (.surface (.renderTexture key)))
  let w₃ := w₂.altered key fun t => { t with holders := t.holders + 1 }
  have release := releaseSource_blank (host ▸ blank : isBlank w₁.host) w₂
  have held : w₃.texture? key = some { t with holders := t.holders + 1 } := by
    have there : w₂.texture? key = some t := found
    simp only [w₃, World.altered, there]
    exact lookup_assign_same
  have ends : Shows w₃.host.sources ∧
      ({ s with layers := s.layers ++ [key] } : Stack).Staged w₃.host.sources [key] 0 w₃ := by
    refine ⟨⟨.renderTexture key, ?_⟩, staged_layer held empty programs (by simp [layers])⟩
    rw [World.host_altered]
    exact lookup_assign_same
  have asked : (Engine.readHost (Accessor.source layerCell) : Engine RecordingDevice TextureSource).run w₁ =
    (w₁.host.source layerCell, w₁) := rfl
  have set : (Engine.readHost (Host.setSource layerCell (.surface (.renderTexture key))) :
    Engine RecordingDevice Unit).run w₁ = ((), w₂) := rfl
  unfold mountLayer
  simp only [Mounting.ends_bind, Mounting.ends_get, Mounting.ends_engine, Mounting.ends_set, ran,
    Mounting.ends_orElse, Mounting.ends_pure, asked, set, release]
  exact ends

/-- A whole scene, with a layer if it has one. -/
theorem ends_mount {scene : Scene} (settings : Settings)
    (good : ∀ p ∈ scene.passes, p.builds ∧ ∀ sources, (scene.isLayered → Shows sources) → p.Calm sources)
    (blank : isBlank w.host) (programs : s.programs = []) (layers : s.layers = []) :
    Mounting.Ends (scene.mount settings) s w fun _ s' w' =>
      ∃ sources layers, s'.Staged sources layers scene.passes.length w' := by
  have passes (layer : Option Nat) (s : Stack) (w : World RecordingDevice)
      (shows : scene.isLayered → Shows w.host.sources)
      (staged : s.Staged w.host.sources layer.toList 0 w) :
      Mounting.Ends (scene.passes.forM (mountPass settings layer)) s w fun _ s' w' =>
        ∃ sources layers, s'.Staged sources layers scene.passes.length w' := by
    have calm : ∀ p ∈ scene.passes, p.builds ∧ p.Calm w.host.sources := fun p member =>
      ⟨(good p member).1, (good p member).2 _ shows⟩
    have ends := ends_passes settings calm staged
    rw [Nat.zero_add] at ends
    exact ends.imp fun _ s' w' staged => ⟨_, _, staged⟩
  unfold mount
  by_cases layered : scene.isLayered
  · simp only [layered, if_true, Mounting.ends_bind, Mounting.ends_map]
    refine (ends_mountLayer blank programs layers).imp fun key s' w' ⟨shows, staged⟩ => ?_
    exact passes (some key) s' w' (fun _ => shows) staged
  · simp only [layered, Bool.false_eq_true, if_false, Mounting.ends_bind, Mounting.ends_pure]
    exact passes none s w (fun here => absurd here layered) (staged_new programs layers w)

end Scene
end ShaderStack

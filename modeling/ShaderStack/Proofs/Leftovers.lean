import ShaderStack.Proofs.Caching
import ShaderStack.Proofs.Hearsay

/-! What a compilation leaves behind when it fails.

Its objects are deleted again, but not the listeners that its samplers added to the surfaces that they
show. Nobody knows of them any more, and new content of such a surface makes the stack ask for a redraw. -/
namespace ShaderStack

open World (Extends)

variable {δ : Type} {extra : SurfaceId → Subscription → Prop} {w w' : World δ}

/-! ### Listeners of a compilation -/

namespace World

/-- The tables of a world where the device, the trace and the host are those of another. -/
def resumed (w v : World δ) : World δ := { w with device := v.device, trace := v.trace, host := v.host }

/-- The world with more listeners. -/
def joined (left : List (SurfaceId × Subscription)) (w : World δ) : World δ :=
  left.foldl (fun w e => w.listen e.1 e.2) w

variable {left : List (SurfaceId × Subscription)} {may : SurfaceId → Subscription → Prop} {v : World δ}

theorem listen_resumed {id : SurfaceId} {s : Subscription} :
    (w.listen id s).resumed v = (w.resumed v).listen id s := by
  cases id with
  | renderTexture key =>
    cases present : w.texture? key with
    | none =>
      have there : (w.resumed v).texture? key = none := present
      rw [listen_missing present, listen_missing there]
    | some t =>
      have there : (w.resumed v).texture? key = some t := present
      rw [listen_present present, listen_present there]
      rfl
  | external name => rfl

theorem joined_resumed : (w.joined left).resumed v = (w.resumed v).joined left := by
  induction left generalizing w with
  | nil => rfl
  | cons e rest ih =>
    refine (ih (w := w.listen e.1 e.2)).trans ?_
    rw [listen_resumed]
    rfl

theorem extends_joined : Extends (fun _ => False) RenderTexture.bare w (w.joined left) := by
  induction left generalizing w with
  | nil => exact .refl w
  | cons e rest ih => exact Extends.listen.trans ih

theorem redraws_joined : (w.joined left).redraws = w.redraws := by
  induction left generalizing w with
  | nil => rfl
  | cons e rest ih =>
    refine (ih (w := w.listen e.1 e.2)).trans ?_
    unfold listen
    split
    · split <;> rfl
    · rfl

/-- Listeners that were added are those that only the second world knows of. -/
theorem Overheard.joined (alike : w.Overheard extra w') (left : List (SurfaceId × Subscription))
    (old : ∀ e ∈ left, ∀ key, e.1 = .renderTexture key → key < w.nextKey) :
    w.Overheard (fun id l => extra id l ∨ (id, l) ∈ left) (w'.joined left) := by
  induction left generalizing extra w' with
  | nil => exact alike.congr fun id l => by simp
  | cons e rest ih =>
    have first := alike.join e.2 (old e List.mem_cons_self)
    refine (ih first fun e member => old e (List.mem_cons_of_mem _ member)).congr fun id l => ?_
    rw [List.mem_cons, or_assoc, Prod.ext_iff]

/-- The device, the trace and the host moved on, and listeners of one kind were added. -/
def Joins (may : SurfaceId → Subscription → Prop) (w w' : World δ) : Prop :=
  ∃ left, (∀ e ∈ left, may e.1 e.2) ∧ w' = (w.resumed w').joined left

namespace Joins

variable {w₁ w₂ : World δ}

/-- No listener was added. -/
theorem silent (same : w₁ = w.resumed w₁) : Joins may w w₁ := ⟨[], by simp, same⟩

theorem refl (w : World δ) : Joins may w w := silent rfl

theorem trans (first : Joins may w w₁) (second : Joins may w₁ w₂) : Joins may w w₂ := by
  obtain ⟨left, known, same⟩ := first
  obtain ⟨left', known', same'⟩ := second
  refine ⟨left ++ left', ?_, ?_⟩
  · intro e member
    exact (List.mem_append.mp member).elim (known e) (known' e)
  · have tables : w₁.resumed w₂ = (w.resumed w₂).joined left := by
      rw [same, joined_resumed]
      rfl
    rw [tables] at same'
    refine same'.trans ?_
    simp [joined]

theorem emit {act : δ → δ} {event : Event} (joins : Joins may w w₁) : Joins may w (w₁.emit act event) :=
  joins.trans (silent rfl)

theorem looked {value : Accessor α} (joins : Joins may w w₁) : Joins may w (w₁.looked value) :=
  joins.trans (silent rfl)

theorem performAll [GraphicsDevice δ] (cs : List Command) (joins : Joins may w w₁) :
    Joins may w (w₁.performAll cs) := by
  induction cs generalizing w₁ with
  | nil => exact joins
  | cons c cs ih => exact ih joins.emit

theorem listen {id : SurfaceId} {s : Subscription} (joins : Joins may w w₁) (allowed : may id s) :
    Joins may w (w₁.listen id s) := by
  have same : w₁.resumed (w₁.listen id s) = w₁ := by
    unfold resumed
    rw [World.listen_device, World.listen_trace, World.listen_host]
  refine joins.trans ⟨[(id, s)], by simpa using allowed, ?_⟩
  rw [same]
  rfl

theorem textureOf? (joins : Joins may w w₁) : w₁.textureOf? = w.textureOf? := by
  obtain ⟨left, _, same⟩ := joins
  rw [same, extends_joined.coarsen.textureOf?]
  funext id
  cases id <;> rfl

end Joins
end World

namespace Binder

/-- A listener that a sampler adds while it is bound: for a surface that its accessor shows, under the
texture that the surface has. -/
structure Heard (redraw : RedrawKey) (tokens : List NamedToken) (w : World δ) (id : SurfaceId)
    (s : Subscription) : Prop where
  redraw : s.redraw = redraw
  source : w.textureOf? id = some s.source
  shown : ∃ n ∈ tokens, ∃ t host, n.token.kind = .sampler t ∧ (t.value.run host).1 = .surface id

variable {redraw : RedrawKey} {tokens : List NamedToken} {start : World δ}

/-- A step that adds no listeners but those of samplers, also when it fails. -/
abbrev Joining (redraw : RedrawKey) (tokens : List NamedToken) (start : World δ) (m : Binder δ α) : Prop :=
  Keeps (fun _ w => start.Joins (Heard redraw tokens start) w)
    (fun _ w => start.Joins (Heard redraw tokens start) w) m

variable [GraphicsDevice δ]

theorem joining_uploadBuffer {target : BufferTarget} {data : List UInt8} {afterwards : List Command} :
    Joining redraw tokens start (uploadBuffer target data afterwards : Binder δ Handle) := by
  intro b w joins
  rw [ends_uploadBuffer]
  exact ⟨fun buffer _ => joins.emit.performAll _, fun _ _ => joins.emit⟩

theorem joining_bindAttribute {declared : List String} {stage : ShaderStage} {name : String}
    {t : AttributeToken} :
    Joining redraw tokens start (bindAttribute declared stage name t : Binder δ Unit) := by
  intro b w joins
  rw [ends_bindAttribute]
  dsimp only
  split
  · exact joins.emit
  · exact (joining_uploadBuffer _ _ joins.emit.looked).imp (fun _ _ _ => id) fun _ _ _ => id

theorem joining_bindElements {t : AttributeToken} :
    Joining redraw tokens start (bindElements t : Binder δ Unit) := by
  intro b w joins
  rw [ends_bindElements]
  dsimp only
  split
  · exact joins.looked
  · exact (joining_uploadBuffer _ _ joins.looked).imp (fun _ _ _ => id) fun _ _ _ => id

theorem joining_bindUniform {declared : List String} {stage : ShaderStage} {name : String}
    {t : UniformToken} :
    Joining redraw tokens start (bindUniform declared stage name t : Binder δ Unit) := by
  intro b w joins
  rw [ends_bindUniform]
  dsimp only
  split
  · exact joins.emit
  · exact joins.emit

omit [GraphicsDevice δ] in
theorem joins_subscribe {id : SurfaceId} (joins : start.Joins (Heard redraw tokens start) w)
    (shown : ∃ n ∈ tokens, ∃ t host, n.token.kind = .sampler t ∧ (t.value.run host).1 = .surface id)
    (subscribed : List Handle) : start.Joins (Heard redraw tokens start)
      ((Engine.subscribe redraw id subscribed : Engine δ (List Handle)).run w).2 := by
  unfold Engine.subscribe
  simp only [Engine.run_bind, Engine.run_get]
  cases source : w.textureOf? id with
  | none => exact joins
  | some h =>
    dsimp only
    split
    · exact joins
    · refine joins.listen ⟨rfl, ?_, shown⟩
      rw [← joins.textureOf?]
      exact source

/-- A sampler listens to the surface that it shows. -/
theorem joining_bindSampler {declared : List String} {stage : ShaderStage} {n : NamedToken}
    {t : SamplerToken} (known : n ∈ tokens) (kind : n.token.kind = .sampler t) :
    Joining redraw tokens start (bindSampler declared redraw stage n.name t : Binder δ Unit) := by
  intro b w joins
  rw [ends_bindSampler]
  dsimp only
  split
  · exact joins.emit
  · refine ⟨fun texture _ => ?_, fun _ _ => joins.emit.emit⟩
    have asked : start.Joins (Heard redraw tokens start)
        ((w.lookedUp (.uniformLocation b.program n.name)).allocated .texture) := joins.emit.emit
    have seated := asked.performAll (seat b.nextUnit texture t.options.parameters)
    split
    · next id shows => exact joins_subscribe seated.looked ⟨n, known, t, _, kind, shows⟩ []
    · exact seated.looked

theorem joining_bindAll {vertex fragment : CompiledShader} {config : ProgramConfig} :
    Joining redraw (vertex.tokens ++ fragment.tokens) start
      (bindAll redraw vertex fragment config : Binder δ Unit) := by
  refine keeps_bindAll (fun declared stage n member => ?_) (fun t member => ?_) fun _ _ => ?_
  · exact keeps_bindToken (fun _ _ _ => joining_bindAttribute) (fun _ _ _ => joining_bindElements)
      (fun _ _ => joining_bindUniform) fun _ kind => joining_bindSampler member kind
  · exact keeps_bindIndexToken (fun _ _ => id) fun _ _ _ => joining_bindElements
  · intro b w joins
    unfold uploadIndices
    rw [ends_bind, ends_discard]
    exact (joining_uploadBuffer b w joins).imp (fun _ _ _ => id) fun _ _ _ => id

end Binder

namespace ProgramCache

variable [GraphicsDevice δ]

theorem joins_bind {start : World δ} {redraw : RedrawKey} {vertex fragment : CompiledShader}
    {config : ProgramConfig}
    (joins : start.Joins (Binder.Heard redraw (vertex.tokens ++ fragment.tokens) start) w)
    (handle : Handle) (owned : Bool) :
    (bind handle owned redraw vertex fragment config).Ends w
      (fun _ => start.Joins (Binder.Heard redraw (vertex.tokens ++ fragment.tokens) start))
      fun _ => start.Joins (Binder.Heard redraw (vertex.tokens ++ fragment.tokens) start) := by
  rw [ends_bind]
  refine ⟨fun vertexArray _ => ?_, fun e _ => ?_⟩
  · refine (Binder.joining_bindAll _ _ joins.emit).imp (fun _ _ _ bound => bound) fun _ b w' bound => ?_
    unfold Program.drop Bindings.release
    simp only [Engine.run_bind, Engine.run_commands, Engine.run_command]
    split
    · exact (bound.performAll _).emit.emit
    · exact (bound.performAll _).emit
  · split
    · exact joins.emit.emit
    · exact joins.emit

/-- A compilation adds no listeners but those of its samplers, whether it succeeds or not. -/
theorem joins_compile (cache : ProgramCache) (redraw : RedrawKey) (vertex fragment : CompiledShader)
    (config : ProgramConfig) (w : World δ) :
    w.Joins (Binder.Heard redraw (vertex.tokens ++ fragment.tokens) w)
      ((cache.compile redraw vertex fragment config).run w).2 := by
  refine world_of_compile _ (fun _ _ => .refl w) (World.Joins.refl w).emit fun handle owned w' linked => ?_
  refine joins_bind ?_ handle owned
  rcases linked with rfl | rfl
  · exact .refl _
  · exact (World.Joins.refl w).emit

end ProgramCache

/-! ### Failed compilations -/

namespace Session

variable [GraphicsDevice δ] {s : Session δ}

/-- The session without a compilation, but for what the device and the host went through and for the
cache. -/
def undone (s : Session δ) (w : World δ) (i : Nat) (stack : Stack) (cache : ProgramCache) : Session δ :=
  { s with world := s.world.resumed w, liveStacks := s.liveStacks.set i { stack with cache } }

/-- The session where listeners were left behind. -/
def joined (left : List (SurfaceId × Subscription)) (s : Session δ) : Session δ :=
  { s with world := s.world.joined left }

variable {i : Nat} {stack : Stack} {vertex fragment : CompiledShader} {config : ProgramConfig}
  {e : RenderError} {left : List (SurfaceId × Subscription)} {w : World δ} {cache : ProgramCache}

theorem perform_failed (found : s.liveStacks[i]? = some stack)
    (failed : s.outcome i vertex fragment config = some (.error e)) :
    let built := (stack.cache.compile stack.redraw vertex fragment config).run s.world
    s.perform (.compile i vertex fragment config) =
      { s with world := built.2, liveStacks := s.liveStacks.set i { stack with cache := built.1.2 } } := by
  obtain ⟨performed, outcome⟩ := perform_compile vertex fragment config found
  dsimp only at performed outcome ⊢
  rw [failed, Option.some.injEq] at outcome
  rw [performed, ← outcome]
  simp [Except.toOption]

omit [GraphicsDevice δ] in
theorem sound_of_joined (sound : (s.joined left).Sound) : s.Sound := by
  have extended : Extends (fun _ => False) RenderTexture.bare s.world (s.world.joined left) :=
    World.extends_joined
  obtain ⟨es, split, none⟩ := extended.events
  have silent : es = [] := List.eq_nil_iff_forall_not_mem.mpr none
  rw [silent, List.append_nil] at split
  have back : Extends (·.isFrame) RenderTexture.shell (s.world.joined left) s.world :=
    { events := World.Emits.silent split.symm
      textures := extended.coarsen.textures.symm
      surfaces := fun name => (extended.surfaces name).symm
      nextKey := extended.nextKey.symm }
  exact World.Kept.frame sound back

theorem Reached.attuned (reached : s.Reached) : s.world.Attuned := by
  obtain ⟨device, host, steps, rfl⟩ := reached
  have start : (fresh device host).world.Attuned := nofun
  exact attuned_run start steps

/-- After a failed compilation the live objects are those of before, and a program that the cache has. -/
theorem live_failed (sound : s.Sound) (found : s.liveStacks[i]? = some stack)
    (failed : s.outcome i vertex fragment config = some (.error e)) :
    let cache := ((stack.cache.compile stack.redraw vertex fragment config).run s.world).1.2
    let live' := live (s.perform (.compile i vertex fragment config)).world.events
    cache.entries = stack.cache.entries ∧ live' = live s.world.events ∨
      ∃ h, config.cached = true ∧
        cache.entries = ((vertex.template, fragment.template), h) :: stack.cache.entries ∧
        live' = {⟨.program, h⟩} + live s.world.events := by
  have after := sound_perform (.compile i vertex fragment config) sound
  have performed := perform_failed found failed
  obtain ⟨_, served⟩ := ProgramCache.served_compile stack.cache stack.redraw vertex fragment config s.world
  obtain ⟨left, _, same⟩ :=
    ProgramCache.joins_compile stack.cache stack.redraw vertex fragment config s.world
  obtain ⟨others, owned, changed⟩ := split_cache found
  dsimp only at performed ⊢
  rw [performed] at after ⊢
  generalize (stack.cache.compile stack.redraw vertex fragment config).run s.world = built
    at after served same ⊢
  have tables : built.2.owns = s.world.owns := by
    rw [same]
    have joined : ((s.world.resumed built.2).joined left).owns = (s.world.resumed built.2).owns :=
      World.extends_joined.coarsen.owns
    exact joined
  have before : live s.world.events = s.world.owns + (stack.cache.owns + others) := by
    rw [sound.accounted.2, owned]
  have now : live built.2.events = s.world.owns + (built.1.2.owns + others) := by
    rw [after.accounted.2, (changed built.1.2 built.2).1, tables]
  rcases served.entries_eq with kept | ⟨h, cached, _, added⟩
  · refine .inl ⟨kept, ?_⟩
    rw [now, before, ProgramCache.owns, kept, ProgramCache.owns]
  · refine .inr ⟨h, cached, added, ?_⟩
    rw [now, before, ProgramCache.owns, added, ProgramCache.owns, List.map_cons, ← Multiset.cons_coe,
      ← Multiset.singleton_add]
    abel

theorem takeRedrawRequest_iff (alike : s.Overheard (fun id l => (id, l) ∈ left) (s.joined left))
    (sound : s.Sound) (own : s.world.Attuned) (attuned : (s.joined left).world.Attuned)
    (later : List SessionStep) (asked : Stack) :
    (asked.takeRedrawRequest.run (run later (s.joined left)).world).1 = true ↔
      (asked.takeRedrawRequest.run (run later s).world).1 = true ∨
        ∃ l ∈ left, l.2.redraw = asked.redraw ∧ ∃ before step after, later = before ++ step :: after ∧
          (run before s).Renews asked.redraw l.1 step ∧
          Unsettled asked.redraw l.2.source ((run before s).perform step) after := by
  have requests (x : Handle) : (s.joined left).world.Pending asked.redraw x ↔
      s.world.Pending asked.redraw x := by
    unfold World.Pending World.requests joined
    rw [World.redraws_joined]
  have pending (x : Handle) := pending_iff alike sound own attuned (requests x) later
  rw [Stack.takeRedrawRequest_iff, Stack.takeRedrawRequest_iff]
  simp only [pending, exists_or]
  refine or_congr Iff.rfl ⟨?_, ?_⟩
  · rintro ⟨_, id, ⟨l, member, mine, rfl⟩, raised⟩
    exact ⟨(id, l), member, mine, raised⟩
  · rintro ⟨⟨id, l⟩, member, mine, raised⟩
    exact ⟨l.source, id, ⟨l, member, mine, rfl⟩, raised⟩

/-- A compilation that fails leaves the session as it was, up to a linked program that the cache keeps and
to listeners: its samplers go on listening to the surfaces that they showed when they were bound. Later on
everything happens as without it, except that a stack also asks for a redraw if such a surface got new
content and the request was not settled since. -/
theorem failed_compile_leaves_listeners (reached : s.Reached)
    (failed : s.outcome i vertex fragment config = some (.error e)) :
    ∃ stack cache left, s.liveStacks[i]? = some stack ∧
      (∀ l ∈ left, Binder.Heard stack.redraw (vertex.tokens ++ fragment.tokens) s.world l.1 l.2) ∧
      let s' := s.perform (.compile i vertex fragment config)
      let unbuilt := s.undone s'.world i stack cache
      s' = unbuilt.joined left ∧
      (cache.entries = stack.cache.entries ∧ live s'.world.events = live s.world.events ∨
        ∃ h, config.cached = true ∧
          cache.entries = ((vertex.template, fragment.template), h) :: stack.cache.entries ∧
          live s'.world.events = {⟨.program, h⟩} + live s.world.events) ∧
      ∀ (later : List SessionStep) (asked : Stack),
        (run later unbuilt).Overheard (fun id l => (id, l) ∈ left) (run later s') ∧
        ((asked.takeRedrawRequest.run (run later s').world).1 = true ↔
          (asked.takeRedrawRequest.run (run later unbuilt).world).1 = true ∨
            ∃ l ∈ left, l.2.redraw = asked.redraw ∧
              ∃ before step after, later = before ++ step :: after ∧
                (run before unbuilt).Renews asked.redraw l.1 step ∧
                Unsettled asked.redraw l.2.source ((run before unbuilt).perform step) after) := by
  obtain ⟨stack, found, _⟩ := Option.map_eq_some_iff.mp failed
  obtain ⟨left, heard, same⟩ :=
    ProgramCache.joins_compile stack.cache stack.redraw vertex fragment config s.world
  have sound := reached.sound
  have after := sound_perform (.compile i vertex fragment config) sound
  have attuned := (pending_perform 0 0 s (.compile i vertex fragment config) reached.attuned).1
  have performed := perform_failed found failed
  have kept := live_failed sound found failed
  dsimp only at performed kept
  generalize s.perform (.compile i vertex fragment config) = s' at *
  generalize (stack.cache.compile stack.redraw vertex fragment config).run s.world = built at *
  have world : s'.world = built.2 := by rw [performed]
  have split : s' = (s.undone s'.world i stack built.1.2).joined left := by
    rw [performed]
    unfold undone joined
    rw [← same]
  refine ⟨stack, built.1.2, left, found, heard, split, kept, fun later asked => ?_⟩
  have own : (s.undone s'.world i stack built.1.2).world.Attuned := reached.attuned
  have old : ∀ l ∈ left, ∀ key, l.1 = .renderTexture key →
      key < (s.undone s'.world i stack built.1.2).world.nextKey := by
    intro l member key target
    obtain ⟨t, present, _⟩ := Option.map_eq_some_iff.mp (target ▸ (heard l member).source)
    exact sound.shared.old key (List.mem_map_of_mem (mem_of_lookup present))
  generalize s.undone s'.world i stack built.1.2 = unbuilt at *
  have alike : unbuilt.Overheard (fun id l => (id, l) ∈ left) (unbuilt.joined left) :=
    ⟨_, ((World.Overheard.refl _).joined left old).congr fun _ _ => iff_of_eq (false_or _), rfl⟩
  subst split
  exact ⟨alike.run later, takeRedrawRequest_iff alike (sound_of_joined after) own attuned later asked⟩

/-- A stack and a target that it does not draw. -/
def apart : Session RecordingDevice := run [.makeStack true 8 8 {}, .makeTexture 4 4] (fresh {} {})

/-- A sampler of the target. -/
def canvas : Token := ⟨10, .sampler ⟨pure (.surface (.renderTexture 1)), {}⟩⟩

def plain : CompiledShader := ⟨1, "void main", []⟩

def painted : CompiledShader := ⟨2, "uniform sampler2D canvas;\nvoid main canvas", [⟨"canvas", canvas⟩]⟩

/-- A sampler is no index token, so that binding fails after the fragment stage is bound. -/
def misindexed : ProgramConfig := { draw := .arrays 0 3, indices := some canvas }

theorem misindexed_fails : apart.outcome 0 plain painted misindexed =
    some (.error (.resource (.notAnIndexToken .sampler2D))) := by
  rfl

/-- The sampler was bound, and its listener stays. -/
theorem misindexed_leaves_listeners :
    ∃ stack cache left, apart.liveStacks[0]? = some stack ∧ left ≠ [] ∧
      (∀ l ∈ left, Binder.Heard stack.redraw painted.tokens apart.world l.1 l.2) ∧
      let s' := apart.perform (.compile 0 plain painted misindexed)
      s' = (apart.undone s'.world 0 stack cache).joined left := by
  have reached : apart.Reached := ⟨_, _, _, rfl⟩
  obtain ⟨stack, cache, left, found, heard, split, _⟩ :=
    failed_compile_leaves_listeners reached misindexed_fails
  refine ⟨stack, cache, left, found, ?_, heard, split⟩
  rintro rfl
  have same : (apart.perform (.compile 0 plain painted misindexed)).world.textures =
      apart.world.textures := by
    rw [split]
    rfl
  have listeners := congrArg (List.map fun e => e.2.listeners.length) same
  revert listeners
  decide +kernel

/-- Whether the first stack asks for a redraw after some calls. -/
def asks (steps : List SessionStep) (s : Session RecordingDevice) : Bool :=
  let s := run steps s
  s.liveStacks.head?.any fun stack => (stack.takeRedrawRequest.run s.world).1

/-- No program of the stack samples the target, and its new content makes the stack ask for a redraw if a
compilation failed before, and only then. -/
theorem misindexed_still_requests :
    apart.outcome 0 plain painted misindexed =
        some (.error (.resource (.notAnIndexToken .sampler2D))) ∧
      (run [.compile 0 plain painted misindexed, .renderTexture 1] apart).liveStacks.map
        (·.programs.length) = [0] ∧
      asks [.compile 0 plain painted misindexed, .renderTexture 1] apart = true ∧
      asks [.renderTexture 1] apart = false :=
  ⟨misindexed_fails, by decide +kernel⟩

end Session
end ShaderStack

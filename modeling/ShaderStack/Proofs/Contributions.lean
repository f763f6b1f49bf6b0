import ShaderStack.Device.Recording
import ShaderStack.Proofs.Wiring

/-! What becomes of every token of a program.

A token whose input has a location takes its slot; one whose input has none is reported. The
account of a program follows from the answers of its lookups alone, which are told by a table. -/
namespace ShaderStack

variable {δ : Type}

/-- A token with the stage in whose text it stands. -/
structure StagedToken where
  stage : ShaderStage
  named : NamedToken

/-- What is looked up is found here, or nowhere. -/
abbrev LocationTable := Lookup → Option Location

namespace StagedToken

/-- The slot that a token takes when the host is in this state. Index data take the element array
if they are unsigned. -/
def slot? (locate : LocationTable) (program : Handle) (host : Host) (t : StagedToken) :
    Option BindingSlot :=
  match t.named.token.kind with
  | .vertexAttribute a =>
    match a.options.target with
    | .array => (locate (.attributeLocation program t.named.name)).map .vertexAttribute
    | .elementArray =>
      if (a.value.run host).1.kind ∈ [ElementKind.u8, .u16, .u32] then some .elements else none
  | .uniform _ | .sampler _ => (locate (.uniformLocation program t.named.name)).map .uniform
  | .scope _ => none

/-- The report about a token whose input has no location. -/
def report? (locate : LocationTable) (program : Handle) (t : StagedToken) : Option MissingBinding :=
  match t.named.asks program with
  | none => none
  | some l =>
    if locate l = none then
      some {
        name := t.named.name
        type := t.named.token.type
        stage := t.stage
        reason :=
          if t.named.token.type = .vertexAttribute ∧ t.stage = .fragment then .undeclared
          else .elided }
    else none

/-- The host after a token was bound. Reported tokens are not read, and uniforms not before they
are drawn. -/
def after (locate : LocationTable) (program : Handle) (host : Host) (t : StagedToken) : Host :=
  if (t.report? locate program).isSome ∨ t.named.token.type = .uniform then host
  else t.named.token.after host

end StagedToken

/-- The slots that some tokens take, each read after those before it. -/
def contributions (locate : LocationTable) (program : Handle) :
    Host → List StagedToken → List BindingSlot
  | _, [] => []
  | host, t :: ts => (t.slot? locate program host).toList ++
      contributions locate program (t.after locate program host) ts

/-- The tokens of a program in binding order: those of both stages and the index token. -/
def bindingOrder (vertex fragment : CompiledShader) (config : ProgramConfig) : List StagedToken :=
  vertex.tokens.map (StagedToken.mk .vertex) ++ fragment.tokens.map (StagedToken.mk .fragment) ++
    config.indices.toList.map fun t => ⟨.vertex, "indices", t⟩

/-- What binding some tokens did, if their lookups were answered from the table. -/
structure Tally (locate : LocationTable) (ts : List StagedToken) (b : Bindings) (w : World δ)
    (b' : Bindings) (w' : World δ) : Prop where
  slots : ∀ earlier, b.queue.slots = earlier.eraseDups →
    b'.queue.slots = (earlier ++ contributions locate b.program w.host ts).eraseDups
  missing : b'.missing = b.missing ++ ts.filterMap (StagedToken.report? locate b.program)
  host : w'.host = ts.foldl (StagedToken.after locate b.program) w.host

/-- Binding some tokens asked for locations, and the answers tell what else it did. -/
structure Accounts (locate : LocationTable) (ts : List StagedToken) (b : Bindings) (w : World δ)
    (b' : Bindings) (w' : World δ) : Prop where
  program : b'.program = b.program
  answered : ∃ answers, lookups w'.events = lookups w.events ++ answers ∧
    ((∀ q ∈ answers, q.2 = locate q.1) → Tally locate ts b w b' w')

section Walks

variable {locate : LocationTable} {program : Handle} {host : Host} {ts us : List StagedToken}
  {b b₁ b₂ : Bindings} {w w₁ w₂ : World δ}

theorem contributions_append : contributions locate program host (ts ++ us) =
    contributions locate program host ts ++
      contributions locate program (ts.foldl (StagedToken.after locate program) host) us := by
  induction ts generalizing host with
  | nil => rfl
  | cons t ts ih => simp [contributions, ih]

theorem Accounts.refl (b : Bindings) (w : World δ) : Accounts locate [] b w b w := by
  constructor
  · rfl
  · exact ⟨[], by simp, fun _ => ⟨fun _ same => by simpa [contributions] using same, by simp, rfl⟩⟩

theorem Accounts.trans (first : Accounts locate ts b w b₁ w₁)
    (second : Accounts locate us b₁ w₁ b₂ w₂) : Accounts locate (ts ++ us) b w b₂ w₂ := by
  obtain ⟨answers, events, tally⟩ := first.answered
  obtain ⟨answers', events', tally'⟩ := second.answered
  constructor
  · exact second.program.trans first.program
  · apply Exists.intro (answers ++ answers')
    constructor
    · rw [events', events, List.append_assoc]
    · intro told
      have one := tally fun q member => told q (List.mem_append_left _ member)
      have two := tally' fun q member => told q (List.mem_append_right _ member)
      constructor
      · intro earlier slots
        have all := two.slots _ (one.slots earlier slots)
        rw [first.program, one.host] at all
        simpa [contributions_append] using all
      · simp [two.missing, one.missing, first.program]
      · simp [two.host, one.host, first.program]

end Walks

section Tallies

variable {locate : LocationTable} {t : StagedToken} {b b' : Bindings} {w w' : World δ}

/-- A slot is added unless it is there. -/
theorem UpdateQueue.slots_register {α : Type} {q : UpdateQueue α} {slot : BindingSlot} {update : α}
    {earlier : List BindingSlot} (slots : q.slots = earlier.eraseDups) :
    (q.register slot update).2.slots = (earlier ++ [slot]).eraseDups := by
  have keys : (q.register slot update).2.slots =
      if slot ∈ q.slots then q.slots else q.slots ++ [slot] := keys_assign
  have known : slot ∈ q.slots ↔ slot ∈ earlier := by
    rw [slots]
    exact List.mem_eraseDups
  rw [keys, List.eraseDups_append]
  by_cases member : slot ∈ earlier
  · rw [if_pos (known.mpr member)]
    simp [List.removeAll, member, slots]
  · rw [if_neg (member ∘ known.mp)]
    simp [List.removeAll, List.eraseDups_cons, member, slots]

theorem Tally.took {slot : BindingSlot} {update : Update}
    (takes : t.slot? locate b.program w.host = some slot)
    (silent : t.report? locate b.program = none)
    (queue : b'.queue = (b.queue.register slot update).2) (missing : b'.missing = b.missing)
    (host : w'.host = t.after locate b.program w.host) : Tally locate [t] b w b' w' := by
  constructor
  · intro earlier slots
    rw [queue, UpdateQueue.slots_register slots]
    simp [contributions, takes]
  · simp [missing, silent]
  · exact host

theorem Tally.passed (free : t.slot? locate b.program w.host = none)
    (silent : t.report? locate b.program = none) (queue : b'.queue = b.queue)
    (missing : b'.missing = b.missing) (host : w'.host = t.after locate b.program w.host) :
    Tally locate [t] b w b' w' := by
  constructor
  · intro earlier slots
    rw [queue, slots]
    simp [contributions, free]
  · simp [missing, silent]
  · exact host

theorem Tally.reported {entry : MissingBinding} (free : t.slot? locate b.program w.host = none)
    (report : t.report? locate b.program = some entry) (queue : b'.queue = b.queue)
    (missing : b'.missing = b.missing ++ [entry]) (host : w'.host = w.host) :
    Tally locate [t] b w b' w' := by
  constructor
  · intro earlier slots
    rw [queue, slots]
    simp [contributions, free]
  · simp [missing, report]
  · simp [host, StagedToken.after, report]

end Tallies

namespace StagedToken

variable {locate : LocationTable} {program : Handle} {host : Host} {t : StagedToken} {l : Lookup}
  {location : Location}

/-- Only inputs ask for a location, and without one there is no slot. -/
theorem slot_of_unlocated (asks : t.named.asks program = some l) (unlocated : locate l = none) :
    t.slot? locate program host = none := by
  obtain ⟨stage, name, id, kind⟩ := t
  cases kind with
  | vertexAttribute a =>
    cases target : a.options.target <;> simp_all [NamedToken.asks, slot?]
  | uniform u => simp_all [NamedToken.asks, slot?]
  | sampler s => simp_all [NamedToken.asks, slot?]
  | scope name => simp [NamedToken.asks] at asks

theorem report_of_located (asks : t.named.asks program = some l)
    (located : locate l = some location) : t.report? locate program = none := by
  simp [report?, asks, located]

theorem report_of_not_asks (asks : t.named.asks program = none) :
    t.report? locate program = none := by
  simp [report?, asks]

/-- A token that is read when it is bound. -/
theorem after_of_silent (silent : t.report? locate program = none)
    (read : t.named.token.type ≠ .uniform) :
    t.after locate program host = t.named.token.after host := by
  simp [after, silent, read]

end StagedToken

section Tokens

variable [GraphicsDevice δ] (locate : LocationTable) {t : StagedToken} {b : Bindings} {w : World δ}
  {l : Lookup} {declared : List String}

/-- A token whose input has no location is reported and nothing else. -/
theorem accounts_missing (asks : t.named.asks b.program = some l) (unlocated : w.located l = none)
    (known : t.named.name ∈ declared) :
    Binder.Ends (Binder.missing declared t.stage t.named.name t.named.token.type) b (w.lookedUp l)
      (fun _ b' w' => Accounts locate [t] b w b' w') fun _ _ _ => True := by
  constructor
  · rfl
  · apply Exists.intro [(l, none)]
    constructor
    · rw [lookups_lookedUp, unlocated]
    · intro told
      have nowhere : locate l = none := (told (l, none) (List.mem_singleton_self _)).symm
      apply Tally.reported (StagedToken.slot_of_unlocated asks nowhere)
      · simp [StagedToken.report?, asks, nowhere]
        rfl
      · rfl
      · simp [known]
      · rfl

/-- Filling a new buffer is silent about locations and reads nothing. -/
theorem ends_uploaded {target : BufferTarget} {data : List UInt8} {afterwards : List Command}
    {done : Handle → Bindings → World δ → Prop}
    (filled : ∀ buffer objects w', lookups w'.events = lookups w.events → w'.host = w.host →
      done buffer { b with objects } w') :
    Binder.Ends (Binder.uploadBuffer target data afterwards) b w done fun _ _ _ => True := by
  rw [Binder.ends_uploadBuffer]
  constructor
  · intro buffer _
    apply filled
    · rw [lookups_performAll, lookups_allocated]
    · simp
  · simp

theorem accounts_bindAttribute {a : AttributeToken} (kind : t.named.token.kind = .vertexAttribute a)
    (target : a.options.target = .array) (known : t.named.name ∈ declared) :
    Binder.Ends (Binder.bindAttribute declared t.stage t.named.name a) b w
      (fun _ b' w' => Accounts locate [t] b w b' w') fun _ _ _ => True := by
  have asks : t.named.asks b.program = some (.attributeLocation b.program t.named.name) := by
    simp [NamedToken.asks, kind, target]
  rw [Binder.ends_bindAttribute]
  dsimp only
  cases located : w.located (.attributeLocation b.program t.named.name) with
  | none =>
    have type : t.named.token.type = .vertexAttribute := by simp [Token.type, kind, TokenKind.type]
    have missing := accounts_missing locate asks located known
    rwa [type] at missing
  | some location =>
    dsimp only
    apply ends_uploaded
    intro buffer objects w' events host
    constructor
    · rfl
    · apply Exists.intro [(.attributeLocation b.program t.named.name, some location)]
      constructor
      · rw [events, World.looked_events, lookups_lookedUp, located]
      · intro told
        have here := (told _ (List.mem_singleton_self _)).symm
        have silent := StagedToken.report_of_located asks here
        refine Tally.took ?_ silent rfl rfl ?_
        · simp [StagedToken.slot?, kind, target, here]
        · rw [StagedToken.after_of_silent silent (by simp [Token.type, kind, TokenKind.type]), host]
          simp [Token.after, kind]

theorem accounts_bindElements {a : AttributeToken} (kind : t.named.token.kind = .vertexAttribute a)
    (target : a.options.target = .elementArray) :
    Binder.Ends (Binder.bindElements a) b w (fun _ b' w' => Accounts locate [t] b w b' w')
      fun _ _ _ => True := by
  have asks : t.named.asks b.program = none := by simp [NamedToken.asks, kind, target]
  have silent : t.report? locate b.program = none := StagedToken.report_of_not_asks asks
  have after : t.after locate b.program w.host = (a.value.run w.host).2 := by
    rw [StagedToken.after_of_silent silent (by simp [Token.type, kind, TokenKind.type])]
    simp [Token.after, kind]
  have slot : t.slot? locate b.program w.host =
      if (IndexType.ofElement? (w.see a.value).kind).isSome then some .elements else none := by
    simp [StagedToken.slot?, kind, target, World.see, IndexType.isSome_ofElement]
  rw [Binder.ends_bindElements]
  dsimp only
  cases index : IndexType.ofElement? (w.see a.value).kind with
  | none =>
    constructor
    · rfl
    · apply Exists.intro []
      constructor
      · simp
      · intro _
        apply Tally.passed _ silent rfl rfl after.symm
        simp [slot, index]
  | some type =>
    dsimp only
    apply ends_uploaded
    intro buffer objects w' events host
    constructor
    · rfl
    · apply Exists.intro []
      constructor
      · simp [events]
      · intro _
        refine Tally.took ?_ silent rfl rfl ?_
        · simp [slot, index]
        · rw [host, after]
          rfl

theorem accounts_bindUniform {u : UniformToken} (kind : t.named.token.kind = .uniform u)
    (known : t.named.name ∈ declared) :
    Binder.Ends (Binder.bindUniform declared t.stage t.named.name u) b w
      (fun _ b' w' => Accounts locate [t] b w b' w') fun _ _ _ => True := by
  have type : t.named.token.type = .uniform := by simp [Token.type, kind, TokenKind.type]
  have asks : t.named.asks b.program = some (.uniformLocation b.program t.named.name) := by
    simp [NamedToken.asks, kind]
  rw [Binder.ends_bindUniform]
  dsimp only
  cases located : w.located (.uniformLocation b.program t.named.name) with
  | none =>
    have missing := accounts_missing locate asks located known
    rwa [type] at missing
  | some location =>
    constructor
    · rfl
    · apply Exists.intro [(.uniformLocation b.program t.named.name, some location)]
      constructor
      · rw [lookups_lookedUp, located]
      · intro told
        have here := (told _ (List.mem_singleton_self _)).symm
        refine Tally.took ?_ (StagedToken.report_of_located asks here) rfl rfl ?_
        · simp [StagedToken.slot?, kind, here]
        · simp [StagedToken.after, type]

theorem accounts_bindSampler {redraw : RedrawKey} {s : SamplerToken}
    (kind : t.named.token.kind = .sampler s) (known : t.named.name ∈ declared) :
    Binder.Ends (Binder.bindSampler declared redraw t.stage t.named.name s) b w
      (fun _ b' w' => Accounts locate [t] b w b' w') fun _ _ _ => True := by
  have type : t.named.token.type = .sampler2D := by simp [Token.type, kind, TokenKind.type]
  have asks : t.named.asks b.program = some (.uniformLocation b.program t.named.name) := by
    simp [NamedToken.asks, kind]
  rw [Binder.ends_bindSampler]
  dsimp only
  cases located : w.located (.uniformLocation b.program t.named.name) with
  | none =>
    have missing := accounts_missing locate asks located known
    rwa [type] at missing
  | some location =>
    dsimp only
    constructor
    · intro texture _
      -- What the sampler shows and whom it subscribes to is no matter for its slot.
      have seated {handles : List Handle} {w' : World δ}
          (events : lookups w'.events = lookups (w.lookedUp
            (.uniformLocation b.program t.named.name)).events)
          (host : w'.host = (s.value.run w.host).2) :
          Accounts locate [t] b w (Binder.withSampler s redraw location texture handles b) w' := by
        constructor
        · rfl
        · apply Exists.intro [(.uniformLocation b.program t.named.name, some location)]
          constructor
          · rw [events, lookups_lookedUp, located]
          · intro told
            have here := (told _ (List.mem_singleton_self _)).symm
            have silent := StagedToken.report_of_located asks here
            refine Tally.took ?_ silent rfl rfl ?_
            · simp [StagedToken.slot?, kind, here]
            · rw [StagedToken.after_of_silent silent (by simp [type]), host]
              simp [Token.after, kind]
      have events : lookups (((w.lookedUp (.uniformLocation b.program t.named.name)).allocated
          .texture).performAll (Binder.seat b.nextUnit texture s.options.parameters)).events =
          lookups (w.lookedUp (.uniformLocation b.program t.named.name)).events := by
        rw [lookups_performAll, lookups_allocated]
      have host : (((w.lookedUp (.uniformLocation b.program t.named.name)).allocated
          .texture).performAll (Binder.seat b.nextUnit texture s.options.parameters)).host =
          w.host := by
        simp
      generalize ((w.lookedUp (.uniformLocation b.program t.named.name)).allocated .texture).performAll
        (Binder.seat b.nextUnit texture s.options.parameters) = w₁ at events host
      have read : (w₁.looked s.value).host = (s.value.run w.host).2 := by
        rw [World.looked_host, host]
      cases w₁.see s.value with
      | pixels data => exact seated events read
      | surface id =>
        dsimp only
        obtain ⟨handles, same | ⟨subscription, _, added⟩⟩ :=
          SamplerUpdate.run_subscribe redraw id [] (w₁.looked s.value)
        · rw [same]
          exact seated events read
        · rw [added]
          apply seated
          · rw [World.listen_events]
            exact events
          · rw [World.listen_host]
            exact read
    · simp

/-- The names that a shader declares are those of its inputs. -/
theorem CompiledShader.mem_declaredNames {shader : CompiledShader} {n : NamedToken}
    (member : n ∈ shader.tokens) (input : n.declaration?.isSome) :
    n.name ∈ shader.declaredNames :=
  List.mem_map_of_mem (List.mem_filter.mpr ⟨member, input⟩)

/-- A token of a shader takes its slot, or is reported, or comes to nothing. -/
theorem accounts_bindToken {redraw : RedrawKey} {shader : CompiledShader} {stage : ShaderStage}
    {n : NamedToken} (member : n ∈ shader.tokens) :
    Binder.Ends (Binder.bindToken shader.declaredNames redraw stage n) b w
      (fun _ b' w' => Accounts locate [⟨stage, n⟩] b w b' w') fun _ _ _ => True := by
  have known (input : n.declaration?.isSome) : n.name ∈ shader.declaredNames :=
    CompiledShader.mem_declaredNames member input
  unfold Binder.bindToken
  cases kind : n.token.kind with
  | vertexAttribute a =>
    dsimp only
    cases target : a.options.target with
    | array =>
      apply accounts_bindAttribute locate (t := ⟨stage, n⟩) kind target
      exact known (by simp [NamedToken.declaration?, kind, target])
    | elementArray => exact accounts_bindElements locate kind target
  | uniform u =>
    apply accounts_bindUniform locate (t := ⟨stage, n⟩) kind
    exact known (by simp [NamedToken.declaration?, kind])
  | sampler s =>
    apply accounts_bindSampler locate (t := ⟨stage, n⟩) kind
    exact known (by simp [NamedToken.declaration?, kind])
  | scope name =>
    have asks : n.asks b.program = none := by simp [NamedToken.asks, kind]
    have silent : StagedToken.report? locate b.program ⟨stage, n⟩ = none :=
      StagedToken.report_of_not_asks asks
    constructor
    · rfl
    · apply Exists.intro []
      constructor
      · simp
      · intro _
        refine Tally.passed ?_ silent rfl rfl ?_
        · simp [StagedToken.slot?, kind]
        · rw [StagedToken.after_of_silent silent (by simp [Token.type, kind, TokenKind.type])]
          simp [Token.after, kind]

theorem accounts_bindShader {redraw : RedrawKey} {shader : CompiledShader} {stage : ShaderStage} :
    Binder.Ends (Binder.bindShader redraw stage shader) b w
      (fun _ b' w' => Accounts locate (shader.tokens.map (StagedToken.mk stage)) b w b' w')
      fun _ _ _ => True := by
  unfold Binder.bindShader
  apply Binder.ends_forM fun ns b' w' => Accounts locate (ns.map (StagedToken.mk stage)) b w b' w'
  · intro before n after b₁ w₁ split accounts
    have member : n ∈ shader.tokens := by simp [split]
    refine (accounts_bindToken locate member).imp ?_ fun _ _ _ _ => trivial
    intro _ b₂ w₂ next
    rw [List.map_append]
    exact accounts.trans next
  · exact Accounts.refl b w

/-- An index token that binding accepts is bound as indices. -/
theorem accounts_bindIndexToken {token : Token} :
    Binder.Ends (Binder.bindIndexToken token) b w
      (fun _ b' w' => Accounts locate [⟨.vertex, "indices", token⟩] b w b' w')
      fun _ _ _ => True := by
  unfold Binder.bindIndexToken
  cases kind : token.kind with
  | vertexAttribute a =>
    dsimp only
    by_cases target : a.options.target = .elementArray
    · rw [if_pos target]
      exact accounts_bindElements locate kind target
    · rw [if_neg target]
      trivial
  | _ => trivial

theorem accounts_uploadListed {draw : Draw} {used : Option IndexBuffer} :
    Binder.Ends (Binder.uploadListed draw used) b w (fun _ b' w' => Accounts locate [] b w b' w')
      fun _ _ _ => True := by
  unfold Binder.uploadListed
  split
  · unfold Binder.uploadIndices
    rw [Binder.ends_bind, Binder.ends_discard]
    apply ends_uploaded
    intro buffer objects w' events host
    rw [Binder.ends_modify]
    constructor
    · rfl
    · exact ⟨[], by simp [events], fun _ => ⟨fun _ same => by simpa [contributions] using same,
        by simp, host⟩⟩
  · exact Accounts.refl b w

/-- Binding accounts for every token in its order. -/
theorem accounts_bindAll {redraw : RedrawKey} {vertex fragment : CompiledShader}
    {config : ProgramConfig} :
    Binder.Ends (Binder.bindAll redraw vertex fragment config) b w
      (fun _ b' w' => Accounts locate (bindingOrder vertex fragment config) b w b' w')
      fun _ _ _ => True := by
  have listed {ts : List StagedToken} {b₁ : Bindings} {w₁ : World δ}
      (accounts : Accounts locate ts b w b₁ w₁) :
      Binder.Ends (do Binder.uploadListed config.draw (← get).elements) b₁ w₁
        (fun _ b' w' => Accounts locate ts b w b' w') fun _ _ _ => True := by
    rw [Binder.ends_bind, Binder.ends_get]
    refine (accounts_uploadListed locate).imp ?_ fun _ _ _ _ => trivial
    intro _ b' w' next
    rw [← List.append_nil ts]
    exact accounts.trans next
  unfold Binder.bindAll bindingOrder
  rw [Binder.ends_bind]
  refine (accounts_bindShader locate).imp ?_ fun _ _ _ _ => trivial
  intro _ b₁ w₁ first
  rw [Binder.ends_bind]
  refine (accounts_bindShader locate).imp ?_ fun _ _ _ _ => trivial
  intro _ b₂ w₂ second
  have both := first.trans second
  cases indices : config.indices with
  | none =>
    rw [Option.toList_none, List.map_nil, List.append_nil]
    exact listed both
  | some token =>
    change Binder.Ends (Binder.bindIndexToken token >>= fun _ => _) b₂ w₂ _ _
    rw [Binder.ends_bind]
    refine (accounts_bindIndexToken locate).imp ?_ fun _ _ _ _ => trivial
    intro _ b₃ w₃ third
    exact listed (both.trans third)

end Tokens

namespace ProgramCache

variable [GraphicsDevice δ] (locate : LocationTable) {w : World δ}

/-- Linking looks nothing up and reads nothing. -/
theorem lookups_link (cache : ProgramCache) (vertex fragment : CompiledShader) (cached : Bool) :
    lookups ((cache.link vertex fragment cached).run w).2.events = lookups w.events ∧
      ((cache.link vertex fragment cached).run w).2.host = w.host := by
  rw [run_link]
  split
  · exact ⟨rfl, rfl⟩
  · dsimp only
    split <;> exact ⟨lookups_allocated, rfl⟩

/-- What a new program has accounted for. -/
structure Accounted (locate : LocationTable) (ts : List StagedToken) (host : Host) (p : Program) :
    Prop where
  /-- Each slot that a token takes, once and at its first place. -/
  slots : p.bindings.queue.slots =
    (contributions locate p.bindings.program host ts).eraseDups
  /-- One report for each token without a location, in order. -/
  missing : p.bindings.missing = ts.filterMap (StagedToken.report? locate p.bindings.program)

theorem accounts_bind {handle : Handle} {owned : Bool} {redraw : RedrawKey}
    {vertex fragment : CompiledShader} {config : ProgramConfig} :
    (bind handle owned redraw vertex fragment config).Ends w
      (fun p w' => ∃ answers, lookups w'.events = lookups w.events ++ answers ∧
        ((∀ q ∈ answers, q.2 = locate q.1) →
          Accounted locate (bindingOrder vertex fragment config) w.host p)) fun _ _ => True := by
  rw [ends_bind]
  constructor
  · intro vertexArray _
    refine (accounts_bindAll locate).imp ?_ fun _ _ _ _ => trivial
    intro _ b w' accounts
    obtain ⟨answers, events, tally⟩ := accounts.answered
    rw [lookups_allocated] at events
    refine ⟨answers, events, fun told => ?_⟩
    have whole := tally told
    constructor
    · have slots := whole.slots [] rfl
      rw [← accounts.program] at slots
      exact slots
    · have missing := whole.missing
      rw [← accounts.program] at missing
      exact missing
  · simp

end ProgramCache

/-- A compiled program accounts for each of its tokens, whatever its device answers, as long as
one name is always answered alike. -/
theorem compile_accounts_for_tokens [GraphicsDevice δ] {locate : LocationTable}
    {cache cache' : ProgramCache} {redraw : RedrawKey} {vertex fragment : CompiledShader}
    {config : ProgramConfig} {w w' : World δ} {p : Program}
    (compiled : (cache.compile redraw vertex fragment config).run w = ((.ok p, cache'), w'))
    (answers : ∀ q ∈ lookups (w'.events.drop w.events.length), q.2 = locate q.1) :
    ProgramCache.Accounted locate (bindingOrder vertex fragment config) w.host p := by
  have grown : World.Extends (·.isQuiet) RenderTexture.bare w
      ((cache.compile redraw vertex fragment config).run w).2 := ProgramCache.extends_compile
  rw [compiled] at grown
  obtain ⟨new, events, _⟩ := grown.events
  rw [events, List.drop_left] at answers
  rw [ProgramCache.run_compile] at compiled
  cases fit : checkSharedNames vertex fragment with
  | error e =>
    rw [fit] at compiled
    cases compiled
  | ok _ =>
    rw [fit] at compiled
    obtain ⟨silent, still⟩ := ProgramCache.lookups_link (δ := δ) (w := w) cache vertex fragment
      config.cached
    dsimp only at compiled
    generalize (cache.link vertex fragment config.cached).run w = link at compiled silent still
    obtain ⟨⟨e | ⟨handle, owned⟩, cache₁⟩, w₁⟩ := link
    · cases compiled
    · dsimp only at compiled silent still
      generalize built : (ProgramCache.bind handle owned redraw vertex fragment config).run.run w₁ =
        answer at compiled
      obtain ⟨result, w₂⟩ := answer
      cases compiled
      obtain ⟨found, asked, account⟩ := (ProgramCache.accounts_bind locate).of_ok built
      rw [still] at account
      apply account
      have same : found = lookups new := by
        rw [silent, events, lookups_append] at asked
        exact (List.append_cancel_left asked).symm
      rwa [same]

section Stall

/-- Positions and a tint that both stages share, a tint that nothing uses, and weights that the
fragment stage cannot have. Of its index data, the second ones are unsigned. -/
def stallShaders : CompiledShader × CompiledShader :=
  let vectors (id : Identity) (name : String) : NamedToken :=
    ⟨name, id, .vertexAttribute ⟨.vector .real .two, pure ⟨id, .f32, []⟩, {}⟩⟩
  let tint (id : Identity) (name : String) : NamedToken :=
    ⟨name, id, .uniform { type := .vector .real .one, value := pure (.ofSingle .one) }⟩
  let indices (id : Identity) (kind : ElementKind) : NamedToken :=
    ⟨"indices", id, .vertexAttribute
      ⟨.vector .integer .one, pure ⟨id, kind, []⟩, { target := .elementArray }⟩⟩
  (⟨0, "in vec2 a_0;\nuniform float tint;\nvoid main() { gl_Position = vec4(a_0 * tint); }",
      [vectors 1 "a_0", tint 2 "tint", indices 3 .i16]⟩,
    ⟨1, "in vec2 a_1;\nuniform float tint;\nuniform float u_0;\nvoid main() { color = tint * a_1; }",
      [tint 2 "tint", vectors 4 "a_1", tint 5 "u_0", indices 6 .u16]⟩)

def stall : (Except RenderError Program × ProgramCache) × World RecordingDevice :=
  StateT.run (ProgramCache.compile {} 0 stallShaders.1 stallShaders.2 { draw := .arrays 0 3 })
    ({ device := {} } : World RecordingDevice)

def stallTable : LocationTable := fun l =>
  if l = .attributeLocation 1 "a_0" ∨ l = .uniformLocation 1 "tint" then some 0 else none

/-- The tint has one slot for both stages, and each input that nothing uses has its report. -/
theorem stall_accounts_for_tokens : ∃ p, stall.1.1 = .ok p ∧
    (∀ q ∈ lookups (stall.2.events.drop 0), q.2 = stallTable q.1) ∧
      ProgramCache.Accounted stallTable
        (bindingOrder stallShaders.1 stallShaders.2 { draw := .arrays 0 3 }) {} p ∧
      p.bindings.queue.slots = [.vertexAttribute 0, .uniform 0, .elements] ∧
      p.bindings.missing = [⟨"a_1", .vertexAttribute, .fragment, .undeclared⟩,
        ⟨"u_0", .uniform, .fragment, .elided⟩] := by
  -- the run is evaluated once, for the program and for the answers
  obtain ⟨outcome, answers⟩ : stall.1.1.toOption.map (fun p =>
        (p.bindings.queue.slots, p.bindings.missing)) =
      some ([.vertexAttribute 0, .uniform 0, .elements],
        [⟨"a_1", .vertexAttribute, .fragment, .undeclared⟩,
          ⟨"u_0", .uniform, .fragment, .elided⟩]) ∧
      ∀ q ∈ lookups (stall.2.events.drop 0), q.2 = stallTable q.1 := by decide +kernel
  generalize built : stall = answer at outcome answers ⊢
  obtain ⟨⟨e | p, cache⟩, w⟩ := answer
  · simp [Except.toOption] at outcome
  · simp only [Except.toOption, Option.map_some, Option.some.injEq, Prod.mk.injEq] at outcome
    exact ⟨p, rfl, answers, compile_accounts_for_tokens built answers, outcome⟩

end Stall
end ShaderStack

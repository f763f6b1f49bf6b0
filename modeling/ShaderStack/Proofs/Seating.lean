import ShaderStack.Device.Recording
import ShaderStack.Proofs.Assembly
import ShaderStack.Proofs.Compiling

/-! The textures and units of a program's samplers.

Every use of a sampler whose name has a location takes a seat of its own: a new texture at the next
unit. A sampler that both stages use is seated twice, and of the seats at one location the last one is
drawn with. -/
namespace ShaderStack

variable {δ : Type}

/-- The texture and the unit that one use of a sampler takes. -/
structure Seat where
  slot : BindingSlot
  token : Token
  sampler : SamplerToken
  isSampler : token.kind = .sampler sampler
  texture : Handle
  unit : UInt32

namespace Seat

def use (s : Seat) : BindingSlot × Token := (s.slot, s.token)

def object (s : Seat) : Object := ⟨.texture, s.texture⟩

/-- The calls that make the texture and give it its unit. -/
def calls (s : Seat) : List Event :=
  .allocation .texture (.ok s.texture) ::
    (Binder.seat s.unit s.texture s.sampler.options.parameters).map .command

/-- The update that draws with a seat. -/
structure Serves (s : Seat) (u : SamplerUpdate) : Prop where
  texture : u.texture = s.texture
  unit : u.unit = s.unit
  options : u.options = s.sampler.options
  value : u.value = s.sampler.value

end Seat

/-- Calls that make a texture or choose a unit, a texture or its parameters. -/
def Event.isSeating : Event → Bool
  | .allocation .texture _ => true
  | .command (.activeTexture _) => true
  | .command (.bindTexture _) => true
  | .command (.textureParameters _) => true
  | _ => false

/-- The uses of samplers whose names have locations, in binding order. -/
def samplerUses (program : Handle) (ns : List NamedToken)
    (answers : List (Lookup × Option Location)) : List (BindingSlot × Token) :=
  (slots program ns answers).filter fun use => use.2.type = .sampler2D

/-- Each sampler update draws with the last seat at its slot. -/
abbrev LatestSeat : List Seat → List (BindingSlot × Update) → Prop := Latest Seat.slot Seat.Serves

section Relation

/-- Binding some tokens gave a seat to each use of a sampler among them. -/
structure Seats (ns : List NamedToken) (b : Bindings) (w : World δ) (b' : Bindings) (w' : World δ)
    (new : List Event) (seats : List Seat) : Prop where
  program : b'.program = b.program
  events : w'.events = w.events ++ new
  kept : ∀ e ∈ new, e.deletes? = none
  answered : (lookups new).length = asked b.program ns
  uses : seats.map Seat.use = samplerUses b.program ns (lookups new)
  calls : new.filter Event.isSeating = seats.flatMap Seat.calls
  textures : b'.textures = b.textures ++ seats.map Seat.object
  units : seats.map Seat.unit = (List.range seats.length).map fun i => b.nextUnit + UInt32.ofNat i
  nextUnit : b'.nextUnit = b.nextUnit + UInt32.ofNat seats.length
  latest : ∀ earlier, LatestSeat earlier b.queue.entries →
    LatestSeat (earlier ++ seats) b'.queue.entries

namespace Seats

variable {ns ms : List NamedToken} {b b₁ b₂ b' : Bindings} {w w₁ w₂ w' : World δ}
  {new more : List Event} {seats seats' : List Seat}

theorem trans (first : Seats ns b w b₁ w₁ new seats) (second : Seats ms b₁ w₁ b₂ w₂ more seats') :
    Seats (ns ++ ms) b w b₂ w₂ (new ++ more) (seats ++ seats') := by
  constructor
  · exact second.program.trans first.program
  · rw [second.events, first.events, List.append_assoc]
  · intro e member
    rcases List.mem_append.mp member with here | there
    · exact first.kept e here
    · exact second.kept e there
  · rw [lookups_append, List.length_append, first.answered, second.answered, first.program, asked_append]
  · rw [List.map_append, first.uses, second.uses, first.program, lookups_append, samplerUses,
      samplerUses, samplerUses, slots_append first.answered, List.filter_append]
  · rw [List.filter_append, first.calls, second.calls, List.flatMap_append]
  · rw [second.textures, first.textures, List.map_append, List.append_assoc]
  · rw [List.map_append, first.units, second.units, first.nextUnit, List.length_append, List.range_add,
      List.map_append, List.map_map]
    simp [UInt32.ofNat_add, UInt32.add_assoc, Function.comp_def]
  · rw [second.nextUnit, first.nextUnit, List.length_append, UInt32.ofNat_add, UInt32.add_assoc]
  · intro earlier latest
    rw [← List.append_assoc]
    exact second.latest _ (first.latest _ latest)

/-- What takes no seat changes nothing about those that are taken. -/
theorem unseated (program : b'.program = b.program) (events : w'.events = w.events ++ new)
    (kept : ∀ e ∈ new, e.deletes? = none) (answered : (lookups new).length = asked b.program ns)
    (uses : samplerUses b.program ns (lookups new) = []) (calls : new.filter Event.isSeating = [])
    (textures : b'.textures = b.textures) (nextUnit : b'.nextUnit = b.nextUnit)
    (latest : ∀ earlier, LatestSeat earlier b.queue.entries → LatestSeat earlier b'.queue.entries) :
    Seats ns b w b' w' new [] := by
  constructor
  · exact program
  · exact events
  · exact kept
  · exact answered
  · exact uses.symm
  · exact calls
  · simpa using textures
  · rfl
  · simpa using nextUnit
  · simpa using latest

theorem refl (b : Bindings) (w : World δ) : Seats [] b w b w [] [] :=
  unseated rfl (by simp) (by simp) rfl rfl rfl rfl rfl fun _ => id

/-- A token without an input takes no seat. -/
theorem of_silent {n : NamedToken} (silent : n.asks b.program = none)
    (other : n.token.type ≠ .sampler2D) (rest : Seats [] b w b' w' new seats) :
    Seats [n] b w b' w' new seats := by
  have none_asked : asked b.program [n] = asked b.program [] := by simp [asked, silent]
  have none_used (answers : List (Lookup × Option Location)) :
      samplerUses b.program [n] answers = samplerUses b.program [] answers := by
    simp [samplerUses, slots, NamedToken.bound, other]
  exact { rest with
    answered := by rw [none_asked, rest.answered]
    uses := by rw [none_used, rest.uses] }

end Seats

end Relation

section Tokens

variable [GraphicsDevice δ] {b : Bindings} {w : World δ} {n : NamedToken} {declared : List String}
  {l : Lookup}

/-- A token whose name has no location takes no seat. -/
theorem seats_missing {stage : ShaderStage} {type : TokenType}
    (asks : n.asks b.program = some l) (unlocated : w.located l = none) :
    Binder.Ends (Binder.missing declared stage n.name type) b (w.lookedUp l)
      (fun _ b' w' => ∃ new seats, Seats [n] b w b' w' new seats) fun _ _ _ => True := by
  have nowhere : n.slot? none = none := by
    unfold NamedToken.asks at asks
    unfold NamedToken.slot?
    cases kind : n.token.kind with
    | vertexAttribute a =>
      cases target : a.options.target <;> simp_all
    | scope name => rfl
    | _ => rfl
  refine ⟨[.lookup l (w.located l)], [], Seats.unseated rfl (by simp) ?_ ?_ ?_ rfl rfl rfl fun _ => id⟩
  · simp [Event.deletes?]
  · simp [lookups, Event.lookup?, asked, asks]
  · simp [lookups, Event.lookup?, samplerUses, slots, NamedToken.bound, asks, unlocated, nowhere]

/-- The commands that fill a buffer choose no texture and delete nothing. -/
theorem plain_of_mem_fill {vertexArray buffer : Handle} {target : BufferTarget} {data : List UInt8}
    {pointers : List (Location × VertexLayout)} {c : Command}
    (member : c ∈ Binder.fill vertexArray target buffer data
      (pointers.map fun p => .vertexPointer p.1 p.2)) :
    c.deletes? = none ∧ (Event.command c).isSeating = false := by
  simp only [Binder.fill, List.mem_append, List.mem_cons, List.mem_map, List.not_mem_nil,
    or_false] at member
  rcases member with (rfl | rfl | rfl) | ⟨p, _, rfl⟩ | rfl <;> exact ⟨rfl, rfl⟩

/-- Filling a new buffer takes no seat, whatever is noted down after it. -/
theorem seats_uploadBuffer {ns : List NamedToken} {answer : List Event} {b₁ : Bindings} {w₁ : World δ}
    {target : BufferTarget} {data : List UInt8} (pointers : List (Location × VertexLayout))
    (note : Handle → Bindings → Bindings) (start : Seats ns b w b₁ w₁ answer [])
    (program : ∀ h b, (note h b).program = b.program)
    (objects : ∀ h b, (note h b).objects = b.objects)
    (nextUnit : ∀ h b, (note h b).nextUnit = b.nextUnit)
    (latest : ∀ h earlier b, LatestSeat earlier b.queue.entries →
      LatestSeat earlier (note h b).queue.entries) :
    Binder.Ends (Binder.uploadBuffer target data (pointers.map fun p => .vertexPointer p.1 p.2)) b₁ w₁
      (fun h b' w' => ∃ new seats, Seats ns b w (note h b') w' new seats) fun _ _ _ => True := by
  rw [Binder.ends_uploadBuffer]
  refine ⟨?_, fun _ _ => trivial⟩
  intro buffer granted
  have filled : Seats [] b₁ w₁ (note buffer { b₁ with objects := b₁.objects ++ [.buffer buffer] })
      ((w₁.allocated .buffer).performAll (Binder.fill b₁.vertexArray target buffer data
        (pointers.map fun p => .vertexPointer p.1 p.2)))
      (.allocation .buffer (.ok buffer) :: (Binder.fill b₁.vertexArray target buffer data
        (pointers.map fun p => .vertexPointer p.1 p.2)).map .command) [] := by
    refine Seats.unseated (program _ _) ?_ ?_ ?_ rfl ?_ ?_ (nextUnit _ _) fun earlier last =>
      latest _ earlier _ last
    · rw [World.events_performAll, World.emit_events, granted, List.append_assoc]
      rfl
    · simp only [List.mem_cons, List.mem_map]
      rintro e (rfl | ⟨c, member, rfl⟩)
      · rfl
      · exact (plain_of_mem_fill member).1
    · simp [lookups, Event.lookup?, asked]
    · simp only [List.filter_eq_nil_iff, List.mem_cons, List.mem_map]
      rintro e (rfl | ⟨c, member, rfl⟩)
      · simp [Event.isSeating]
      · simp [(plain_of_mem_fill member).2]
    · simp [Bindings.textures, objects, BoundObject.object]
  have whole := start.trans filled
  rw [List.append_nil] at whole
  exact ⟨_, _, whole⟩

theorem seats_bindAttribute {stage : ShaderStage} {a : AttributeToken}
    (kind : n.token.kind = .vertexAttribute a) (target : a.options.target = .array) :
    Binder.Ends (Binder.bindAttribute declared stage n.name a) b w
      (fun _ b' w' => ∃ new seats, Seats [n] b w b' w' new seats) fun _ _ _ => True := by
  have asks : n.asks b.program = some (.attributeLocation b.program n.name) := by
    simp [NamedToken.asks, kind, target]
  have type : n.token.type = .vertexAttribute := by simp [Token.type, kind, TokenKind.type]
  rw [Binder.ends_bindAttribute]
  dsimp only
  cases located : w.located (.attributeLocation b.program n.name) with
  | none => exact seats_missing asks located
  | some location =>
    have start : Seats [n] b w { b with modes := b.modes ++ a.options.mode.toList }
        ((w.lookedUp (.attributeLocation b.program n.name)).looked a.value)
        [.lookup (.attributeLocation b.program n.name) (some location)] [] := by
      refine Seats.unseated rfl ?_ ?_ ?_ ?_ rfl rfl rfl fun _ => id
      · simp [located]
      · simp [Event.deletes?]
      · simp [lookups, Event.lookup?, asked, asks]
      · simp [samplerUses, slots, NamedToken.bound, type]
    exact seats_uploadBuffer [(location, _)] (fun h b => { b with queue := _ }) start (fun _ _ => rfl)
      (fun _ _ => rfl) (fun _ _ => rfl) fun _ _ _ latest => latest.register (by simp)

theorem seats_bindElements {a : AttributeToken} :
    Binder.Ends (Binder.bindElements a) b w (fun _ b' w' => ∃ new seats, Seats [] b w b' w' new seats)
      fun _ _ _ => True := by
  have start : Seats [] b w b (w.looked a.value) [] [] :=
    Seats.unseated rfl (by simp) (by simp) rfl rfl rfl rfl rfl fun _ => id
  rw [Binder.ends_bindElements]
  dsimp only
  cases IndexType.ofElement? (w.see a.value).kind with
  | none => exact ⟨[], [], start⟩
  | some type =>
    exact seats_uploadBuffer [] (fun h b => { b with elements := _, queue := _ }) start (fun _ _ => rfl)
      (fun _ _ => rfl) (fun _ _ => rfl) fun _ _ _ latest => latest.register (by simp)

theorem seats_bindUniform {stage : ShaderStage} {u : UniformToken} (kind : n.token.kind = .uniform u) :
    Binder.Ends (Binder.bindUniform declared stage n.name u) b w
      (fun _ b' w' => ∃ new seats, Seats [n] b w b' w' new seats) fun _ _ _ => True := by
  have asks : n.asks b.program = some (.uniformLocation b.program n.name) := by
    simp [NamedToken.asks, kind]
  have type : n.token.type = .uniform := by simp [Token.type, kind, TokenKind.type]
  rw [Binder.ends_bindUniform]
  dsimp only
  cases located : w.located (.uniformLocation b.program n.name) with
  | none => exact seats_missing asks located
  | some location =>
    refine ⟨[.lookup (.uniformLocation b.program n.name) (some location)], [],
      Seats.unseated rfl ?_ ?_ ?_ ?_ rfl rfl rfl fun _ latest => latest.register (by simp)⟩
    · simp [located]
    · simp [Event.deletes?]
    · simp [lookups, Event.lookup?, asked, asks]
    · simp [samplerUses, slots, NamedToken.bound, type]

/-- A sampler whose name has a location takes the next seat. -/
theorem seats_bindSampler {redraw : RedrawKey} {stage : ShaderStage} {k : SamplerToken}
    (kind : n.token.kind = .sampler k) :
    Binder.Ends (Binder.bindSampler declared redraw stage n.name k) b w
      (fun _ b' w' => ∃ new seats, Seats [n] b w b' w' new seats) fun _ _ _ => True := by
  let l := Lookup.uniformLocation b.program n.name
  have asks : n.asks b.program = some l := by simp [NamedToken.asks, kind, l]
  have type : n.token.type = .sampler2D := by simp [Token.type, kind, TokenKind.type]
  rw [Binder.ends_bindSampler]
  dsimp only
  cases located : w.located (.uniformLocation b.program n.name) with
  | none => exact seats_missing asks located
  | some location =>
    refine ⟨?_, fun _ _ => trivial⟩
    intro texture granted
    let s : Seat := ⟨.uniform location, n.token, k, kind, texture, b.nextUnit⟩
    -- what the sampler shows and whom it listens to is no matter for its seat
    have seated {handles : List Handle} {w' : World δ}
        (events : w'.events = (((w.lookedUp l).allocated .texture).performAll
          (Binder.seat b.nextUnit texture k.options.parameters)).events) :
        ∃ new seats, Seats [n] b w (Binder.withSampler k redraw location texture handles b) w' new
          seats := by
      refine ⟨.lookup l (some location) :: s.calls, [s], ?_⟩
      constructor
      · rfl
      · rw [events, World.events_performAll, World.emit_events, World.emit_events, granted, located]
        simp [Seat.calls, s]
      · simp [Seat.calls, Binder.seat, Event.deletes?, Command.deletes?]
      · simp [Seat.calls, lookups, Event.lookup?, asked, asks]
      · simp [Seat.use, Seat.calls, lookups, Event.lookup?, samplerUses, slots, NamedToken.bound, asks,
          NamedToken.slot?, kind, type, s]
      · simp [Seat.calls, Binder.seat, Event.isSeating]
      · simp [Bindings.textures, Binder.withSampler, BoundObject.object, Seat.object, s]
      · simp [s]
      · rfl
      · exact fun earlier latest => latest.extend (x := s) rfl ⟨rfl, rfl, rfl, rfl⟩
    cases (((w.lookedUp l).allocated .texture).performAll
        (Binder.seat b.nextUnit texture k.options.parameters)).see k.value with
    | pixels data => exact seated rfl
    | surface id =>
      obtain ⟨handles, same | ⟨subscription, _, added⟩⟩ := SamplerUpdate.run_subscribe redraw id []
        ((((w.lookedUp l).allocated .texture).performAll
          (Binder.seat b.nextUnit texture k.options.parameters)).looked k.value)
      · exact seated (congrArg (fun answer => answer.2.events) same)
      · exact seated ((congrArg (fun answer => answer.2.events) added).trans World.listen_events)

/-- The kind of a token decides whether it takes a seat. -/
theorem seats_bindToken {redraw : RedrawKey} {stage : ShaderStage} :
    Binder.Ends (Binder.bindToken declared redraw stage n) b w
      (fun _ b' w' => ∃ new seats, Seats [n] b w b' w' new seats) fun _ _ _ => True := by
  unfold Binder.bindToken
  cases kind : n.token.kind with
  | vertexAttribute a =>
    dsimp only
    cases target : a.options.target with
    | array => exact seats_bindAttribute kind target
    | elementArray =>
      have silent : n.asks b.program = none := by simp [NamedToken.asks, kind, target]
      refine seats_bindElements.imp ?_ fun _ _ _ _ => trivial
      rintro _ b' w' ⟨new, seats, seated⟩
      exact ⟨new, seats, seated.of_silent silent (by simp [Token.type, kind, TokenKind.type])⟩
  | uniform u => exact seats_bindUniform kind
  | sampler k => exact seats_bindSampler kind
  | scope name =>
    have silent : n.asks b.program = none := by simp [NamedToken.asks, kind]
    exact ⟨[], [], (Seats.refl b w).of_silent silent (by simp [Token.type, kind, TokenKind.type])⟩

theorem seats_bindShader {redraw : RedrawKey} {stage : ShaderStage} {shader : CompiledShader} :
    Binder.Ends (Binder.bindShader redraw stage shader) b w
      (fun _ b' w' => ∃ new seats, Seats shader.tokens b w b' w' new seats) fun _ _ _ => True := by
  unfold Binder.bindShader
  refine Binder.ends_forM (fun ns b' w' => ∃ new seats, Seats ns b w b' w' new seats) ?_
    ⟨[], [], Seats.refl b w⟩
  rintro before n after b₁ w₁ _ ⟨new, seats, first⟩
  refine seats_bindToken.imp ?_ fun _ _ _ _ => trivial
  rintro _ b₂ w₂ ⟨more, seats', next⟩
  exact ⟨_, _, first.trans next⟩

/-- An index token takes no seat. -/
theorem seats_bindIndexToken {t : Token} :
    Binder.Ends (Binder.bindIndexToken t) b w
      (fun _ b' w' => ∃ new seats, Seats [] b w b' w' new seats) fun _ _ _ => True := by
  unfold Binder.bindIndexToken
  cases t.kind with
  | vertexAttribute a =>
    dsimp only
    by_cases target : a.options.target = .elementArray
    · rw [if_pos target]
      exact seats_bindElements
    · rw [if_neg target]
      trivial
  | _ => trivial

theorem seats_uploadListed {draw : Draw} {used : Option IndexBuffer} :
    Binder.Ends (Binder.uploadListed draw used) b w
      (fun _ b' w' => ∃ new seats, Seats [] b w b' w' new seats) fun _ _ _ => True := by
  unfold Binder.uploadListed
  split
  · unfold Binder.uploadIndices
    rw [Binder.ends_bind, Binder.ends_discard]
    exact seats_uploadBuffer [] (fun _ b => { b with elements := _ }) (Seats.refl b w) (fun _ _ => rfl)
      (fun _ _ => rfl) (fun _ _ => rfl) fun _ _ _ => id
  · exact ⟨[], [], Seats.refl b w⟩

/-- The tokens of both stages are seated, those of the vertex stage first. -/
theorem seats_bindAll {redraw : RedrawKey} {vertex fragment : CompiledShader}
    {config : ProgramConfig} :
    Binder.Ends (Binder.bindAll redraw vertex fragment config) b w
      (fun _ b' w' => ∃ new seats, Seats (vertex.tokens ++ fragment.tokens) b w b' w' new seats)
      fun _ _ _ => True := by
  have silent {ns : List NamedToken} {b₁ : Bindings} {w₁ : World δ} {m : Binder δ Unit}
      (before : ∃ new seats, Seats ns b w b₁ w₁ new seats)
      (ends : Binder.Ends m b₁ w₁ (fun _ b' w' => ∃ new seats, Seats [] b₁ w₁ b' w' new seats)
        fun _ _ _ => True) :
      Binder.Ends m b₁ w₁ (fun _ b' w' => ∃ new seats, Seats ns b w b' w' new seats)
        fun _ _ _ => True := by
    obtain ⟨new, seats, first⟩ := before
    refine ends.imp ?_ fun _ _ _ _ => trivial
    rintro _ b₂ w₂ ⟨more, seats', next⟩
    have whole := first.trans next
    rw [List.append_nil] at whole
    exact ⟨_, _, whole⟩
  have listed {ns : List NamedToken} {b₁ : Bindings} {w₁ : World δ}
      (before : ∃ new seats, Seats ns b w b₁ w₁ new seats) :
      Binder.Ends (do Binder.uploadListed config.draw (← get).elements) b₁ w₁
        (fun _ b' w' => ∃ new seats, Seats ns b w b' w' new seats) fun _ _ _ => True := by
    rw [Binder.ends_bind, Binder.ends_get]
    exact silent before seats_uploadListed
  unfold Binder.bindAll
  rw [Binder.ends_bind]
  refine seats_bindShader.imp ?_ fun _ _ _ _ => trivial
  rintro _ b₁ w₁ ⟨new₁, seats₁, first⟩
  rw [Binder.ends_bind]
  refine seats_bindShader.imp ?_ fun _ _ _ _ => trivial
  rintro _ b₂ w₂ ⟨new₂, seats₂, second⟩
  have both : ∃ new seats, Seats (vertex.tokens ++ fragment.tokens) b w b₂ w₂ new seats :=
    ⟨_, _, first.trans second⟩
  cases config.indices with
  | none => exact listed both
  | some t =>
    change Binder.Ends (Binder.bindIndexToken t >>= fun _ => _) b₂ w₂ _ _
    rw [Binder.ends_bind]
    exact (silent both seats_bindIndexToken).imp (fun _ _ _ => listed) fun _ _ _ _ => trivial

end Tokens

section Objects

/-- What was made and not deleted is there, beside what was there. -/
theorem foldl_liveAfter_of_kept {objects : Multiset Object} {es : List Event}
    (kept : ∀ e ∈ es, e.deletes? = none) :
    es.foldl liveAfter objects = (es.filterMap Event.creates? : List Object) + objects := by
  induction es generalizing objects with
  | nil => simp
  | cons e es ih =>
    rw [List.foldl_cons, ih fun e member => kept e (List.mem_cons_of_mem _ member)]
    cases creates : e.creates? with
    | some o =>
      rw [liveAfter_creates creates, List.filterMap_cons_some creates, ← Multiset.cons_coe,
        ← Multiset.singleton_add, add_assoc, add_left_comm]
    | none =>
      rw [liveAfter_other creates (kept e List.mem_cons_self), List.filterMap_cons_none creates]

/-- As many units as there are words are distinct. -/
theorem nodup_units {k : Nat} (few : k < 2 ^ 32) : ((List.range k).map UInt32.ofNat).Nodup := by
  refine List.nodup_range.map_on ?_
  intro i here j there same
  have numbers := congrArg UInt32.toNat same
  rw [List.mem_range] at here there
  simp only [UInt32.toNat_ofNat'] at numbers
  omega

end Objects

section Templates

variable {program : Handle} {ns : List NamedToken} {answers : List (Lookup × Option Location)}

theorem tokens_slots_sublist :
    ((slots program ns answers).map Prod.snd).Sublist (ns.map NamedToken.token) := by
  induction ns generalizing answers with
  | nil => exact List.Sublist.refl []
  | cons n ns ih =>
    rw [slots, List.map_append, List.map_cons, ← List.singleton_append]
    refine List.Sublist.append ?_ ih
    unfold NamedToken.bound
    dsimp only
    generalize n.slot? _ = slot
    cases slot <;> simp

/-- The samplers of one stage that have a location. -/
def samplersIn (program : Handle) (ns : List NamedToken) (answers : List (Lookup × Option Location)) :
    List Identity :=
  (samplerUses program ns answers).map fun use => use.2.id

/-- A stage uses each of its samplers once. -/
theorem nodup_samplersIn (t : Template) : (samplersIn program t.compile.tokens answers).Nodup := by
  have part : ((samplerUses program t.compile.tokens answers).map Prod.snd).Sublist
      (t.compile.tokens.map NamedToken.token) :=
    (List.filter_sublist.map _).trans tokens_slots_sublist
  have ids := part.map Token.id
  rw [List.map_map, t.tokens_compile] at ids
  exact (nodup_distinctTokens _).sublist ids

end Templates

/-- What a compilation gave to the samplers of a program. -/
structure Program.Seated (vertex fragment : CompiledShader) (new : List Event) (seats : List Seat)
    (p : Program) : Prop where
  /-- One seat for each use of a sampler that has a location, those of the vertex stage first. -/
  uses : seats.map Seat.use = samplerUses p.handle (vertex.tokens ++ fragment.tokens) (lookups new)
  /-- The compilation makes their textures and chooses their units, and no others. -/
  calls : new.filter Event.isSeating = seats.flatMap Seat.calls
  owned : p.bindings.textures = seats.map Seat.object
  units : seats.map Seat.unit = (List.range seats.length).map UInt32.ofNat
  textures_apart : (seats.map Seat.texture).Nodup
  units_apart : (seats.map Seat.unit).Nodup
  /-- The program draws with the last seat at each location. -/
  latest : LatestSeat seats p.bindings.queue.entries
  /-- A sampler has a seat for each stage that uses it. -/
  stages : ∀ id, seats.countP (fun s => s.token.id = id) =
    (if id ∈ samplersIn p.handle vertex.tokens
      ((lookups new).take (asked p.handle vertex.tokens)) then 1 else 0) +
    (if id ∈ samplersIn p.handle fragment.tokens
      ((lookups new).drop (asked p.handle vertex.tokens)) then 1 else 0)

namespace ProgramCache

variable [GraphicsDevice δ] {redraw : RedrawKey} {vertex fragment : CompiledShader}
  {config : ProgramConfig} {w : World δ}

theorem seats_bind {handle : Handle} {owned : Bool} :
    (bind handle owned redraw vertex fragment config).Ends w
      (fun p w' => ∃ vertexArray new seats,
        (w.allocated .vertexArray).events = w.events ++ [.allocation .vertexArray (.ok vertexArray)] ∧
          Seats (vertex.tokens ++ fragment.tokens) { program := handle, vertexArray }
            (w.allocated .vertexArray) p.bindings w' new seats) fun _ _ => True := by
  rw [ends_bind]
  refine ⟨?_, fun _ _ => trivial⟩
  intro vertexArray granted
  refine seats_bindAll.imp ?_ fun _ _ _ _ => trivial
  rintro _ b w' ⟨new, seats, seated⟩
  refine ⟨vertexArray, new, seats, ?_, seated⟩
  rw [World.emit_events, granted]

end ProgramCache

theorem created_calls (seats : List Seat) :
    (seats.flatMap Seat.calls).filterMap Event.creates? = seats.map Seat.object := by
  induction seats with
  | nil => rfl
  | cons s rest ih =>
    rw [List.flatMap_cons, List.filterMap_append, ih]
    rfl

namespace Seats

variable {ns ms : List NamedToken} {b b' : Bindings} {w w' : World δ} {new : List Event}
  {seats : List Seat}

/-- The textures of the seats were made and not deleted since. -/
theorem objects_le_live (seated : Seats ns b w b' w' new seats) :
    (seats.map Seat.object : Multiset Object) ≤ live w'.events := by
  rw [seated.events, live_append, foldl_liveAfter_of_kept seated.kept, ← created_calls, ← seated.calls]
  have part : ((new.filter Event.isSeating).filterMap Event.creates?).Sublist
      (new.filterMap Event.creates?) := List.filter_sublist.filterMap _
  exact le_trans (Multiset.coe_le.mpr part.subperm) (Multiset.le_add_right _ _)

/-- The seated samplers of two stages, one stage after the other. -/
theorem ids (seated : Seats (ns ++ ms) b w b' w' new seats) :
    seats.map (fun s => s.token.id) =
      samplersIn b.program ns ((lookups new).take (asked b.program ns)) ++
        samplersIn b.program ms ((lookups new).drop (asked b.program ns)) := by
  have enough : ((lookups new).take (asked b.program ns)).length = asked b.program ns := by
    rw [List.length_take, seated.answered, asked_append]
    exact Nat.min_eq_left (Nat.le_add_right _ _)
  have uses : samplerUses b.program (ns ++ ms) (lookups new) =
      samplerUses b.program ns ((lookups new).take (asked b.program ns)) ++
        samplerUses b.program ms ((lookups new).drop (asked b.program ns)) := by
    conv_lhs => rw [← List.take_append_drop (asked b.program ns) (lookups new)]
    rw [samplerUses, slots_append enough, List.filter_append]
    rfl
  have named := congrArg (List.map fun use : BindingSlot × Token => use.2.id) (seated.uses.trans uses)
  rw [List.map_map, List.map_append] at named
  exact named

end Seats

/-- The seats of a new program. -/
theorem Seats.seated {vertex fragment : Template} {handle vertexArray : Handle} {w w' : World δ}
    {p : Program} {setup new : List Event} {seats : List Seat}
    (seated : Seats (vertex.compile.tokens ++ fragment.compile.tokens)
      { program := handle, vertexArray } w p.bindings w' new seats)
    (silent : lookups setup = []) (unseated : setup.filter Event.isSeating = [])
    (minting : Minting w'.events) (words : WordNames w'.events) :
    p.Seated vertex.compile fragment.compile (setup ++ new) seats := by
  have program : p.handle = handle := seated.program
  have answers : lookups (setup ++ new) = lookups new := by rw [lookups_append, silent, List.nil_append]
  have distinct : (seats.map Seat.object).Nodup :=
    Multiset.coe_nodup.mp (Multiset.nodup_of_le seated.objects_le_live (nodup_live minting))
  have few : seats.length < 2 ^ 32 := by
    have few := length_textures_lt minting words seated.objects_le_live (by simp [Seat.object])
    rwa [List.length_map] at few
  have units : seats.map Seat.unit = (List.range seats.length).map UInt32.ofNat := by
    simpa using seated.units
  constructor
  · rw [answers, program]
    exact seated.uses
  · rw [List.filter_append, unseated, List.nil_append, seated.calls]
  · exact seated.textures
  · exact units
  · refine List.Nodup.of_map (fun h : Handle => (⟨.texture, h⟩ : Object)) ?_
    rw [List.map_map]
    exact distinct
  · rw [units]
    exact nodup_units few
  · exact seated.latest [] Latest.nil
  · intro id
    have count : seats.countP (fun s => s.token.id = id) = (seats.map fun s => s.token.id).count id := by
      rw [List.count, List.countP_map]
      simp [Function.comp_def, beq_eq_decide]
    rw [answers, count, seated.ids, List.count_append, program, (nodup_samplersIn vertex).count,
      (nodup_samplersIn fragment).count]

/-- A compilation seats every use of a sampler once. -/
theorem compile_seats_samplers [GraphicsDevice δ] {cache cache' : ProgramCache} {redraw : RedrawKey}
    {vertex fragment : Template} {config : ProgramConfig} {w w' : World δ} {p : Program}
    (compiled : (cache.compile redraw vertex.compile fragment.compile config).run w =
      ((.ok p, cache'), w'))
    (minting : Minting w'.events) (words : WordNames w'.events) :
    ∃ new seats, w'.events = w.events ++ new ∧
      p.Seated vertex.compile fragment.compile new seats := by
  obtain ⟨handle, owned, start, linked, built⟩ := ProgramCache.exists_bind_of_compile compiled
  obtain ⟨vertexArray, new, seats, allocated, seated⟩ := ProgramCache.seats_bind.of_ok built
  obtain ⟨setup, before, silent, unseated⟩ : ∃ setup, start.events = w.events ++ setup ∧
      lookups setup = [] ∧ setup.filter Event.isSeating = [] := by
    rcases linked with rfl | rfl
    · exact ⟨[], by simp, rfl, rfl⟩
    · exact ⟨_, World.emit_events, rfl, rfl⟩
  rw [before, List.append_assoc] at allocated
  have quiet : lookups (setup ++ [.allocation .vertexArray (.ok vertexArray)]) = [] := by
    rw [lookups_append, silent]
    rfl
  have seatless : (setup ++ [Event.allocation .vertexArray (.ok vertexArray)]).filter Event.isSeating = [] := by
    rw [List.filter_append, unseated]
    rfl
  refine ⟨_, seats, ?_, seated.seated quiet seatless minting words⟩
  rw [seated.events, allocated, List.append_assoc]

section Shared

/-- A sampler that both stages use under one name. -/
def sharedSampler : NamedToken :=
  ⟨"u_0", 7, .sampler ⟨pure (.pixels ⟨8, .u8, [0, 0, 0, 0]⟩), {}⟩⟩

def sharingTemplates : Template × Template :=
  let body (before after : String) : TemplateBody :=
    .token before sharedSampler.token (.text after)
  (⟨0, body "void main fold(" ");"⟩, ⟨1, body "void main blur(" ");"⟩)

def sharing : (Except RenderError Program × ProgramCache) × World RecordingDevice :=
  StateT.run (ProgramCache.compile {} 0 sharingTemplates.1.compile sharingTemplates.2.compile
    { draw := .arrays 0 3 }) ({ device := {} } : World RecordingDevice)

/-- The program has two textures for its only sampler, took the units 0 and 1, and draws with 1. -/
theorem shared_sampler_seated_twice :
    ((sharingTemplates.1.compile.tokens ++ sharingTemplates.2.compile.tokens).map
      fun n => (n.token.id, n.name)) = [(7, "u_0"), (7, "u_0")] ∧
    sharing.1.1.toOption.map (fun p => (p.bindings.textures.length,
      p.bindings.queue.entries.map fun e => (e.1, e.2.unit?))) = some (2, [(.uniform 0, some 1)]) ∧
    (sharing.2.events.filterMap fun
      | .command (.activeTexture unit) => some unit
      | _ => none) = [0, 1] := by decide +kernel

/-- Both of its uses have a seat. -/
theorem sharing_seats_uses : ∃ p new seats, sharing.1.1 = .ok p ∧
    Minting sharing.2.events ∧ WordNames sharing.2.events ∧ sharing.2.events = new ∧
      p.Seated sharingTemplates.1.compile sharingTemplates.2.compile new seats := by
  obtain ⟨succeeds, minting, words⟩ : sharing.1.1.toOption.isSome ∧ Minting sharing.2.events ∧
    WordNames sharing.2.events := by decide +kernel
  generalize built : sharing = answer at succeeds minting words ⊢
  obtain ⟨⟨e | p, cache⟩, w⟩ := answer
  · simp [Except.toOption] at succeeds
  · obtain ⟨new, seats, events, seated⟩ := compile_seats_samplers built minting words
    exact ⟨p, new, seats, rfl, minting, words, events, seated⟩

end Shared

end ShaderStack

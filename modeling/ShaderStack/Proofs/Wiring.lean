import ShaderStack.Proofs.Filling
import ShaderStack.Proofs.Frames

/-! What binding makes of a program's tokens.

Each token that finds its input gets one update with an object, a unit and cells of its own, and its
first value is uploaded. Whatever else was bound before stays as it was. -/
namespace ShaderStack

open World (Extends Emits Kept Spares)

variable {δ : Type} {w w' : World δ} {m : Moment} {b b' : Bindings}
  {bound : List (BindingSlot × Token)} {t : Token} {u : Update}

/-- The textures that binding has allocated. -/
def Bindings.textures (b : Bindings) : List Object :=
  (b.objects.map BoundObject.object).filter fun o => o.kind = .texture

/-- The state of the bindings and of the device between two tokens. Index data of a kind that cannot be
drawn bind nothing, so that only in a calm moment each slot is served. -/
structure Wires (m : Moment) (bound : List (BindingSlot × Token)) (b : Bindings) (w : World δ) :
    Prop where
  free : w.graphics.vertexArray = none
  reaches : ∃ seen, m.Reaches seen w.host
  serves : m.Calm → Serves b.queue.entries bound
  distinct : (b.queue.entries.map Prod.fst).Nodup
  placed : ∀ e ∈ b.queue.entries, e.2.slot = e.1
  carries : ∀ e ∈ b.queue.entries, ∃ t ∈ m.tokens, e.2.Carries t
  owned : ∀ e ∈ b.queue.entries, ∀ o ∈ e.2.object?, o ∈ b.owns
  counted : b.nextUnit = UInt32.ofNat b.textures.length
  seated : ∀ e ∈ b.queue.entries, ∀ n ∈ e.2.unit?, n.toNat < b.textures.length
  apart : UpdateQueue.Apart b.program b.vertexArray b.queue.entries
  settled : ∀ e ∈ b.queue.entries, e.2.Settled b.vertexArray w.graphics b.elements

/-- An update is registered for a token, with an object and a unit that are new. -/
structure Registers (m : Moment) (u : Update) (t : Token) (b b' : Bindings) (w w' : World δ) :
    Prop where
  carried : u.Carries t
  known : t ∈ m.tokens
  program : b'.program = b.program
  array : b'.vertexArray = b.vertexArray
  queue : b'.queue.entries = assign u.slot u b.queue.entries
  owns : b'.owns = (u.object?.toList : Multiset Object) + b.owns
  fresh : ∀ o ∈ u.object?, o ∉ b.owns
  counted : b'.nextUnit = UInt32.ofNat b'.textures.length
  grown : b'.textures.length = b.textures.length + u.unit?.toList.length
  unit : ∀ n ∈ u.unit?, n.toNat = b.textures.length
  free : w'.graphics.vertexArray = none
  reaches : ∃ seen, m.Reaches seen w'.host
  settled : u.Settled b.vertexArray w'.graphics b'.elements
  elements : u.slot ≠ .elements → b'.elements = b.elements
  same : ∀ (c : Cell) (o : Object), c.object? = some o → o ∈ b.owns → c ∉ u.stores b.vertexArray →
    c.Same w.graphics w'.graphics

namespace Wires

/-- The other updates come through, and so does the new one. -/
theorem register (wires : Wires m bound b w) (new : Registers m u t b b' w w') :
    Wires m (bound ++ [(u.slot, t)]) b' w' := by
  have cases (e : BindingSlot × Update) (member : e ∈ b'.queue.entries) :
      e = (u.slot, u) ∨ e ∈ b.queue.entries ∧ e.1 ≠ u.slot := by
    rw [new.queue] at member
    exact mem_assign wires.distinct member
  have apart (e : BindingSlot × Update) (member : e ∈ b.queue.entries) (other : e.1 ≠ u.slot) :
      (u.cells b.program b.vertexArray).Disjoint (e.2.cells b.program b.vertexArray) := by
    refine Update.disjoint_cells ?_ ?_ ?_
    · rw [wires.placed e member]
      exact other.symm
    · intro o theirs mine
      exact new.fresh o mine (wires.owned e member o theirs)
    · intro n theirs mine
      have small := wires.seated e member n theirs
      rw [new.unit n mine] at small
      exact Nat.lt_irrefl _ small
  constructor
  · exact new.free
  · exact new.reaches
  · rw [new.queue]
    exact fun calm => (wires.serves calm).register rfl new.carried
  · rw [new.queue]
    exact nodup_assign wires.distinct
  · intro e member
    rcases cases e member with rfl | ⟨there, _⟩
    · rfl
    · exact wires.placed e there
  · intro e member
    rcases cases e member with rfl | ⟨there, _⟩
    · exact ⟨t, new.known, new.carried⟩
    · exact wires.carries e there
  · intro e member o mine
    rw [new.owns]
    rcases cases e member with rfl | ⟨there, _⟩
    · exact Multiset.mem_add.mpr (.inl (by simpa using mine))
    · exact Multiset.mem_add.mpr (.inr (wires.owned e there o mine))
  · exact new.counted
  · intro e member n seat
    rw [new.grown]
    rcases cases e member with rfl | ⟨there, _⟩
    · have one : u.unit? = some n := seat
      rw [new.unit n seat, one]
      simp
    · have small := wires.seated e there n seat
      omega
  · rw [new.queue, new.program, new.array]
    refine pairwise_assign (fun e f => List.Disjoint.symm) wires.distinct wires.apart ?_
    intro e member other
    exact apart e member other
  · intro e member
    rw [new.array]
    rcases cases e member with rfl | ⟨there, other⟩
    · exact new.settled
    · refine (wires.settled e there).keep ?_ ?_
      · intro c stored
        have outside : c ∉ u.stores b.vertexArray := fun mine =>
          apart e there other (List.mem_append_left _ mine) (List.mem_append_left _ stored)
        rcases Update.object_of_stores stored with part | ⟨o, theirs, part⟩
        · exact new.same c _ part (by simp [Bindings.owns]) outside
        · exact new.same c o part (wires.owned e there o theirs) outside
      · intro elements
        refine new.elements ?_
        rw [← elements, wires.placed e there]
        exact other.symm

/-- What changes neither the device nor the queue keeps everything wired. -/
theorem silent (wires : Wires m bound b w) (graphics : w'.graphics = w.graphics)
    (reaches : ∃ seen, m.Reaches seen w'.host) (program : b'.program = b.program)
    (array : b'.vertexArray = b.vertexArray) (queue : b'.queue = b.queue)
    (objects : b'.objects = b.objects) (nextUnit : b'.nextUnit = b.nextUnit)
    (elements : b'.elements = b.elements) : Wires m bound b' w' := by
  obtain ⟨free, _, serves, distinct, placed, carries, owned, counted, seated, apart, settled⟩ := wires
  have owns : b'.owns = b.owns := by simp [Bindings.owns, objects, array]
  have textures : b'.textures = b.textures := by simp [Bindings.textures, objects]
  constructor
  · rwa [graphics]
  · exact reaches
  all_goals simpa only [owns, textures, program, array, queue, nextUnit, elements, graphics]

end Wires

/-- Everything is wired up, as long as the context names its objects as it should. -/
def Given (m : Moment) (bound : List (BindingSlot × Token)) (b : Bindings) (w : World δ) : Prop :=
  Minting w.events → WordNames w.events → Wires m bound b w

namespace Given

variable {bound' : List (BindingSlot × Token)}

theorem step (given : Given m bound b w) (run : Emits (fun _ => True) w w')
    (next : Minting w'.events → WordNames w.events → Wires m bound b w → Wires m bound' b' w') :
    Given m bound' b' w' :=
  fun minting words => next minting (run.words words) (given (run.minting minting) (run.words words))

theorem looked {value : Accessor α} (given : Given m bound b w) (known : t ∈ m.tokens)
    (after : t.after w.host = (value.run w.host).2) : Given m bound b (w.looked value) := by
  refine given.step (Emits.silent rfl) ?_
  intro _ _ wires
  obtain ⟨seen, reaches⟩ := wires.reaches
  refine wires.silent rfl ⟨t.arrays w.host ++ seen, ?_⟩ rfl rfl rfl rfl rfl rfl
  rw [World.looked_host, ← after]
  exact .read reaches known

theorem lookedUp [GraphicsDevice δ] {l : Lookup} (given : Given m bound b w) :
    Given m bound b (w.lookedUp l) := by
  refine given.step (Emits.emit trivial) ?_
  intro _ _ wires
  exact wires.silent World.graphics_emit wires.reaches rfl rfl rfl rfl rfl rfl

theorem listen {id : SurfaceId} {s : Subscription} (given : Given m bound b w) :
    Given m bound b (w.listen id s) := by
  refine given.step (Emits.silent World.listen_events) ?_
  intro _ _ wires
  refine wires.silent (World.graphics_of_events World.listen_events) ?_ rfl rfl rfl rfl rfl rfl
  rw [World.listen_host]
  exact wires.reaches

theorem note (given : Given m bound b w) (program : b'.program = b.program)
    (array : b'.vertexArray = b.vertexArray) (queue : b'.queue = b.queue)
    (objects : b'.objects = b.objects) (nextUnit : b'.nextUnit = b.nextUnit)
    (elements : b'.elements = b.elements) : Given m bound b' w :=
  fun minting words => (given minting words).silent rfl (given minting words).reaches program array
    queue objects nextUnit elements

end Given

section Tokens

variable [GraphicsDevice δ] {rest : Multiset Object} {holds : Multiset Nat} {n : NamedToken}

theorem lookups_performAll {cs : List Command} :
    lookups (w.performAll cs).events = lookups w.events := by
  induction cs generalizing w with
  | nil => rfl
  | cons c cs ih =>
    rw [World.performAll_cons, ih, World.emit_events, lookups_append]
    simp [lookups, Event.lookup?]

theorem lookups_lookedUp {l : Lookup} :
    lookups (w.lookedUp l).events = lookups w.events ++ [(l, w.located l)] := by
  rw [World.emit_events, lookups_append]
  rfl

theorem lookups_allocated {a : Allocation} : lookups (w.allocated a).events = lookups w.events := by
  rw [World.emit_events, lookups_append]
  simp [lookups, Event.lookup?]

/-- Binding some tokens got their answers and wired them up. -/
def Wired (m : Moment) (bound : List (BindingSlot × Token)) (ns : List NamedToken)
    (b : Bindings) (w : World δ) (b' : Bindings) (w' : World δ) : Prop :=
  ∃ answers, lookups w'.events = lookups w.events ++ answers ∧
    answers.length = asked b.program ns ∧ Given m (bound ++ slots b.program ns answers) b' w'

theorem not_mem_of_granted {a : Allocation} {h : Handle} (kept : Kept (b.owns + rest) holds w)
    (granted : w.granted a = .ok h) (minting : Minting (w.allocated a).events) :
    (⟨a.kind, h⟩ : Object) ∉ b.owns := fun mine =>
  kept.fresh granted minting (Multiset.mem_add.mpr (.inr (Multiset.mem_add.mpr (.inl mine))))

/-- What the program owns already is spared when a new buffer is filled for it. -/
theorem same_uploaded {buffer : Handle} {target : BufferTarget} {data : List UInt8}
    {pointers : List (Location × VertexLayout)} (kept : Kept (b.owns + rest) holds w)
    (granted : w.granted .buffer = .ok buffer) (minting : Minting (w.allocated .buffer).events)
    {c : Cell} {o : Object} (part : c.object? = some o) (mine : o ∈ b.owns)
    (indices : target = .elementArray → c ≠ .elementArray (some b.vertexArray))
    (others : ∀ p ∈ pointers, c ≠ .pointer (some b.vertexArray) p.1) :
    c.Same w.graphics ((w.allocated .buffer).performAll
      (filled b.vertexArray target buffer data pointers)).graphics := by
  have old : c.object? ≠ some ⟨.buffer, buffer⟩ := by
    rw [part]
    rintro new
    exact not_mem_of_granted kept granted minting (Option.some.inj new ▸ mine)
  rw [World.graphics_performAll]
  refine (World.same_allocated granted old).trans (same_filled ?_ indices others)
  rintro rfl
  exact old rfl

/-- A buffer that is filled for an update. -/
theorem registers_filled {buffer : Handle} {target : BufferTarget} {data : List UInt8}
    {pointers : List (Location × VertexLayout)} (kept : Kept (b.owns + rest) holds w)
    (granted : w.granted .buffer = .ok buffer)
    (minting : Minting (w.allocated .buffer).events) (wires : Wires m bound b w)
    (carried : u.Carries t) (known : t ∈ m.tokens) (object : u.object? = some ⟨.buffer, buffer⟩)
    (program : b'.program = b.program) (array : b'.vertexArray = b.vertexArray)
    (queue : b'.queue.entries = assign u.slot u b.queue.entries)
    (objects : b'.objects = b.objects ++ [.buffer buffer]) (nextUnit : b'.nextUnit = b.nextUnit)
    (elements : u.slot ≠ .elements → b'.elements = b.elements)
    (settled : u.Settled b.vertexArray ((w.allocated .buffer).graphics.afterAll
      (filled b.vertexArray target buffer data pointers)) b'.elements)
    (indices : target = .elementArray →
      .elementArray (some b.vertexArray) ∈ u.stores b.vertexArray)
    (others : ∀ p ∈ pointers,
      .pointer (some b.vertexArray) p.1 ∈ u.stores b.vertexArray) :
    Registers m u t b b' w ((w.allocated .buffer).performAll
      (filled b.vertexArray target buffer data pointers)) := by
  have unseated : u.unit? = none := by
    cases u <;> simp_all [Update.object?, Update.unit?]
  have textures : b'.textures = b.textures := by
    simp [Bindings.textures, objects, BoundObject.object]
  have owns : b'.owns = Bindings.owns { b with objects := b.objects ++ [.buffer buffer] } := by
    simp [Bindings.owns, objects, array]
  constructor
  · exact carried
  · exact known
  · exact program
  · exact array
  · exact queue
  · rw [owns, Bindings.owns_append, object]
    rfl
  · intro o mine
    obtain rfl : ⟨.buffer, buffer⟩ = o := Option.some.inj (object.symm.trans mine)
    exact not_mem_of_granted kept granted minting
  · rw [nextUnit, textures]
    exact wires.counted
  · rw [textures, unseated]
    rfl
  · simp [unseated]
  · rw [World.graphics_performAll]
    exact vertexArray_filled
  · rw [World.performAll_host]
    exact wires.reaches
  · rw [World.graphics_performAll]
    exact settled
  · exact elements
  · intro c o part mine outside
    refine same_uploaded kept granted minting part mine ?_ ?_
    · rintro elementArray rfl
      exact outside (indices elementArray)
    · rintro p member rfl
      exact outside (others p member)

/-- An update whose buffer was filled is wired up. -/
theorem Given.uploaded {buffer : Handle} (given : Given m bound b w) (u : Update)
    (target : BufferTarget) (data : List UInt8) (pointers : List (Location × VertexLayout))
    (kept : Kept (b.owns + rest) holds w) (granted : w.granted .buffer = .ok buffer)
    (carried : u.Carries t) (known : t ∈ m.tokens) (object : u.object? = some ⟨.buffer, buffer⟩)
    (program : b'.program = b.program) (array : b'.vertexArray = b.vertexArray)
    (queue : b'.queue.entries = assign u.slot u b.queue.entries)
    (objects : b'.objects = b.objects ++ [.buffer buffer]) (nextUnit : b'.nextUnit = b.nextUnit)
    (elements : u.slot ≠ .elements → b'.elements = b.elements)
    (settled : u.Settled b.vertexArray ((w.allocated .buffer).graphics.afterAll
      (filled b.vertexArray target buffer data pointers)) b'.elements)
    (indices : target = .elementArray →
      .elementArray (some b.vertexArray) ∈ u.stores b.vertexArray)
    (others : ∀ p ∈ pointers,
      .pointer (some b.vertexArray) p.1 ∈ u.stores b.vertexArray) :
    Given m (bound ++ [(u.slot, t)]) b' ((w.allocated .buffer).performAll
      (filled b.vertexArray target buffer data pointers)) := by
  have filling : Emits (fun _ => True) (w.allocated .buffer) ((w.allocated .buffer).performAll
      (filled b.vertexArray target buffer data pointers)) := Emits.performAll fun _ _ => trivial
  have granting : Emits (fun _ => True) w (w.allocated .buffer) := Emits.emit trivial
  refine given.step (granting.trans filling) ?_
  intro minting _ wires
  exact wires.register (registers_filled kept granted (filling.minting minting) wires carried known
    object program array queue objects nextUnit elements settled indices others)

/-- A token without an input is left out. -/
theorem wired_missing {l : Lookup} (given : Given m bound b w) (asks : n.asks b.program = some l)
    (slotless : n.slot? none = none) (missing : w.located l = none)
    {entries : List MissingBinding} :
    Wired m bound [n] b w { b with missing := entries } (w.lookedUp l) := by
  refine ⟨[(l, none)], ?_, ?_, ?_⟩
  · rw [lookups_lookedUp, missing]
  · simp [asked, asks]
  · have none : slots b.program [n] [(l, none)] = [] := by
      simp [slots, NamedToken.bound, slotless]
    rw [none, List.append_nil]
    exact given.lookedUp.note rfl rfl rfl rfl rfl rfl

theorem wired_bindAttribute {declared : List String} {stage : ShaderStage} {a : AttributeToken}
    (given : Given m bound b w) (kept : Kept (b.owns + rest) holds w) (known : n.token ∈ m.tokens)
    (kind : n.token.kind = .vertexAttribute a) (target : a.options.target = .array) :
    Binder.Ends (Binder.bindAttribute declared stage n.name a) b w
      (fun _ b' w' => Wired m bound [n] b w b' w') fun _ _ _ => True := by
  have asks : n.asks b.program = some (.attributeLocation b.program n.name) := by
    simp [NamedToken.asks, kind, target]
  rw [Binder.ends_bindAttribute]
  dsimp only
  cases located : w.located (.attributeLocation b.program n.name) with
  | none =>
    dsimp only
    obtain ⟨entry, ends⟩ := Binder.ends_missing declared stage n.name .vertexAttribute b
      (w.lookedUp (.attributeLocation b.program n.name))
    rw [ends]
    exact wired_missing given asks (by simp [NamedToken.slot?, kind, target]) located
  | some location =>
    dsimp only
    rw [Binder.ends_uploadBuffer]
    refine ⟨?_, fun _ _ => trivial⟩
    intro buffer granted
    refine ⟨[(.attributeLocation b.program n.name, some location)], ?_, ?_, ?_⟩
    · rw [lookups_performAll, lookups_allocated, World.looked_events, lookups_lookedUp, located]
    · simp [asked, asks]
    · have slot : slots b.program [n] [(.attributeLocation b.program n.name, some location)] =
          [(.vertexAttribute location, n.token)] := by
        simp [slots, NamedToken.bound, NamedToken.slot?, asks, kind, target]
      have read : Given m bound b ((w.lookedUp (.attributeLocation b.program n.name)).looked a.value) :=
        given.lookedUp.looked known (by simp [Token.after, kind])
      have kept' : Kept (b.owns + rest) holds
          ((w.lookedUp (.attributeLocation b.program n.name)).looked a.value) :=
        kept.lookedUp.frame Extends.looked
      generalize (w.lookedUp (.attributeLocation b.program n.name)).see a.value = data
      rw [slot]
      refine read.uploaded
        (.attributes { location, buffer, type := a.type, value := a.value, uploaded := data })
        .array data.bytes
        [(location, ⟨Int32.ofNat a.type.components, data.kind, a.type.keepsIntegers⟩)] kept' granted ?_
        known rfl rfl rfl rfl rfl rfl (fun _ => rfl) ?_ (by simp) ?_
      · exact ⟨a, kind, target, rfl, rfl⟩
      · exact graphics_filled_array
      · simp [Update.stores]

/-- In a calm moment index data always bind. -/
theorem given_bindElements {a : AttributeToken} (given : Given m bound b w)
    (kept : Kept (b.owns + rest) holds w) (known : t ∈ m.tokens)
    (kind : t.kind = .vertexAttribute a) (target : a.options.target = .elementArray) :
    Binder.Ends (Binder.bindElements a) b w
      (fun _ b' w' => lookups w'.events = lookups w.events ∧
        Given m (bound ++ [(.elements, t)]) b' w') fun _ _ _ => True := by
  rw [Binder.ends_bindElements]
  dsimp only
  cases index : IndexType.ofElement? (w.see a.value).kind with
  | none =>
    refine ⟨rfl, ?_⟩
    have read : Given m bound b (w.looked a.value) := given.looked known (by simp [Token.after, kind])
    intro minting words
    obtain ⟨seen, reaches⟩ := (given minting words).reaches
    refine { read minting words with serves := fun calm => ?_ }
    have fits := calm.fits seen w.host reaches t known
    simp only [Token.Fits, kind, target] at fits
    rw [isOk_checkAttribute_elements] at fits
    have same : (a.value.run w.host).1 = w.see a.value := rfl
    simp [same, index] at fits
  | some type =>
    dsimp only
    rw [Binder.ends_uploadBuffer]
    refine ⟨?_, fun _ _ => trivial⟩
    intro buffer granted
    have read : Given m bound b (w.looked a.value) := given.looked known (by simp [Token.after, kind])
    have kept' : Kept (b.owns + rest) holds (w.looked a.value) := kept.frame Extends.looked
    refine ⟨?_, ?_⟩
    · rw [lookups_performAll, lookups_allocated, World.looked_events]
    · generalize w.see a.value = data at index
      refine read.uploaded (.elements { buffer, value := a.value, uploaded := data }) .elementArray
        data.bytes [] kept' granted ?_ known rfl rfl rfl rfl rfl rfl (fun other => absurd rfl other) ?_ ?_ ?_
      · exact ⟨a, kind, target, rfl⟩
      · obtain ⟨array, bytes⟩ := graphics_filled_elements
        exact ⟨array, bytes, type, IndexType.ofElement_iff.mp index, rfl⟩
      · simp [Update.stores]
      · simp

theorem wired_bindUniform {declared : List String} {stage : ShaderStage} {k : UniformToken}
    (given : Given m bound b w) (known : n.token ∈ m.tokens) (kind : n.token.kind = .uniform k) :
    Binder.Ends (Binder.bindUniform declared stage n.name k) b w
      (fun _ b' w' => Wired m bound [n] b w b' w') fun _ _ _ => True := by
  have asks : n.asks b.program = some (.uniformLocation b.program n.name) := by
    simp [NamedToken.asks, kind]
  rw [Binder.ends_bindUniform]
  dsimp only
  cases located : w.located (.uniformLocation b.program n.name) with
  | none =>
    dsimp only
    obtain ⟨entry, ends⟩ := Binder.ends_missing declared stage n.name .uniform b
      (w.lookedUp (.uniformLocation b.program n.name))
    rw [ends]
    exact wired_missing given asks (by simp [NamedToken.slot?, kind]) located
  | some location =>
    refine ⟨[(.uniformLocation b.program n.name, some location)], ?_, ?_, ?_⟩
    · rw [lookups_lookedUp, located]
    · simp [asked, asks]
    · have slot : slots b.program [n] [(.uniformLocation b.program n.name, some location)] =
          [(.uniform location, n.token)] := by
        simp [slots, NamedToken.bound, NamedToken.slot?, asks, kind]
      rw [slot]
      refine given.lookedUp.step (Emits.refl _) ?_
      intro _ _ wires
      refine wires.register (u := .uniform { location, setter := .forType k.type, value := k.value })
        { carried := ⟨k, kind, rfl, rfl⟩, known, program := rfl, array := rfl, queue := rfl,
          owns := ?_, fresh := by simp [Update.object?], counted := wires.counted, grown := rfl,
          unit := by simp [Update.unit?], free := wires.free, reaches := wires.reaches,
          settled := trivial, elements := fun _ => rfl, same := fun c _ _ _ _ => Cell.Same.refl c _ }
      simp [Update.object?, Bindings.owns]

omit [GraphicsDevice δ] in
theorem length_textures_of_kept (kept : Kept (b.owns + rest) holds w) (minting : Minting w.events)
    (words : WordNames w.events) : b.textures.length < 2 ^ 32 := by
  refine length_textures_lt minting words ?_ ?_
  · have part : (b.textures : Multiset Object) ≤ (b.objects.map BoundObject.object : List Object) :=
      (List.filter_sublist).subperm
    have mine : (b.textures : Multiset Object) ≤ b.owns :=
      part.trans (Multiset.le_add_left _ _)
    rw [kept.accounted.2]
    exact (mine.trans (Multiset.le_add_right _ _)).trans (Multiset.le_add_left _ _)
  · intro o member
    simpa using (List.mem_filter.mp member).2

/-- A sampler's texture gets the next unit. -/
theorem Given.seated {k : SamplerToken} {redraw : RedrawKey} {location : Location} {texture : Handle}
    {subscribed : List Handle} (given : Given m bound b w) (kept : Kept (b.owns + rest) holds w)
    (granted : w.granted .texture = .ok texture) (known : t ∈ m.tokens) (kind : t.kind = .sampler k) :
    Given m (bound ++ [(.uniform location, t)])
      (Binder.withSampler k redraw location texture subscribed b)
      ((w.allocated .texture).performAll (Binder.seat b.nextUnit texture k.options.parameters)) := by
  have seating : Emits (fun _ => True) (w.allocated .texture) ((w.allocated .texture).performAll
      (Binder.seat b.nextUnit texture k.options.parameters)) := Emits.performAll fun _ _ => trivial
  have granting : Emits (fun _ => True) w (w.allocated .texture) := Emits.emit trivial
  refine given.step (granting.trans seating) ?_
  intro minting words wires
  have minted := seating.minting minting
  have few := length_textures_of_kept kept (granting.minting minted) words
  have fresh : (⟨.texture, texture⟩ : Object) ∉ b.owns := not_mem_of_granted kept granted minted
  have grown : (Binder.withSampler k redraw location texture subscribed b).textures.length =
      b.textures.length + 1 := by
    simp [Bindings.textures, Binder.withSampler, BoundObject.object]
  refine wires.register (u := .sampler
      { location, unit := b.nextUnit, texture, options := k.options, value := k.value,
        uploaded := none, subscribed, redraw })
    { carried := ⟨k, kind, rfl, rfl⟩, known, program := rfl, array := rfl, queue := rfl,
      owns := ?_, fresh := ?_, counted := ?_, grown, unit := ?_, free := ?_, reaches := ?_,
      settled := nofun, elements := fun _ => rfl, same := ?_ }
  · exact Bindings.owns_append
  · intro o mine
    obtain rfl : ⟨.texture, texture⟩ = o := Option.some.inj mine
    exact fresh
  · rw [grown, UInt32.ofNat_add, ← wires.counted]
    rfl
  · intro n seat
    obtain rfl : b.nextUnit = n := Option.some.inj seat
    rw [wires.counted]
    exact UInt32.toNat_ofNat_of_lt' few
  · have run : Spares (fun _ => False) w ((w.allocated .texture).performAll
        (Binder.seat b.nextUnit texture k.options.parameters)) :=
      (Spares.allocated fun _ _ => id).trans Spares.seated
    exact run.free wires.free
  · rw [World.performAll_host]
    exact wires.reaches
  · intro c o part mine _
    have old : c.object? ≠ some ⟨.texture, texture⟩ := by
      rw [part]
      rintro new
      exact fresh (Option.some.inj new ▸ mine)
    rw [World.graphics_performAll]
    refine (World.same_allocated granted old).trans (same_seated ?_)
    rintro rfl
    simp [Cell.object?] at part

theorem wired_bindSampler {declared : List String} {redraw : RedrawKey} {stage : ShaderStage}
    {k : SamplerToken} (given : Given m bound b w) (kept : Kept (b.owns + rest) holds w)
    (known : n.token ∈ m.tokens) (kind : n.token.kind = .sampler k) :
    Binder.Ends (Binder.bindSampler declared redraw stage n.name k) b w
      (fun _ b' w' => Wired m bound [n] b w b' w') fun _ _ _ => True := by
  have asks : n.asks b.program = some (.uniformLocation b.program n.name) := by
    simp [NamedToken.asks, kind]
  rw [Binder.ends_bindSampler]
  dsimp only
  cases located : w.located (.uniformLocation b.program n.name) with
  | none =>
    dsimp only
    obtain ⟨entry, ends⟩ := Binder.ends_missing declared stage n.name .sampler2D b
      (w.lookedUp (.uniformLocation b.program n.name))
    rw [ends]
    exact wired_missing given asks (by simp [NamedToken.slot?, kind]) located
  | some location =>
    refine ⟨?_, fun _ _ => trivial⟩
    intro texture granted
    have wired {b' : Bindings} {w' : World δ} (answered : lookups w'.events =
          lookups w.events ++ [(.uniformLocation b.program n.name, some location)])
        (given' : Given m (bound ++ [(.uniform location, n.token)]) b' w') :
        Wired m bound [n] b w b' w' := by
      refine ⟨_, answered, by simp [asked, asks], ?_⟩
      simpa [slots, NamedToken.bound, NamedToken.slot?, asks, kind] using given'
    have answered : lookups (((w.lookedUp (.uniformLocation b.program n.name)).allocated
        .texture).performAll (Binder.seat b.nextUnit texture k.options.parameters)).events =
          lookups w.events ++ [(.uniformLocation b.program n.name, some location)] := by
      rw [lookups_performAll, lookups_allocated, lookups_lookedUp, located]
    have read (subscribed : List Handle) : Given m (bound ++ [(.uniform location, n.token)])
        (Binder.withSampler k redraw location texture subscribed b)
        ((((w.lookedUp (.uniformLocation b.program n.name)).allocated .texture).performAll
          (Binder.seat b.nextUnit texture k.options.parameters)).looked k.value) :=
      (given.lookedUp.seated kept.lookedUp granted known kind).looked known
        (by simp [Token.after, kind])
    generalize ((w.lookedUp (.uniformLocation b.program n.name)).allocated .texture).performAll
      (Binder.seat b.nextUnit texture k.options.parameters) = w₁ at answered read ⊢
    cases w₁.see k.value with
    | pixels data => exact wired answered (read [])
    | surface id =>
      dsimp only
      obtain ⟨handles, same | ⟨s, _, added⟩⟩ :=
        SamplerUpdate.run_subscribe redraw id [] (w₁.looked k.value)
      · rw [same]
        exact wired answered (read handles)
      · rw [added]
        refine wired ?_ (read handles).listen
        rw [World.listen_events]
        exact answered

/-- Every token is wired up or left out. -/
theorem wired_bindToken {declared : List String} {redraw : RedrawKey} {stage : ShaderStage}
    (given : Given m bound b w) (kept : Kept (b.owns + rest) holds w) (known : n.token ∈ m.tokens) :
    Binder.Ends (Binder.bindToken declared redraw stage n) b w
      (fun _ b' w' => Wired m bound [n] b w b' w') fun _ _ _ => True := by
  unfold Binder.bindToken
  cases kind : n.token.kind with
  | vertexAttribute a =>
    dsimp only
    cases target : a.options.target with
    | array => exact wired_bindAttribute given kept known kind target
    | elementArray =>
      refine (given_bindElements given kept known kind target).imp ?_ fun _ _ _ _ => trivial
      rintro _ b' w' ⟨events, given'⟩
      refine ⟨[], by rw [events, List.append_nil], by simp [asked, NamedToken.asks, kind, target], ?_⟩
      simpa [slots, NamedToken.bound, NamedToken.slot?, NamedToken.asks, kind, target] using given'
  | uniform k => exact wired_bindUniform given known kind
  | sampler k => exact wired_bindSampler given kept known kind
  | scope name =>
    refine ⟨[], by rw [List.append_nil], by simp [asked, NamedToken.asks, kind], ?_⟩
    simpa [slots, NamedToken.bound, NamedToken.slot?, NamedToken.asks, kind] using given

/-- The tokens of one stage are wired up after those that were there. -/
theorem wired_bindShader {redraw : RedrawKey} {stage : ShaderStage} {shader : CompiledShader}
    (given : Given m bound b w) (kept : Kept (b.owns + rest) holds w)
    (known : ∀ n ∈ shader.tokens, n.token ∈ m.tokens) :
    Binder.Ends (Binder.bindShader redraw stage shader) b w
      (fun _ b' w' => Binder.Path (b, w) (b', w') ∧ Wired m bound shader.tokens b w b' w')
      fun _ _ _ => True := by
  unfold Binder.bindShader
  refine Binder.ends_forM
    (fun ns b' w' => Binder.Path (b, w) (b', w') ∧ Wired m bound ns b w b' w') ?_ ⟨.refl, ?_⟩
  · rintro before n after b₁ w₁ split ⟨path, answers, events, enough, given₁⟩
    obtain ⟨kept₁, program⟩ := kept.path path
    have member : n ∈ shader.tokens := by simp [split]
    have follows :
        Binder.Follows (Binder.bindToken shader.declaredNames redraw stage n : Binder δ Unit) :=
      Binder.follows_bindToken
    refine ((follows (b, w) b₁ w₁ path).and (wired_bindToken given₁ kept₁ (known n member))).imp ?_
      fun _ _ _ _ => trivial
    rintro _ b₂ w₂ ⟨path₂, more, events₂, enough₂, given₂⟩
    rw [program] at enough₂ given₂
    refine ⟨path₂, answers ++ more, ?_, ?_, ?_⟩
    · rw [events₂, events, List.append_assoc]
    · rw [List.length_append, enough, enough₂, asked_append]
    · rw [slots_append enough, ← List.append_assoc]
      exact given₂
  · exact ⟨[], by simp, rfl, by simpa [slots] using given⟩

omit [GraphicsDevice δ] in
/-- Without indices in use no token gives any. -/
theorem Wires.tokenless (wires : Wires m bound b w) (free : b.elements = none) :
    ∀ e ∈ b.queue.entries, e.2.slot ≠ .elements := by
  intro e member elements
  have settled := wires.settled e member
  cases update : e.2 with
  | elements u =>
    rw [update] at settled
    obtain ⟨_, _, _, _, drawn⟩ := settled
    simp [free] at drawn
  | _ => simp [update, Update.slot] at elements

/-- Listed indices take the element array, which no token has. -/
theorem Given.listed {buffer : Handle} {data : List UInt8} (given : Given m bound b w)
    (kept : Kept (b.owns + rest) holds w) (free : b.elements = none)
    (granted : w.granted .buffer = .ok buffer) (program : b'.program = b.program)
    (array : b'.vertexArray = b.vertexArray) (queue : b'.queue = b.queue)
    (objects : b'.objects = b.objects ++ [.buffer buffer]) (nextUnit : b'.nextUnit = b.nextUnit) :
    Given m bound b' ((w.allocated .buffer).performAll
      (filled b.vertexArray .elementArray buffer data [])) := by
  have filling : Emits (fun _ => True) (w.allocated .buffer) ((w.allocated .buffer).performAll
      (filled b.vertexArray .elementArray buffer data [])) := Emits.performAll fun _ _ => trivial
  have granting : Emits (fun _ => True) w (w.allocated .buffer) := Emits.emit trivial
  refine given.step (granting.trans filling) ?_
  intro minting _ wires
  have minted := filling.minting minting
  have textures : b'.textures = b.textures := by
    simp [Bindings.textures, objects, BoundObject.object]
  have owns : ∀ o ∈ b.owns, o ∈ b'.owns := by
    intro o mine
    have more : b'.owns = Bindings.owns { b with objects := b.objects ++ [.buffer buffer] } := by
      simp [Bindings.owns, objects, array]
    rw [more, Bindings.owns_append]
    exact Multiset.mem_add.mpr (.inr mine)
  have tokenless := wires.tokenless free
  constructor
  · rw [World.graphics_performAll]
    exact vertexArray_filled
  · rw [World.performAll_host]
    exact wires.reaches
  · rw [queue]
    exact wires.serves
  · rw [queue]
    exact wires.distinct
  · rw [queue]
    exact wires.placed
  · rw [queue]
    exact wires.carries
  · rw [queue]
    exact fun e member o mine => owns o (wires.owned e member o mine)
  · rw [nextUnit, textures]
    exact wires.counted
  · rw [queue, textures]
    exact wires.seated
  · rw [queue, program, array]
    exact wires.apart
  · rw [queue, array]
    intro e member
    refine (wires.settled e member).keep ?_ fun elements => absurd elements (tokenless e member)
    intro c stored
    have outside : c ≠ .elementArray (some b.vertexArray) := by
      rintro rfl
      have other := tokenless e member
      cases update : e.2 <;> simp_all [Update.stores, Update.slot]
    obtain ⟨o, mine, part⟩ : ∃ o ∈ b.owns, c.object? = some o := by
      rcases Update.object_of_stores stored with part | ⟨o, theirs, part⟩
      · exact ⟨_, by simp [Bindings.owns], part⟩
      · exact ⟨o, wires.owned e member o theirs, part⟩
    exact same_uploaded kept granted minted part mine (fun _ => outside) (by simp)

theorem given_uploadIndices {indices : List UInt32} (given : Given m bound b w)
    (kept : Kept (b.owns + rest) holds w) (free : b.elements = none) :
    Binder.Ends (Binder.uploadIndices indices) b w
      (fun _ b' w' => lookups w'.events = lookups w.events ∧ Given m bound b' w')
      fun _ _ _ => True := by
  unfold Binder.uploadIndices
  rw [Binder.ends_bind, Binder.ends_discard, Binder.ends_uploadBuffer]
  refine ⟨?_, fun _ _ => trivial⟩
  intro buffer granted
  rw [Binder.ends_modify]
  refine ⟨?_, given.listed kept free granted rfl rfl rfl rfl rfl⟩
  rw [lookups_performAll, lookups_allocated]

/-- Everything that a program needs is wired up. -/
theorem given_bindAll {redraw : RedrawKey} {vertex fragment : CompiledShader}
    {config : ProgramConfig} (given : Given m [] b w)
    (kept : Kept (b.owns + rest) holds w)
    (known : ∀ n ∈ vertex.tokens ++ fragment.tokens, n.token ∈ m.tokens)
    (indexed : ∀ t ∈ config.indices, t ∈ m.tokens) :
    Binder.Ends (Binder.bindAll redraw vertex fragment config) b w
      (fun _ b' w' => ∃ answers, lookups w'.events = lookups w.events ++ answers ∧
        Given m (allSlots b.program vertex fragment config answers) b' w') fun _ _ _ => True := by
  have listed {bound : List (BindingSlot × Token)} {b' : Bindings} {w' : World δ}
      (given : Given m bound b' w') (kept : Kept (b'.owns + rest) holds w') :
      Binder.Ends (do Binder.uploadListed config.draw (← get).elements) b' w'
        (fun _ b'' w'' => lookups w''.events = lookups w'.events ∧ Given m bound b'' w'')
        fun _ _ _ => True := by
    unfold Binder.uploadListed
    rw [Binder.ends_bind, Binder.ends_get]
    split
    · next free => exact given_uploadIndices given kept free
    · exact ⟨rfl, given⟩
  unfold Binder.bindAll
  rw [Binder.ends_bind]
  refine (wired_bindShader given kept fun n member =>
    known n (List.mem_append_left _ member)).imp ?_ fun _ _ _ _ => trivial
  rintro _ b₁ w₁ ⟨path₁, answers₁, events₁, enough₁, given₁⟩
  obtain ⟨kept₁, program₁⟩ := kept.path path₁
  rw [Binder.ends_bind]
  refine (wired_bindShader given₁ kept₁ fun n member =>
    known n (List.mem_append_right _ member)).imp ?_ fun _ _ _ _ => trivial
  rintro _ b₂ w₂ ⟨path₂, answers₂, events₂, enough₂, given₂⟩
  obtain ⟨kept₂, program₂⟩ := kept₁.path path₂
  rw [program₁, List.nil_append, ← slots_append enough₁] at given₂
  have events : lookups w₂.events = lookups w.events ++ (answers₁ ++ answers₂) := by
    rw [events₂, events₁, List.append_assoc]
  cases indices : config.indices with
  | none =>
    refine (listed given₂ kept₂).imp ?_ fun _ _ _ _ => trivial
    rintro _ b₃ w₃ ⟨same, given₃⟩
    refine ⟨answers₁ ++ answers₂, same.trans events, ?_⟩
    simpa [allSlots, indices] using given₃
  | some t =>
    change Binder.Ends (Binder.bindIndexToken t >>= fun _ => _) b₂ w₂ _ _
    rw [Binder.ends_bind]
    unfold Binder.bindIndexToken
    cases kind : t.kind with
    | vertexAttribute a =>
      dsimp only
      by_cases target : a.options.target = .elementArray
      · rw [if_pos target]
        have known' : t ∈ m.tokens := indexed t indices
        have follows := Binder.follows_bindElements (t := a) (b₂, w₂) b₂ w₂ .refl
        refine (follows.and (given_bindElements given₂ kept₂ known' kind target)).imp ?_
          fun _ _ _ _ => trivial
        rintro _ b₃ w₃ ⟨path₃, same, given₃⟩
        refine (listed given₃ (kept₂.path path₃).1).imp ?_ fun _ _ _ _ => trivial
        rintro _ b₄ w₄ ⟨same', given₄⟩
        refine ⟨answers₁ ++ answers₂, (same'.trans same).trans events, ?_⟩
        simpa [allSlots, indices] using given₄
      · rw [if_neg target]
        trivial
    | _ => trivial

end Tokens
end ShaderStack

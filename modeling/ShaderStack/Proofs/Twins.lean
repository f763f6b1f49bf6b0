import ShaderStack.Proofs.Objects
import ShaderStack.Device.Recording
import Mathlib.Data.List.Forall2
import Mathlib.Logic.Relator

/-! Two runs that do the same under other names.

Names of one run and of the other correspond, kind by kind, and the correspondence only grows. What is
asked of the device, what a program remembers and what the tables hold is then the same but for the
names. Programs are the exception: two of them in the one run may be one in the other. -/
namespace ShaderStack

/-- Which objects of the second run stand for those of the first. -/
abbrev Correspondence := ObjectKind → Handle → Handle → Prop

namespace Correspondence

/-- No object has two partners, and only programs share one. -/
structure IsRenaming (R : Correspondence) : Prop where
  unique {k : ObjectKind} {h a b : Handle} (first : R k h a) (second : R k h b) : a = b
  apart {k : ObjectKind} {a b h : Handle} (other : k ≠ .program) (first : R k a h)
    (second : R k b h) : a = b

/-- One more pair. -/
def add (R : Correspondence) (k : ObjectKind) (n n' : Handle) : Correspondence :=
  fun l h h' => R l h h' ∨ l = k ∧ h = n ∧ h' = n'

variable {R : Correspondence} {k : ObjectKind} {n n' : Handle}

theorem le_add : R ≤ R.add k n n' := fun _ _ _ known => .inl known

theorem add_self : R.add k n n' k n n' := .inr ⟨rfl, rfl, rfl⟩

/-- A new object may get any partner if it is a program, else a new one. -/
theorem IsRenaming.add (proper : R.IsRenaming) (new : ∀ h', ¬ R k n h')
    (new' : k ≠ .program → ∀ h, ¬ R k h n') : (R.add k n n').IsRenaming where
  unique := by
    rintro l h a b (first | ⟨rfl, rfl, rfl⟩) (second | ⟨same, here, there⟩)
    · exact proper.unique first second
    · subst same here
      exact absurd first (new _)
    · exact absurd second (new _)
    · exact there.symm
  apart := by
    rintro l a b h other (first | ⟨rfl, rfl, rfl⟩) (second | ⟨same, here, there⟩)
    · exact proper.apart other first second
    · subst same there
      exact absurd first (new' other _)
    · exact absurd second (new' other _)
    · exact here.symm

theorem IsRenaming.biUnique (proper : R.IsRenaming) (other : k ≠ .program) :
    Relator.BiUnique (R k) :=
  ⟨fun _ _ _ first second => proper.apart other first second,
    fun _ _ _ first second => proper.unique first second⟩

end Correspondence

section Calls

/-- A command about other objects. -/
def Command.rename (ρ : ObjectKind → Handle → Handle) : Command → Command
  | deleteProgram h => deleteProgram (ρ .program h)
  | useProgram h => useProgram (h.map (ρ .program))
  | bindVertexArray h => bindVertexArray (h.map (ρ .vertexArray))
  | deleteVertexArray h => deleteVertexArray (ρ .vertexArray h)
  | bindBuffer target h => bindBuffer target (h.map (ρ .buffer))
  | deleteBuffer h => deleteBuffer (ρ .buffer h)
  | bindTexture h => bindTexture (h.map (ρ .texture))
  | deleteTexture h => deleteTexture (ρ .texture h)
  | bindFramebuffer h => bindFramebuffer (h.map (ρ .framebuffer))
  | framebufferTexture h => framebufferTexture (ρ .texture h)
  | renderbufferStorage h internal width height =>
    renderbufferStorage (ρ .renderbuffer h) internal width height
  | framebufferRenderbuffer h => framebufferRenderbuffer (ρ .renderbuffer h)
  | deleteFramebuffer h => deleteFramebuffer (ρ .framebuffer h)
  | deleteRenderbuffer h => deleteRenderbuffer (ρ .renderbuffer h)
  | c => c

def Lookup.rename (ρ : ObjectKind → Handle → Handle) : Lookup → Lookup
  | attributeLocation program name => attributeLocation (ρ .program program) name
  | uniformLocation program name => uniformLocation (ρ .program program) name

def Event.rename (ρ : ObjectKind → Handle → Handle) : Event → Event
  | allocation a (.ok h) => allocation a (.ok (ρ a.kind h))
  | lookup l answer => lookup (l.rename ρ) answer
  | command c => command (c.rename ρ)
  | e => e

variable {R R' : Correspondence}

/-- Two commands that are the same about objects that correspond. Nothing is deleted. -/
inductive Command.Twin (R : Correspondence) : Command → Command → Prop
  | useProgram {h h' : Option Handle} (same : Option.Rel (R .program) h h') :
      Twin R (.useProgram h) (.useProgram h')
  | bindVertexArray {h h' : Option Handle} (same : Option.Rel (R .vertexArray) h h') :
      Twin R (.bindVertexArray h) (.bindVertexArray h')
  | bindBuffer {target : BufferTarget} {h h' : Option Handle}
      (same : Option.Rel (R .buffer) h h') : Twin R (.bindBuffer target h) (.bindBuffer target h')
  | bindTexture {h h' : Option Handle} (same : Option.Rel (R .texture) h h') :
      Twin R (.bindTexture h) (.bindTexture h')
  | bindFramebuffer {h h' : Option Handle} (same : Option.Rel (R .framebuffer) h h') :
      Twin R (.bindFramebuffer h) (.bindFramebuffer h')
  | framebufferTexture {h h' : Handle} (same : R .texture h h') :
      Twin R (.framebufferTexture h) (.framebufferTexture h')
  | renderbufferStorage {h h' : Handle} {internal : InternalFormat} {width height : UInt32}
      (same : R .renderbuffer h h') : Twin R (.renderbufferStorage h internal width height)
        (.renderbufferStorage h' internal width height)
  | framebufferRenderbuffer {h h' : Handle} (same : R .renderbuffer h h') :
      Twin R (.framebufferRenderbuffer h) (.framebufferRenderbuffer h')
  | plain {c : Command} (nameless : ∀ ρ, c.rename ρ = c) : Twin R c c

inductive Lookup.Twin (R : Correspondence) : Lookup → Lookup → Prop
  | attributeLocation {program program' : Handle} {name : String}
      (same : R .program program program') :
      Twin R (.attributeLocation program name) (.attributeLocation program' name)
  | uniformLocation {program program' : Handle} {name : String}
      (same : R .program program program') :
      Twin R (.uniformLocation program name) (.uniformLocation program' name)

inductive Event.Twin (R : Correspondence) : Event → Event → Prop
  | allocation {a : Allocation} {h h' : Handle} (same : R a.kind h h') :
      Twin R (.allocation a (.ok h)) (.allocation a (.ok h'))
  | lookup {l l' : Lookup} {answer : Option Location} (same : l.Twin R l') :
      Twin R (.lookup l answer) (.lookup l' answer)
  | probe {p : Probe} {answer : Bool} : Twin R (.probe p answer) (.probe p answer)
  | command {c c' : Command} (same : c.Twin R c') : Twin R (.command c) (.command c')
  | read {r : PixelRead} : Twin R (.read r) (.read r)
  | callback {c : Callback} : Twin R (.callback c) (.callback c)

theorem Command.Twin.mono {c c' : Command} (grow : R ≤ R') (same : c.Twin R c') :
    c.Twin R' c' := by
  cases same with
  | useProgram same => exact .useProgram (rel_imp (grow _) same)
  | bindVertexArray same => exact .bindVertexArray (rel_imp (grow _) same)
  | bindBuffer same => exact .bindBuffer (rel_imp (grow _) same)
  | bindTexture same => exact .bindTexture (rel_imp (grow _) same)
  | bindFramebuffer same => exact .bindFramebuffer (rel_imp (grow _) same)
  | framebufferTexture same => exact .framebufferTexture (grow _ _ _ same)
  | renderbufferStorage same => exact .renderbufferStorage (grow _ _ _ same)
  | framebufferRenderbuffer same => exact .framebufferRenderbuffer (grow _ _ _ same)
  | plain nameless => exact .plain nameless

theorem Event.Twin.mono {e e' : Event} (grow : R ≤ R') (same : e.Twin R e') : e.Twin R' e' := by
  cases same with
  | allocation same => exact .allocation (grow _ _ _ same)
  | lookup same =>
    cases same with
    | attributeLocation same => exact .lookup (.attributeLocation (grow _ _ _ same))
    | uniformLocation same => exact .lookup (.uniformLocation (grow _ _ _ same))
  | probe => exact .probe
  | command same => exact .command (same.mono grow)
  | read => exact .read
  | callback => exact .callback

/-- Where a function follows the correspondence, the second event is the first one renamed. -/
theorem Event.Twin.eq_rename {e e' : Event} (same : e.Twin R e') {ρ : ObjectKind → Handle → Handle}
    (follows : ∀ k h h', R k h h' → ρ k h = h') : e' = e.rename ρ := by
  have option (k : ObjectKind) {h h' : Option Handle} (same : Option.Rel (R k) h h') :
      h' = h.map (ρ k) := by
    cases same with
    | some same => rw [Option.map_some, follows k _ _ same]
    | none => rfl
  cases same with
  | allocation same => rw [rename, follows _ _ _ same]
  | lookup same =>
    cases same with
    | attributeLocation same => rw [rename, Lookup.rename, follows _ _ _ same]
    | uniformLocation same => rw [rename, Lookup.rename, follows _ _ _ same]
  | command same =>
    rw [rename]
    cases same with
    | framebufferTexture same => rw [Command.rename, follows _ _ _ same]
    | renderbufferStorage same => rw [Command.rename, follows _ _ _ same]
    | framebufferRenderbuffer same => rw [Command.rename, follows _ _ _ same]
    | plain nameless => rw [nameless ρ]
    | _ same => rw [Command.rename, option _ same]
  | _ => rfl

/-- Commands in step leave the programs alone. -/
theorem Command.Twin.keeps {c c' : Command} (same : c.Twin R c') (h : Handle) :
    c ≠ .deleteProgram h ∧ c' ≠ .deleteProgram h := by
  cases same with
  | @plain c nameless =>
    have other : c ≠ .deleteProgram h := by
      rintro rfl
      have fixed := nameless fun _ h => h + 1
      simp [rename] at fixed
    exact ⟨other, other⟩
  | _ => exact ⟨nofun, nofun⟩

end Calls

section Data

/-- Entries of two tables under one key. -/
def Keyed (same : α → β → Prop) (e : κ × α) (e' : κ × β) : Prop := e'.1 = e.1 ∧ same e.2 e'.2

section Tables

variable {κ α β : Type} [DecidableEq κ] {same : α → β → Prop} {key : κ} {entries : List (κ × α)}
  {entries' : List (κ × β)}

theorem lookup_keyed (tables : List.Forall₂ (Keyed same) entries entries') (key : κ) :
    Option.Rel same (entries.lookup key) (entries'.lookup key) := by
  induction tables with
  | nil => exact .none
  | @cons e e' rest rest' head _ ih =>
    obtain ⟨_, v⟩ := e
    obtain ⟨k, v'⟩ := e'
    obtain ⟨rfl, value⟩ := head
    by_cases here : key = k
    · subst here
      simpa using Option.Rel.some value
    · rw [lookup_cons_other here, lookup_cons_other here]
      exact ih

theorem assign_keyed (tables : List.Forall₂ (Keyed same) entries entries') {v : α} {v' : β}
    (value : same v v') :
    List.Forall₂ (Keyed same) (assign key v entries) (assign key v' entries') := by
  induction tables with
  | nil => exact .cons ⟨rfl, value⟩ .nil
  | @cons e e' rest rest' head tail ih =>
    obtain ⟨_, w⟩ := e
    obtain ⟨k, w'⟩ := e'
    obtain ⟨rfl, old⟩ := head
    by_cases here : k = key
    · rw [assign, assign, if_pos here, if_pos here]
      exact .cons ⟨rfl, value⟩ tail
    · rw [assign, assign, if_neg here, if_neg here]
      exact .cons ⟨rfl, old⟩ ih

omit [DecidableEq κ] in
theorem keyed_mono {wider : α → β → Prop} (tables : List.Forall₂ (Keyed same) entries entries')
    (wide : ∀ a b, same a b → wider a b) : List.Forall₂ (Keyed wider) entries entries' :=
  tables.imp fun _ _ entry => ⟨entry.1, wide _ _ entry.2⟩

end Tables

variable {R R' : Correspondence}

/-- Two updates that remember the same. -/
inductive Update.Twin (R : Correspondence) : Update → Update → Prop
  | attributes {u : AttributeUpdate} {buffer : Handle} (same : R .buffer u.buffer buffer) :
      Twin R (.attributes u) (.attributes { u with buffer })
  | elements {u : ElementsUpdate} {buffer : Handle} (same : R .buffer u.buffer buffer) :
      Twin R (.elements u) (.elements { u with buffer })
  | uniform {u : UniformUpdate} : Twin R (.uniform u) (.uniform u)
  | sampler {u : SamplerUpdate} {texture : Handle} {subscribed : List Handle}
      (same : R .texture u.texture texture)
      (sources : List.Forall₂ (R .texture) u.subscribed subscribed) :
      Twin R (.sampler u) (.sampler { u with texture, subscribed })

structure Bindings.Twin (R : Correspondence) (b b' : Bindings) : Prop where
  program : R .program b.program b'.program
  vertexArray : R .vertexArray b.vertexArray b'.vertexArray
  queue : List.Forall₂ (Keyed (Update.Twin R)) b.queue.entries b'.queue.entries
  nextUnit : b'.nextUnit = b.nextUnit
  elements : b'.elements = b.elements
  missing : b'.missing = b.missing
  modes : b'.modes = b.modes

structure Program.Twin (R : Correspondence) (p p' : Program) : Prop where
  bindings : p.bindings.Twin R p'.bindings
  mode : p'.mode = p.mode
  draw : p'.draw = p.draw
  hook : p'.hook = p.hook

structure Subscription.Twin (R : Correspondence) (s s' : Subscription) : Prop where
  redraw : s'.redraw = s.redraw
  source : R .texture s.source s'.source

structure RenderTexture.Twin (R : Correspondence) (t t' : RenderTexture) : Prop where
  programs : List.Forall₂ (Program.Twin R) t.programs t'.programs
  texture : R .texture t.texture t'.texture
  framebuffer : R .framebuffer t.framebuffer t'.framebuffer
  width : t'.width = t.width
  height : t'.height = t.height
  generation : t'.generation = t.generation
  listeners : List.Forall₂ (Subscription.Twin R) t.listeners t'.listeners
  holders : t'.holders = t.holders

structure HostSurface.Twin (R : Correspondence) (s s' : HostSurface) : Prop where
  texture : Option.Rel (R .texture) s.texture s'.texture
  listeners : List.Forall₂ (Subscription.Twin R) s.listeners s'.listeners

/-- Requests of objects that correspond, in the same order. -/
def RedrawRequests.Twin (R : Correspondence) (r r' : RedrawRequests) : Prop :=
  List.Forall₂ (R .texture) r.sources r'.sources

theorem Update.Twin.mono {u u' : Update} (grow : R ≤ R') (same : u.Twin R u') : u.Twin R' u' := by
  cases same with
  | attributes same => exact .attributes (grow _ _ _ same)
  | elements same => exact .elements (grow _ _ _ same)
  | uniform => exact .uniform
  | sampler same sources =>
    exact .sampler (grow _ _ _ same) (sources.imp fun _ _ known => grow _ _ _ known)

theorem Bindings.Twin.mono {b b' : Bindings} (grow : R ≤ R') (same : b.Twin R b') :
    b.Twin R' b' :=
  { same with
    program := grow _ _ _ same.program
    vertexArray := grow _ _ _ same.vertexArray
    queue := keyed_mono same.queue fun _ _ known => known.mono grow }

theorem Program.Twin.mono {p p' : Program} (grow : R ≤ R') (same : p.Twin R p') : p.Twin R' p' :=
  { same with bindings := same.bindings.mono grow }

theorem Subscription.Twin.mono {s s' : Subscription} (grow : R ≤ R') (same : s.Twin R s') :
    s.Twin R' s' := ⟨same.redraw, grow _ _ _ same.source⟩

theorem RenderTexture.Twin.mono {t t' : RenderTexture} (grow : R ≤ R') (same : t.Twin R t') :
    t.Twin R' t' :=
  { same with
    programs := same.programs.imp fun _ _ known => known.mono grow
    texture := grow _ _ _ same.texture
    framebuffer := grow _ _ _ same.framebuffer
    listeners := same.listeners.imp fun _ _ known => known.mono grow }

theorem HostSurface.Twin.mono {s s' : HostSurface} (grow : R ≤ R') (same : s.Twin R s') :
    s.Twin R' s' :=
  ⟨rel_imp (grow _) same.texture, same.listeners.imp fun _ _ known => known.mono grow⟩

/-- Registering keeps the places. -/
theorem UpdateQueue.register_twin {q q' : UpdateQueue Update} {u u' : Update} {slot : BindingSlot}
    (queue : List.Forall₂ (Keyed (Update.Twin R)) q.entries q'.entries) (same : u.Twin R u') :
    List.Forall₂ (Keyed (Update.Twin R)) (q.register slot u).2.entries
      (q'.register slot u').2.entries :=
  assign_keyed queue same

theorem Bindings.Twin.slots_eq {b b' : Bindings} (same : b.Twin R b') :
    b'.queue.slots = b.queue.slots := by
  have keys := same.queue
  unfold UpdateQueue.slots
  generalize b.queue.entries = entries, b'.queue.entries = entries' at keys
  induction keys with
  | nil => rfl
  | cons head _ ih => rw [List.map_cons, List.map_cons, head.1, ih]

end Data

section Worlds

variable {R R' : Correspondence} {w w' : World δ}

/-- The tables of two contexts that the library keeps of them. -/
structure World.Alike (R : Correspondence) (w w' : World δ) : Prop where
  host : w'.host = w.host
  nextKey : w'.nextKey = w.nextKey
  textures : List.Forall₂ (Keyed (RenderTexture.Twin R)) w.textures w'.textures
  surfaces : List.Forall₂ (Keyed (HostSurface.Twin R)) w.surfaces w'.surfaces
  redraws : List.Forall₂ (Keyed (RedrawRequests.Twin R)) w.redraws w'.redraws

namespace World.Alike

theorem mono (grow : R ≤ R') (same : w.Alike R w') : w.Alike R' w' :=
  { same with
    textures := keyed_mono same.textures fun _ _ known => known.mono grow
    surfaces := keyed_mono same.surfaces fun _ _ known => known.mono grow
    redraws := keyed_mono same.redraws fun _ _ known => known.imp fun _ _ source => grow _ _ _ source }

theorem texture? (same : w.Alike R w') (key : Nat) :
    Option.Rel (RenderTexture.Twin R) (w.texture? key) (w'.texture? key) :=
  lookup_keyed same.textures key

theorem surface (same : w.Alike R w') (name : String) :
    (w.surface name).Twin R (w'.surface name) := by
  have found := lookup_keyed same.surfaces name
  unfold World.surface
  generalize w.surfaces.lookup name = a, w'.surfaces.lookup name = b at found
  cases found with
  | some known => exact known
  | none => exact ⟨.none, .nil⟩

theorem requests (same : w.Alike R w') (key : RedrawKey) :
    (w.requests key).Twin R (w'.requests key) := by
  have found := lookup_keyed same.redraws key
  unfold World.requests
  generalize w.redraws.lookup key = a, w'.redraws.lookup key = b at found
  cases found with
  | some known => exact known
  | none => exact .nil

theorem textureOf? (same : w.Alike R w') (id : SurfaceId) :
    Option.Rel (R .texture) (w.textureOf? id) (w'.textureOf? id) := by
  cases id with
  | renderTexture key =>
    have found := same.texture? key
    unfold World.textureOf?
    dsimp only
    generalize w.texture? key = a, w'.texture? key = b at found
    cases found with
    | some known => exact .some known.texture
    | none => exact .none
  | external name => exact (same.surface name).texture

theorem listeners (same : w.Alike R w') (key : Nat) :
    List.Forall₂ (Subscription.Twin R) (((w.texture? key).map RenderTexture.listeners).getD [])
      (((w'.texture? key).map RenderTexture.listeners).getD []) := by
  have found := same.texture? key
  generalize w.texture? key = a, w'.texture? key = b at found
  cases found with
  | some known => exact known.listeners
  | none => exact .nil

theorem setTexture (same : w.Alike R w') (key : Nat) {t t' : RenderTexture} (new : t.Twin R t') :
    (w.setTexture key t).Alike R (w'.setTexture key t') :=
  { same with textures := assign_keyed same.textures new }

theorem setSurface (same : w.Alike R w') (name : String) {s s' : HostSurface}
    (new : s.Twin R s') : (w.setSurface name s).Alike R (w'.setSurface name s') :=
  { same with surfaces := assign_keyed same.surfaces new }

theorem setRequests (same : w.Alike R w') (key : RedrawKey) {r r' : RedrawRequests}
    (new : r.Twin R r') : (w.setRequests key r).Alike R (w'.setRequests key r') :=
  { same with redraws := assign_keyed same.redraws new }

theorem listen (same : w.Alike R w') (id : SurfaceId) {s s' : Subscription} (new : s.Twin R s') :
    (w.listen id s).Alike R (w'.listen id s') := by
  cases id with
  | renderTexture key =>
    have found := same.texture? key
    unfold World.listen
    dsimp only
    generalize w.texture? key = a, w'.texture? key = b at found
    cases found with
    | some known =>
      exact same.setTexture key
        { known with listeners := List.rel_append known.listeners (.cons new .nil) }
    | none => exact same
  | external name =>
    have found := same.surface name
    exact same.setSurface name
      { found with listeners := List.rel_append found.listeners (.cons new .nil) }

/-- Listeners ask under sources that correspond, so that none asks twice in one of the runs only. -/
theorem notify (same : w.Alike R w') (proper : R.IsRenaming) {listeners listeners' : List Subscription}
    (twins : List.Forall₂ (Subscription.Twin R) listeners listeners') :
    (w.notify listeners).Alike R (w'.notify listeners') := by
  induction twins generalizing w w' with
  | nil => exact same
  | @cons s s' rest rest' head _ ih =>
    obtain ⟨_, source⟩ := s
    obtain ⟨key, source'⟩ := s'
    obtain ⟨rfl, partner⟩ := head
    have sources := same.requests key
    have known := List.rel_mem (proper.biUnique (by decide)) partner sources
    have asked : ((w.requests key).request source).Twin R ((w'.requests key).request source') := by
      unfold RedrawRequests.request
      by_cases old : source ∈ (w.requests key).sources
      · rw [if_pos old, if_pos (known.mp old)]
        exact sources
      · rw [if_neg old, if_neg (mt known.mpr old)]
        exact List.rel_append sources (.cons partner .nil)
    exact ih (same.setRequests key asked)

end World.Alike
end Worlds
end ShaderStack

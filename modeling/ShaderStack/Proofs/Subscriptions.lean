import ShaderStack.Proofs.Diffing

/-! Which surfaces a sampler listens to.

A sampler subscribes to the surface that it shows when it has not shown the surface's texture before, from
its binding on. As long as a texture tells which surface it is of, each surface is subscribed to once. A
texture that another surface takes over is no longer heard of. -/
namespace ShaderStack

variable {δ : Type}

/-- A texture that a sampler shows, with the surface that has it. -/
structure Showing where
  surface : SurfaceId
  texture : Handle
  deriving DecidableEq, Repr

/-- The first showing of each texture, apart from those that are known. -/
def firstShowings : List Handle → List Showing → List Showing
  | _, [] => []
  | known, s :: rest =>
    if s.texture ∈ known then firstShowings known rest
    else s :: firstShowings (s.texture :: known) rest

/-- What listeners a surface gets for some showings. -/
def heard (redraw : RedrawKey) (showings : List Showing) (id : SurfaceId) : List Subscription :=
  (showings.filter fun s => s.surface = id).map fun s => ⟨redraw, s.texture⟩

/-- Each texture tells the surface that shows it, and each surface keeps its texture. -/
def Faithful (history : List Showing) : Prop :=
  ∀ s ∈ history, ∀ s' ∈ history, s.surface = s'.surface ↔ s.texture = s'.texture

section Showings

variable {known : List Handle} {history more : List Showing} {redraw : RedrawKey} {id : SurfaceId}

theorem heard_append : heard redraw (history ++ more) id = heard redraw history id ++ heard redraw more id := by
  simp [heard]

theorem length_heard : (heard redraw history id).length = history.countP (·.surface = id) := by
  rw [heard, List.length_map, List.countP_eq_length_filter]

theorem firstShowings_append : firstShowings known (history ++ more) = firstShowings known history ++
    firstShowings ((firstShowings known history).map Showing.texture ++ known) more := by
  induction history generalizing known with
  | nil => rfl
  | cons s rest ih =>
    simp only [List.cons_append, firstShowings]
    split
    · exact ih
    · rw [ih]
      -- what is known grows at its head, and only its members count
      have same (xs : List Handle) (ys zs : List Handle) (alike : ∀ h, h ∈ ys ↔ h ∈ zs) :
          firstShowings ys more = firstShowings zs more := by
        clear ih
        induction more generalizing ys zs with
        | nil => rfl
        | cons m ms ih =>
          simp only [firstShowings, alike]
          rw [ih ys zs alike, ih (m.texture :: ys) (m.texture :: zs) (by simp [alike])]
      rw [List.cons_append]
      refine congrArg _ (congrArg _ (same [] _ _ fun h => ?_))
      simp [or_left_comm]

/-- A surface of a faithful history is first shown once, unless its texture is known. -/
theorem count_firstShowings (faithful : Faithful history) (known : List Handle) (id : SurfaceId) :
    (firstShowings known history).countP (·.surface = id) =
      if ∃ s ∈ history, s.surface = id ∧ s.texture ∉ known then 1 else 0 := by
  induction history generalizing known with
  | nil => simp [firstShowings]
  | cons x rest ih =>
    have later : Faithful rest := fun s member s' member' =>
      faithful s (List.mem_cons_of_mem x member) s' (List.mem_cons_of_mem x member')
    have alike (s : Showing) (member : s ∈ rest) : s.surface = x.surface ↔ s.texture = x.texture :=
      faithful s (List.mem_cons_of_mem x member) x List.mem_cons_self
    rw [firstShowings]
    by_cases old : x.texture ∈ known
    · rw [if_pos old, ih later known]
      simp [old]
    · rw [if_neg old, List.countP_cons, ih later]
      by_cases mine : x.surface = id
      · subst mine
        have gone : ¬ ∃ s ∈ rest, s.surface = x.surface ∧ s.texture ∉ x.texture :: known := by
          rintro ⟨s, member, same, new⟩
          exact new ((alike s member).mp same ▸ List.mem_cons_self)
        rw [if_neg gone]
        simp [old]
      · have others : (∃ s ∈ rest, s.surface = id ∧ s.texture ∉ x.texture :: known) ↔
            ∃ s ∈ rest, s.surface = id ∧ s.texture ∉ known := by
          refine exists_congr fun s => and_congr_right fun member => and_congr_right fun same => ?_
          have apart : s.texture ≠ x.texture := fun equal =>
            mine (((alike s member).mpr equal).symm.trans same)
          simp [apart]
        simp only [others]
        simp [mine]

end Showings

namespace World

/-- The listeners of a surface, oldest first. -/
def listeners (w : World δ) : SurfaceId → List Subscription
  | .renderTexture key => ((w.texture? key).map RenderTexture.listeners).getD []
  | .external name => (w.surface name).listeners

/-- What a source shows, once it is a surface that has a texture. -/
def shown? (w : World δ) : TextureSource → Option Showing
  | .surface id => (w.textureOf? id).map fun h => ⟨id, h⟩
  | .pixels _ => none

/-- The surfaces keep their textures and get more listeners. -/
structure Gains (added : SurfaceId → List Subscription) (w w' : World δ) : Prop where
  surfaces : w'.textureOf? = w.textureOf?
  listeners : ∀ id, w'.listeners id = w.listeners id ++ added id

namespace Gains

variable {w w₁ w₂ : World δ} {added : SurfaceId → List Subscription} {redraw : RedrawKey}
  {showings more : List Showing}

theorem still (textures : w₁.textures = w.textures) (surfaces : w₁.surfaces = w.surfaces) :
    Gains (heard redraw []) w w₁ := by
  constructor
  · funext id
    cases id <;> simp [World.textureOf?, World.texture?, World.surface, textures, surfaces]
  · intro id
    cases id <;> simp [World.listeners, World.texture?, World.surface, heard, textures, surfaces]

theorem trans (first : Gains (heard redraw showings) w w₁) (second : Gains (heard redraw more) w₁ w₂) :
    Gains (heard redraw (showings ++ more)) w w₂ := by
  constructor
  · rw [second.surfaces, first.surfaces]
  · intro id
    rw [second.listeners, first.listeners, heard_append, List.append_assoc]

theorem quiet (gains : Gains (heard redraw showings) w w₁) (textures : w₂.textures = w₁.textures)
    (surfaces : w₂.surfaces = w₁.surfaces) : Gains (heard redraw showings) w w₂ := by
  have whole := gains.trans (still textures surfaces)
  rwa [List.append_nil] at whole

theorem emit {act : δ → δ} {event : Event} (gains : Gains (heard redraw showings) w w₁) :
    Gains (heard redraw showings) w (w₁.emit act event) := gains.quiet rfl rfl

theorem looked {value : Accessor α} (gains : Gains (heard redraw showings) w w₁) :
    Gains (heard redraw showings) w (w₁.looked value) := gains.quiet rfl rfl

theorem performAll [GraphicsDevice δ] (gains : Gains (heard redraw showings) w w₁) (cs : List Command) :
    Gains (heard redraw showings) w (w₁.performAll cs) := by
  induction cs generalizing w₁ with
  | nil => exact gains
  | cons c cs ih => exact ih gains.emit

/-- Listening to a surface under the texture that it has. -/
theorem listen {id : SurfaceId} {h : Handle} (source : w.textureOf? id = some h) :
    Gains (heard redraw [⟨id, h⟩]) w (w.listen id ⟨redraw, h⟩) := by
  have own (other : SurfaceId) : heard redraw [⟨id, h⟩] other =
      if id = other then [⟨redraw, h⟩] else [] := by
    unfold heard
    by_cases same : id = other <;> simp [same]
  cases id with
  | external name =>
    constructor
    · funext other
      cases other with
      | renderTexture key => rfl
      | external other =>
        simp only [World.listen, World.textureOf?, World.surface_setSurface]
        split
        · next same => rw [same]
        · rfl
    · intro other
      rw [own]
      cases other with
      | renderTexture key => exact (List.append_nil _).symm
      | external other =>
        simp only [World.listen, World.listeners, World.surface_setSurface, SurfaceId.external.injEq]
        by_cases same : other = name
        · simp [same]
        · simp [same, Ne.symm same]
  | renderTexture key =>
    obtain ⟨t, present, texture⟩ := Option.map_eq_some_iff.mp source
    rw [World.listen_present present]
    have found (other : Nat) : (w.setTexture key { t with listeners := t.listeners ++ [⟨redraw, h⟩] }).texture?
        other = if other = key then some { t with listeners := t.listeners ++ [⟨redraw, h⟩] }
          else w.texture? other := by
      unfold World.texture? World.setTexture
      by_cases same : other = key
      · rw [if_pos same, same, lookup_assign_same]
      · rw [if_neg same, lookup_assign_other same]
    constructor
    · funext other
      cases other with
      | external name => rfl
      | renderTexture other =>
        simp only [World.textureOf?, found]
        by_cases same : other = key <;> simp [same, present]
    · intro other
      rw [own]
      cases other with
      | external name => exact (List.append_nil _).symm
      | renderTexture other =>
        simp only [World.listeners, found, SurfaceId.renderTexture.injEq]
        by_cases same : other = key
        · simp [same, present]
        · simp [same, Ne.symm same]

/-- A subscription is made for a texture that is not known. -/
theorem subscribe (redraw : RedrawKey) (id : SurfaceId) (known : List Handle) (w : World δ) :
    let new := firstShowings known (w.shown? (.surface id)).toList
    let answer := (Engine.subscribe redraw id known : Engine δ (List Handle)).run w
    answer.1 = new.map Showing.texture ++ known ∧ Gains (heard redraw new) w answer.2 := by
  unfold Engine.subscribe
  simp only [Engine.run_bind, Engine.run_get, World.shown?]
  cases source : w.textureOf? id with
  | none => exact ⟨rfl, still rfl rfl⟩
  | some h =>
    dsimp only [Option.map_some, Option.toList_some, firstShowings]
    split
    · exact ⟨rfl, still rfl rfl⟩
    · exact ⟨rfl, listen source⟩

end Gains
end World

/-- Subscribing asks no accessor. -/
theorem Engine.host_subscribe {redraw : RedrawKey} {id : SurfaceId} {known : List Handle} {w : World δ} :
    ((Engine.subscribe redraw id known : Engine δ (List Handle)).run w).2.host = w.host := by
  obtain ⟨handles, same | ⟨s, _, added⟩⟩ := SamplerUpdate.run_subscribe redraw id known w
  · rw [same]
  · rw [added]
    exact World.listen_host

/-- The accessor of a sampler, and who is told when a surface that it shows has new content. -/
structure SurfaceBinding where
  value : Accessor TextureSource
  redraw : RedrawKey

/-- What the accessor shows now. -/
def SurfaceBinding.shows (b : SurfaceBinding) (w : World δ) : Option Showing :=
  w.shown? (w.see b.value)

/-- A sampler with the textures that it has subscribed to. -/
def Update.surface? : Update → Option (SurfaceBinding × List Handle)
  | .sampler u => some (⟨u.value, u.redraw⟩, u.subscribed)
  | _ => none

section Turns

variable [GraphicsDevice δ] {b : SurfaceBinding} {known : List Handle}

theorem SamplerUpdate.gains_run {u : SamplerUpdate} {w : World δ} :
    let b : SurfaceBinding := ⟨u.value, u.redraw⟩
    let new := firstShowings u.subscribed (b.shows w).toList
    (u.run.run w).1.value = u.value ∧ (u.run.run w).1.redraw = u.redraw ∧
      (u.run.run w).1.subscribed = new.map Showing.texture ++ u.subscribed ∧
      World.Gains (heard u.redraw new) w (u.run.run w).2 := by
  have seen : (w.perform (.activeTexture u.unit)).see u.value = w.see u.value := rfl
  have start : World.Gains (heard u.redraw []) w ((w.perform (.activeTexture u.unit)).looked u.value) :=
    .still rfl rfl
  dsimp only
  cases current : w.see u.value with
  | pixels data =>
    have nothing : firstShowings u.subscribed
        (SurfaceBinding.shows ⟨u.value, u.redraw⟩ w).toList = [] := by
      simp [SurfaceBinding.shows, current, World.shown?, firstShowings]
    rw [run_pixels (seen.trans current), nothing]
    refine ⟨?_, ?_, ?_, start.performAll _⟩ <;> unfold next <;> split <;> rfl
  | surface id =>
    have showing : SurfaceBinding.shows ⟨u.value, u.redraw⟩ w = w.shown? (.surface id) := by
      simp [SurfaceBinding.shows, current]
    rw [showing]
    let bound := ((w.perform (.activeTexture u.unit)).looked u.value).perform
      (.bindTexture (some ((w.textureOf? id).getD u.texture)))
    have same : bound.shown? (.surface id) = w.shown? (.surface id) := by cases id <;> rfl
    obtain ⟨textures, gains⟩ := World.Gains.subscribe u.redraw id u.subscribed bound
    rw [same] at textures gains
    have run : u.run.run w = ({ u with subscribed :=
        ((Engine.subscribe u.redraw id u.subscribed : Engine δ (List Handle)).run bound).1 },
        World.perform u.unitPush
          ((Engine.subscribe u.redraw id u.subscribed : Engine δ (List Handle)).run bound).2) := by
      unfold SamplerUpdate.run
      have texture : ((w.perform (.activeTexture u.unit)).looked u.value).textureOf? id =
          w.textureOf? id := by cases id <;> rfl
      simp only [Engine.run_bind, Engine.run_command, Engine.run_readHost, seen, current, Engine.run_get,
        texture]
      rfl
    have before : World.Gains (heard u.redraw []) w bound := start.emit
    rw [run]
    exact ⟨rfl, rfl, textures, (before.trans gains).emit⟩

/-- A turn subscribes to the surface that it shows, unless the surface's texture was shown before. -/
theorem Turn.surface?_next (t : Turn δ) (found : t.update.surface? = some (b, known)) :
    let new := firstShowings known (b.shows t.world).toList
    t.next.surface? = some (b, new.map Showing.texture ++ known) ∧
      World.Gains (heard b.redraw new) t.world t.after := by
  obtain ⟨slot, u, indices, w⟩ := t
  cases u with
  | sampler u =>
    obtain ⟨rfl, rfl⟩ := Prod.mk.inj (Option.some.inj found)
    obtain ⟨value, redraw, subscribed, gains⟩ := SamplerUpdate.gains_run (u := u) (w := w)
    have next : (Turn.mk slot (.sampler u) indices w).next.surface? =
        some (⟨(u.run.run w).1.value, (u.run.run w).1.redraw⟩, (u.run.run w).1.subscribed) := rfl
    rw [next, value, redraw, subscribed]
    exact ⟨rfl, gains⟩
  | attributes u | elements u | uniform u => exact nomatch found

end Turns

/-! ### Binding -/

/-- A sampler as it is bound: its slot, its accessor, and what that shows. -/
structure Opening where
  slot : BindingSlot
  value : Accessor TextureSource
  showing : Option Showing

/-- What an update knows of its binding. -/
structure Opening.Opens (redraw : RedrawKey) (o : Opening) (u : SamplerUpdate) : Prop where
  value : u.value = o.value
  redraw : u.redraw = redraw
  subscribed : u.subscribed = o.showing.toList.map Showing.texture

namespace Binder

/-- The samplers that were bound have listened to what their accessors showed, each once. -/
structure Opened (m : Moment) (redraw : RedrawKey) (start : World δ) (opened : List Opening)
    (b : Bindings) (w : World δ) : Prop where
  reaches : ∃ seen, m.Reaches seen w.host
  given : ∀ o ∈ opened, ∃ seen now, m.Reaches seen now ∧ o.showing = start.shown? (o.value.run now).1
  gains : World.Gains (heard redraw (opened.filterMap Opening.showing)) start w
  latest : Latest Opening.slot (Opening.Opens redraw) opened b.queue.entries

variable {m : Moment} {redraw : RedrawKey} {start w w' : World δ} {opened : List Opening} {b b' : Bindings}
  {t : Token}

namespace Opened

theorem move (here : Opened m redraw start opened b w) (queue : b'.queue = b.queue)
    (host : w'.host = w.host) (textures : w'.textures = w.textures) (surfaces : w'.surfaces = w.surfaces) :
    Opened m redraw start opened b' w' := by
  refine ⟨host ▸ here.reaches, here.given, here.gains.quiet textures surfaces, ?_⟩
  rw [queue]
  exact here.latest

theorem performAll [GraphicsDevice δ] (here : Opened m redraw start opened b w) (cs : List Command) :
    Opened m redraw start opened b (w.performAll cs) := by
  induction cs generalizing w with
  | nil => exact here
  | cons c cs ih => exact ih (here.move rfl rfl rfl rfl)

theorem look (value : Accessor α) (here : Opened m redraw start opened b w) (known : t ∈ m.tokens)
    (after : t.after w.host = (value.run w.host).2) :
    Opened m redraw start opened b (w.looked value) := by
  obtain ⟨seen, reaches⟩ := here.reaches
  refine ⟨⟨t.arrays w.host ++ seen, ?_⟩, here.given, here.gains.looked, here.latest⟩
  rw [World.looked_host, ← after]
  exact .read reaches known

theorem register {slot : BindingSlot} {u : Update} (here : Opened m redraw start opened b w)
    (queue : b'.queue = (b.queue.register slot u).2) (other : ∀ v, u ≠ .sampler v) :
    Opened m redraw start opened b' w := by
  refine ⟨here.reaches, here.given, here.gains, ?_⟩
  rw [queue]
  exact here.latest.register other

/-- A sampler that is bound subscribes to the surface that it shows. -/
theorem sampler {k : SamplerToken} {location : Location} {texture : Handle}
    (here : Opened m redraw start opened b w) {source : TextureSource} {handles : List Handle}
    (given : ∃ seen now, m.Reaches seen now ∧ (k.value.run now).1 = source)
    (host : w'.host = w.host)
    (known : handles = (start.shown? source).toList.map Showing.texture)
    (gains : World.Gains (heard redraw (start.shown? source).toList) w w') :
    Opened m redraw start (opened ++ [⟨.uniform location, k.value, start.shown? source⟩])
      (withSampler k redraw location texture handles b) w' := by
  obtain ⟨seen, now, reaches, rfl⟩ := given
  refine ⟨host ▸ here.reaches, ?_, ?_, ?_⟩
  · intro o member
    rcases List.mem_append.mp member with old | new
    · exact here.given o old
    · rw [List.mem_singleton.mp new]
      exact ⟨seen, now, reaches, rfl⟩
  · have one : [(⟨.uniform location, k.value, start.shown? (k.value.run now).1⟩ : Opening)].filterMap
        Opening.showing = (start.shown? (k.value.run now).1).toList := by
      cases start.shown? (k.value.run now).1 <;> rfl
    rw [List.filterMap_append, one]
    exact here.gains.trans gains
  · exact here.latest.extend rfl ⟨rfl, rfl, known⟩

end Opened

/-- A step that keeps the account of what samplers listen to. -/
abbrev Listening (m : Moment) (redraw : RedrawKey) (start : World δ) (action : Binder δ α) : Prop :=
  Keeps (fun b w => ∃ opened, Opened m redraw start opened b w) (fun _ _ => True) action

theorem listening_missing {declared : List String} {stage : ShaderStage} {name : String}
    {type : TokenType} : Listening m redraw start (missing declared stage name type : Binder δ Unit) :=
  Keeps.missing fun _ _ _ ⟨opened, here⟩ => ⟨opened, here.move rfl rfl rfl rfl⟩

variable [GraphicsDevice δ]

theorem listening_uploadBuffer {target : BufferTarget} {data : List UInt8} {afterwards : List Command} :
    Listening m redraw start (uploadBuffer target data afterwards : Binder δ Handle) := by
  rintro b w ⟨opened, here⟩
  rw [ends_uploadBuffer]
  refine ⟨fun buffer _ => ⟨opened, ?_⟩, fun _ _ => trivial⟩
  have asked : Opened m redraw start opened { b with objects := b.objects ++ [.buffer buffer] }
      (w.allocated .buffer) := here.move rfl rfl rfl rfl
  exact asked.performAll _

theorem listening_bindAttribute {declared : List String} {stage : ShaderStage} {name : String}
    {a : AttributeToken} (known : t ∈ m.tokens) (kind : t.kind = .vertexAttribute a) :
    Listening m redraw start (bindAttribute declared stage name a : Binder δ Unit) := by
  rintro b w ⟨opened, here⟩
  have asked : Opened m redraw start opened b (w.lookedUp (.attributeLocation b.program name)) :=
    here.move rfl rfl rfl rfl
  rw [ends_bindAttribute]
  dsimp only
  split
  · exact listening_missing b _ ⟨opened, asked⟩
  · have looked := asked.look a.value known (by simp [Token.after, kind])
    have ready : Opened m redraw start opened { b with modes := b.modes ++ a.options.mode.toList } _ :=
      looked.move rfl rfl rfl rfl
    refine (listening_uploadBuffer _ _ ⟨opened, ready⟩).imp ?_ fun _ _ _ _ => trivial
    rintro buffer b' w' ⟨opened, filled⟩
    exact ⟨opened, filled.register rfl (by simp)⟩

theorem listening_bindElements {a : AttributeToken} (known : t ∈ m.tokens)
    (kind : t.kind = .vertexAttribute a) :
    Listening m redraw start (bindElements a : Binder δ Unit) := by
  rintro b w ⟨opened, here⟩
  have looked := here.look a.value known (by simp [Token.after, kind])
  rw [ends_bindElements]
  dsimp only
  split
  · exact ⟨opened, looked⟩
  · refine (listening_uploadBuffer _ _ ⟨opened, looked⟩).imp ?_ fun _ _ _ _ => trivial
    rintro buffer b' w' ⟨opened, filled⟩
    exact ⟨opened, filled.register rfl (by simp)⟩

theorem listening_bindUniform {declared : List String} {stage : ShaderStage} {name : String}
    {k : UniformToken} :
    Listening m redraw start (bindUniform declared stage name k : Binder δ Unit) := by
  rintro b w ⟨opened, here⟩
  have asked : Opened m redraw start opened b (w.lookedUp (.uniformLocation b.program name)) :=
    here.move rfl rfl rfl rfl
  rw [ends_bindUniform]
  dsimp only
  split
  · exact listening_missing b _ ⟨opened, asked⟩
  · exact ⟨opened, asked.register rfl (by simp)⟩

/-- A sampler listens to the surface that it shows. -/
theorem listening_bindSampler {declared : List String} {stage : ShaderStage} {name : String}
    {k : SamplerToken} (known : t ∈ m.tokens) (kind : t.kind = .sampler k) :
    Listening m redraw start (bindSampler declared redraw stage name k : Binder δ Unit) := by
  rintro b w ⟨opened, here⟩
  have asked : Opened m redraw start opened b (w.lookedUp (.uniformLocation b.program name)) :=
    here.move rfl rfl rfl rfl
  rw [ends_bindSampler]
  dsimp only
  split
  · exact listening_missing b _ ⟨opened, asked⟩
  · next location _ =>
    refine ⟨fun texture _ => ?_, fun _ _ => trivial⟩
    have granted : Opened m redraw start opened b
        ((w.lookedUp (.uniformLocation b.program name)).allocated .texture) := asked.move rfl rfl rfl rfl
    have seated := granted.performAll (seat b.nextUnit texture k.options.parameters)
    generalize ((w.lookedUp (.uniformLocation b.program name)).allocated .texture).performAll
      (seat b.nextUnit texture k.options.parameters) = w₁ at seated
    have looked := seated.look k.value known (by simp [Token.after, kind])
    obtain ⟨seen, reaches⟩ := seated.reaches
    split
    · next id current =>
      have same : (w₁.looked k.value).shown? (.surface id) = start.shown? (.surface id) :=
        congrArg (fun textures : SurfaceId → Option Handle => (textures id).map fun h => (⟨id, h⟩ : Showing))
          looked.gains.surfaces
      obtain ⟨handles, gains⟩ := World.Gains.subscribe redraw id [] (w₁.looked k.value)
      have all : firstShowings [] (start.shown? (.surface id)).toList =
          (start.shown? (.surface id)).toList := by
        cases start.shown? (.surface id) <;> simp [firstShowings]
      rw [same, all] at handles gains
      rw [List.append_nil] at handles
      refine ⟨_, looked.sampler ⟨seen, w₁.host, reaches, current⟩ ?_ handles gains⟩
      exact Engine.host_subscribe
    · next data current =>
      exact ⟨_, looked.sampler ⟨seen, w₁.host, reaches, current⟩ rfl rfl (.still rfl rfl)⟩

theorem listening_bindAll {vertex fragment : CompiledShader} {config : ProgramConfig}
    (known : ∀ n ∈ vertex.tokens ++ fragment.tokens, n.token ∈ m.tokens)
    (indexed : ∀ t ∈ config.indices, t ∈ m.tokens) :
    Listening m redraw start (bindAll redraw vertex fragment config : Binder δ Unit) := by
  refine keeps_bindAll (fun declared stage n member => ?_) (fun t member => ?_) fun indices _ => ?_
  · exact keeps_bindToken (fun _ kind _ => listening_bindAttribute (known n member) kind)
      (fun _ kind _ => listening_bindElements (known n member) kind) (fun _ _ => listening_bindUniform)
      fun _ kind => listening_bindSampler (known n member) kind
  · exact keeps_bindIndexToken (fun _ _ _ => trivial)
      fun _ kind _ => listening_bindElements (indexed t member) kind
  · intro b w here
    unfold uploadIndices
    rw [ends_bind, ends_discard]
    refine (listening_uploadBuffer b w here).imp ?_ fun _ _ _ _ => trivial
    rintro _ b' w' ⟨opened, filled⟩
    exact ⟨opened, filled.move rfl rfl rfl rfl⟩

end Binder

/-- A compilation adds the listeners of its samplers, each once, and no others. -/
theorem ProgramCache.opened_compile [GraphicsDevice δ] {m : Moment} {cache cache' : ProgramCache}
    {redraw : RedrawKey} {vertex fragment : CompiledShader} {config : ProgramConfig} {w w' : World δ}
    {p : Program} (reaches : ∃ seen, m.Reaches seen w.host)
    (known : ∀ n ∈ vertex.tokens ++ fragment.tokens, n.token ∈ m.tokens)
    (indexed : ∀ t ∈ config.indices, t ∈ m.tokens)
    (compiled : (cache.compile redraw vertex fragment config).run w = ((.ok p, cache'), w')) :
    ∃ opened, Binder.Opened m redraw w opened p.bindings w' := by
  obtain ⟨handle, owned, start, linked, built⟩ := exists_bind_of_compile compiled
  have ends : (bind handle owned redraw vertex fragment config).Ends start
      (fun p w' => ∃ opened, Binder.Opened m redraw w opened p.bindings w') fun _ _ => True := by
    rw [ends_bind]
    refine ⟨fun vertexArray _ => ?_, fun _ _ => trivial⟩
    have first : Binder.Opened m redraw w [] { program := handle, vertexArray }
        (start.allocated .vertexArray) := by
      refine ⟨?_, nofun, ?_, Latest.nil⟩
      · rcases linked with rfl | rfl <;> exact reaches
      · rcases linked with rfl | rfl <;> exact .still rfl rfl
    exact (Binder.listening_bindAll known indexed _ _ ⟨[], first⟩).imp (fun _ _ _ => id)
      fun _ _ _ _ => trivial
  exact ends.of_ok built

/-! ### Flushes -/

namespace SurfaceBinding

variable [GraphicsDevice δ] {b : SurfaceBinding} {slot : BindingSlot} {known : List Handle}
  {f : Flush δ} {fs : List (Flush δ)}

/-- What the flushes of a program do for a sampler that knows some textures. Each asks the accessor once,
and listens to the surface that it gives if the surface's texture is not known yet. -/
def Follows (b : SurfaceBinding) (slot : BindingSlot) : List Handle → List (Flush δ) → Prop
  | _, [] => True
  | known, f :: fs =>
    ∃ t, f.turn? slot = some t ∧
      let new := firstShowings known (b.shows t.world).toList
      World.Gains (heard b.redraw new) t.world t.after ∧
      Follows b slot (new.map Showing.texture ++ known) fs

/-- What the sampler at a slot shows in some flushes. -/
def showings (b : SurfaceBinding) (slot : BindingSlot) (fs : List (Flush δ)) : List Showing :=
  fs.flatMap fun f => ((f.turn? slot).bind fun t => b.shows t.world).toList

/-- How many listeners a surface gets in the turns of the sampler at a slot. -/
def received (slot : BindingSlot) (id : SurfaceId) (fs : List (Flush δ)) : Nat :=
  (fs.map fun f => ((f.turn? slot).map fun t =>
    (t.after.listeners id).length - (t.world.listeners id).length).getD 0).sum

/-- A surface gets one listener for each texture that it is the first to show. -/
theorem Follows.received_eq (follows : b.Follows slot known fs) (id : SurfaceId) :
    received slot id fs = (firstShowings known (b.showings slot fs)).countP (·.surface = id) := by
  induction fs generalizing known with
  | nil => rfl
  | cons f fs ih =>
    obtain ⟨t, turn, gains, later⟩ := follows
    have here : (t.after.listeners id).length - (t.world.listeners id).length =
        (firstShowings known (b.shows t.world).toList).countP (·.surface = id) := by
      rw [gains.listeners, List.length_append, length_heard, Nat.add_sub_cancel_left]
    have shown : b.showings slot (f :: fs) = (b.shows t.world).toList ++ b.showings slot fs := by
      rw [showings, List.flatMap_cons, turn]
      rfl
    have counted : received slot id (f :: fs) =
        ((t.after.listeners id).length - (t.world.listeners id).length) + received slot id fs := by
      rw [received, List.map_cons, List.sum_cons, turn]
      rfl
    rw [counted, here, ih later, shown, firstShowings_append, List.countP_append]

/-- What a sampler listens to, from what it showed when it was bound on. -/
structure Subscribes (b : SurfaceBinding) (slot : BindingSlot) (first : Option Showing)
    (fs : List (Flush δ)) : Prop where
  /-- It starts with the texture that it showed then, and subscribes to the first showing of each other. -/
  follows : b.Follows slot (first.toList.map Showing.texture) fs
  /-- Over all, a surface is subscribed to once for each texture that it is the first to show. -/
  total : ∀ id, first.toList.countP (·.surface = id) + received slot id fs =
    (firstShowings [] (first.toList ++ b.showings slot fs)).countP (·.surface = id)
  /-- While textures tell surfaces apart, each surface that is shown is subscribed to exactly once. -/
  once : Faithful (first.toList ++ b.showings slot fs) →
    ∀ s ∈ first.toList ++ b.showings slot fs,
      first.toList.countP (·.surface = s.surface) + received slot s.surface fs = 1

theorem Follows.subscribes {first : Option Showing}
    (follows : b.Follows slot (first.toList.map Showing.texture) fs) : b.Subscribes slot first fs := by
  have all : firstShowings [] first.toList = first.toList := by
    cases first <;> simp [firstShowings]
  have total (id : SurfaceId) : first.toList.countP (·.surface = id) + received slot id fs =
      (firstShowings [] (first.toList ++ b.showings slot fs)).countP (·.surface = id) := by
    rw [follows.received_eq, firstShowings_append, List.countP_append, all, List.append_nil]
  refine ⟨follows, total, ?_⟩
  intro faithful s member
  rw [total, count_firstShowings faithful, if_pos ⟨s, member, rfl, List.not_mem_nil⟩]

end SurfaceBinding

theorem Program.Runs.follows_surface [GraphicsDevice δ] {p q : Program} {fs : List (Flush δ)}
    {slot : BindingSlot} {u : Update} {b : SurfaceBinding} {known : List Handle} (run : p.Runs fs q)
    (found : p.bindings.queue.entries.lookup slot = some u) (surface : u.surface? = some (b, known)) :
    b.Follows slot known fs := by
  induction fs generalizing p u known with
  | nil => trivial
  | cons f fs ih =>
    obtain ⟨rfl, later⟩ := run
    obtain ⟨t, turn, rfl, next⟩ := exists_turn found
    obtain ⟨surface', gains⟩ := t.surface?_next surface
    exact ⟨t, turn, gains, ih later next surface'⟩

namespace Session

variable [GraphicsDevice δ] {s : Session δ} {p : Program} {steps : List SessionStep}

/-- What the samplers of a program showed and listened to when it was built. -/
structure Past.Opens (past : Past steps s p) (redraw : RedrawKey) (opened : List Opening) : Prop where
  given : ∀ o ∈ opened, ∃ seen now, (past.start.moment past.step.tokens).Reaches seen now ∧
    o.showing = past.start.world.shown? (o.value.run now).1
  gains : World.Gains (heard redraw (opened.filterMap Opening.showing)) past.start.world
    (past.start.perform past.step).world

theorem Past.opens (past : Past steps s p) : ∃ redraw opened, past.Opens redraw opened ∧
    Latest Opening.slot (Opening.Opens redraw) opened past.built.bindings.queue.entries := by
  obtain ⟨i, vertex, fragment, config, call, yielded⟩ := past.compiles
  obtain ⟨stack, found, built⟩ := exists_of_outcome yielded
  have performed := (perform_compile vertex fragment config found).1
  generalize ran : (stack.cache.compile stack.redraw vertex fragment config).run
    (run past.before s).world = answer at performed built
  obtain ⟨⟨result, cache⟩, w⟩ := answer
  obtain rfl : result = .ok past.built := built
  have world : (past.start.perform past.step).world = w := by
    rw [call, Past.start, performed]
  obtain ⟨opened, account⟩ := ProgramCache.opened_compile (m := past.start.moment past.step.tokens)
    ⟨_, .start⟩ (call ▸ SessionStep.mem_tokens_of_named i) (call ▸ SessionStep.mem_tokens_of_indices i) ran
  exact ⟨stack.redraw, opened, ⟨account.given, world ▸ account.gains⟩, account.latest⟩

/-- Every sampler of a program subscribes to each texture that it shows once, when it first shows it, to
the surface that has the texture then. While textures tell surfaces apart, each surface is subscribed to
exactly once. -/
theorem samplers_subscribe_once_per_texture {device : δ} {host : Host}
    (minting : Minting (run steps (fresh device host)).world.events) :
    ∀ p ∈ (run steps (fresh device host)).programs, ∃ past : Past steps (fresh device host) p,
      ∃ redraw opened, past.Opens redraw opened ∧
        ∀ slot u b known, past.built.bindings.queue.entries.lookup slot = some u →
          u.surface? = some (b, known) →
          ∃ o, opened.reverse.find? (fun o => o.slot = slot) = some o ∧
            b = ⟨o.value, redraw⟩ ∧ known = o.showing.toList.map Showing.texture ∧
            b.Subscribes slot o.showing past.flushes := by
  intro p member
  obtain ⟨past⟩ := exists_past steps sound_fresh programs_fresh minting p member
  obtain ⟨redraw, opened, opens, latest⟩ := past.opens
  refine ⟨past, redraw, opened, opens, ?_⟩
  intro slot u b known found surface
  cases u with
  | sampler u =>
    obtain ⟨rfl, rfl⟩ := Prod.mk.inj (Option.some.inj surface)
    obtain ⟨o, last, served⟩ := latest slot u found
    refine ⟨o, last, ?_, served.subscribed, ?_⟩
    · rw [served.value, served.redraw]
    · have follows := past.runs.follows_surface found surface
      rw [served.subscribed] at follows
      exact follows.subscribes
  | attributes u | elements u | uniform u => exact nomatch surface

/-- A sampler of whatever the scene is. -/
def scene : Token :=
  let value : Accessor TextureSource := Accessor.source "scene"
  ⟨13, .sampler ⟨value, {}⟩⟩

/-- A surface is shown, loses its texture to another one, and that one is shown. -/
def retexturing : List SessionStep :=
  let fragment : CompiledShader := ⟨2, "uniform sampler2D scene;\nvoid main scene", [⟨"scene", scene⟩]⟩
  let give (name : String) : SessionStep :=
    .changeHost fun host => { host with sources := [("scene", .surface (.external name))] }
  [.makeStack true 8 8 {}, .changeSurface "first" (some 900), give "first",
    .compile 0 ⟨1, "void main", []⟩ fragment { draw := .arrays 0 1 }, .renderProgram 0,
    .changeSurface "first" none, .changeSurface "second" (some 900), give "second", .renderProgram 0]

theorem retexturing_subscribes_per_texture :
    (rehearsed retexturing).programs.length = 1 ∧
      ∀ p ∈ (rehearsed retexturing).programs, ∃ past : Past retexturing (rehearsed []) p,
        ∃ redraw opened, past.Opens redraw opened ∧
          ∀ slot u b known, past.built.bindings.queue.entries.lookup slot = some u →
            u.surface? = some (b, known) →
            ∃ o, opened.reverse.find? (fun o => o.slot = slot) = some o ∧
              b = ⟨o.value, redraw⟩ ∧ known = o.showing.toList.map Showing.texture ∧
              b.Subscribes slot o.showing past.flushes :=
  ⟨by decide +kernel, samplers_subscribe_once_per_texture (by decide +kernel)⟩

/-- The second surface is shown with its texture, but nobody listens to it. -/
theorem taken_over_texture_unheard :
    (flushesIn retexturing (rehearsed [])).map
        (fun f => f.turns.filterMap fun t => t.world.shown? (t.world.host.source "scene")) =
      [[⟨.external "first", 900⟩], [⟨.external "second", 900⟩]] ∧
    (rehearsed retexturing).world.textureOf? (.external "first") = none ∧
    (rehearsed retexturing).world.listeners (.external "first") = [⟨0, 900⟩] ∧
    (rehearsed retexturing).world.listeners (.external "second") = [] := by decide +kernel

end Session
end ShaderStack

import ShaderStack.Proofs.Binding
import ShaderStack.Proofs.Objects
import ShaderStack.Proofs.Rendering

/-! What the operations that allocate do, up to the answers of the device. Each way in which one of
them can fail has its own clean-up. -/
namespace ShaderStack

open World (Extends Emits)

variable {δ : Type} [GraphicsDevice δ] {w : World δ} {failed : RenderError → World δ → Prop}

theorem Engine.run_allocate {a : Allocation} :
    StateT.run (allocate a : Attempt δ Handle).run w = (w.granted a, w.allocated a) := rfl

namespace RenderTexture

/-- The commands that give a new target its storage. -/
def storage (texture : Handle) (width height : UInt32) : List Command :=
  [.bindTexture (some texture), .textureParameters {},
    .textureImage ⟨.rgba8, width, height, .rgba, .unsignedByte⟩ none, .bindTexture none]

theorem ends_make {width height : UInt32} {done : Nat → World δ → Prop} :
    (make width height).Ends w done failed ↔
      if width = 0 ∨ height = 0 then failed (.resource (.emptyTexture width height)) w
      else
        (∀ texture, w.granted .texture = .ok texture →
          let stored := (w.allocated .texture).performAll (storage texture width height)
          (∀ framebuffer, stored.granted .framebuffer = .ok framebuffer →
            let attached := (stored.allocated .framebuffer).performAll
              [.bindFramebuffer (some framebuffer), .framebufferTexture texture]
            let closed := (attached.probed .framebufferComplete).perform (.bindFramebuffer none)
            if !attached.confirmed .framebufferComplete then
              failed (.resource .incompleteTexture)
                (closed.performAll [.deleteFramebuffer framebuffer, .deleteTexture texture])
            else
              done closed.nextKey (World.setTexture closed.nextKey
                { texture, framebuffer, width, height }
                { closed with nextKey := closed.nextKey + 1 })) ∧
          ∀ e, stored.granted .framebuffer = .error e →
            failed e ((stored.allocated .framebuffer).perform (.deleteTexture texture))) ∧
        ∀ e, w.granted .texture = .error e → failed e (w.allocated .texture) := by
  unfold make storage
  simp only [Attempt.ends_bind, Attempt.ends_ite, Attempt.ends_throw, Attempt.ends_allocate,
    Attempt.ends_lift, Attempt.ends_tryCatch, Attempt.ends_pure, Attempt.ends_modify,
    Engine.run_commands, Engine.run_command, Engine.run_probe, Engine.run_newKey]

theorem run_release {key : Nat} {t : RenderTexture} (present : w.texture? key = some t) :
    ((release key).run w).2 =
      if 1 < t.holders then w.altered key fun t => { t with holders := t.holders - 1 }
      else
        (((Program.dropAll t.programs).run
          { w with textures := w.textures.filter (·.1 ≠ key) }).2).performAll
            [.deleteFramebuffer t.framebuffer, .deleteTexture t.texture] := by
  unfold release
  simp only [Engine.run_bind, Engine.run_get, present]
  by_cases shared : 1 < t.holders
  · rw [if_pos shared, if_pos shared, run_update]
  · rw [if_neg shared, if_neg shared]
    simp only [Engine.run_bind, Engine.run_modify, Engine.run_commands]

end RenderTexture

/-- A readback passes its check if it has texels, is not of luminance, and reads floats exactly from floats. -/
theorem ReadConfig.validate_eq_ok_iff {c : ReadConfig} {width height : UInt32} :
    c.validate width height = .ok () ↔ (width ≠ 0 ∧ height ≠ 0) ∧ c.format ≠ .luminance ∧
      c.internalFormat.isFloat = (c.dataType == .float) := by
  unfold validate
  split
  next empty => exact iff_of_false nofun fun ⟨sides, _⟩ => empty.elim sides.1 sides.2
  next sides =>
    split
    next gray => exact iff_of_false nofun fun ⟨_, coloured, _⟩ => coloured gray
    next coloured =>
      rw [and_iff_right (not_or.mp sides), and_iff_right coloured]
      cases c.internalFormat.isFloat <;> cases c.dataType <;> simp

namespace Stack

/-- A supported surface is asked for its extensions and gets its viewport. -/
theorem ends_make {supported : Bool} {width height : UInt32} {options : StackOptions}
    {done : Stack → World δ → Prop} :
    (make supported width height options).Ends w done failed ↔
      if !supported then failed .noContext w
      else
        let probed := (extensions options).foldl (fun w name => w.probed (.enableExtension name)) w
        let sized := probed.perform (.viewport 0 0 width height)
        done { redraw := sized.nextKey, options, width, height }
          { sized with nextKey := sized.nextKey + 1 } := by
  have probes (names : List String) (w : World δ) (next : PUnit → World δ → Prop) :
      Attempt.Ends (names.forM fun name =>
          discard (liftM (Engine.probe (.enableExtension name) : Engine δ Bool) : Attempt δ Bool))
        w next failed ↔
      next ⟨⟩ (names.foldl (fun w name => w.probed (.enableExtension name)) w) := by
    induction names generalizing w with
    | nil => rfl
    | cons name names ih =>
      change Attempt.Ends (_ >>= fun _ => names.forM _) w next failed ↔ _
      rw [Attempt.ends_bind, Attempt.ends_discard, Attempt.ends_lift]
      exact ih _
  unfold make
  simp only [Attempt.ends_bind, Attempt.ends_ite, Attempt.ends_throw, Attempt.ends_lift,
    Attempt.ends_pure, Engine.run_command, Engine.run_newKey, probes]

theorem ends_makeTarget {internal : InternalFormat} {width height : UInt32}
    {done : ReadTarget → World δ → Prop} :
    (makeTarget internal width height).Ends w done failed ↔
      (∀ renderbuffer, w.granted .renderbuffer = .ok renderbuffer →
        let stored := (w.allocated .renderbuffer).perform
          (.renderbufferStorage renderbuffer internal width height)
        (∀ framebuffer, stored.granted .framebuffer = .ok framebuffer →
          let attached := (stored.allocated .framebuffer).performAll
            [.bindFramebuffer (some framebuffer), .framebufferRenderbuffer renderbuffer]
          if !attached.confirmed .framebufferComplete then
            failed (.resource (.incompleteReadback internal))
              ((attached.probed .framebufferComplete).performAll
                [.bindFramebuffer none, .deleteFramebuffer framebuffer,
                  .deleteRenderbuffer renderbuffer])
          else done { framebuffer, renderbuffer } (attached.probed .framebufferComplete)) ∧
        ∀ e, stored.granted .framebuffer = .error e →
          failed e ((stored.allocated .framebuffer).perform
            (.deleteRenderbuffer renderbuffer))) ∧
      ∀ e, w.granted .renderbuffer = .error e → failed e (w.allocated .renderbuffer) := by
  unfold makeTarget
  simp only [Attempt.ends_bind, Attempt.ends_ite, Attempt.ends_throw, Attempt.ends_allocate,
    Attempt.ends_lift, Attempt.ends_tryCatch, Attempt.ends_pure, Engine.run_commands,
    Engine.run_command, Engine.run_probe]
  rfl

/-- The target of a size and format is made once. -/
theorem ends_bindTarget {s : Stack} {c : ReadConfig} {width height : UInt32}
    {done : Handle × Stack → World δ → Prop} :
    (bindTarget c width height s).Ends w done failed ↔
      match s.targets.lookup (c.resolve width height) with
      | some target =>
        done (target.framebuffer, s) (w.perform (.bindFramebuffer (some target.framebuffer)))
      | none =>
        (makeTarget c.internalFormat width height).Ends w
          (fun target w' => done (target.framebuffer,
            { s with targets := s.targets ++ [(c.resolve width height, target)] }) w') failed := by
  unfold bindTarget
  dsimp only
  cases s.targets.lookup (c.resolve width height) with
  | some target =>
    simp only [Attempt.ends_bind, Attempt.ends_lift, Attempt.ends_pure, Engine.run_command]
  | none => simp only [Attempt.ends_bind, Attempt.ends_pure]

/-- The pixels that a readback asks for. -/
def pixelRead (c : ReadConfig) (width height : UInt32) : PixelRead :=
  { x := c.x, y := c.y, width, height, format := c.format, pixelType := c.dataType,
    bytes := c.bufferLength width height * c.dataType.byteSize }

/-- A frame is drawn into the target and read, and the default framebuffer gets its viewport
back. -/
theorem ends_read {s : Stack} {c : ReadConfig} {done : PixelBuffer × Stack → World δ → Prop} :
    (s.read c).Ends w done failed ↔
      let width := c.width.getD s.width
      let height := c.height.getD s.height
      match c.validate width height with
      | .error e => failed e w
      | .ok () =>
        (bindTarget c width height s).Ends w (fun answer w' =>
          let drawn := (answer.2.renderTo (some answer.1) width height).run
            (w'.perform (.clear .opaqueBlack .one))
          let stored := (GraphicsDevice.read (pixelRead c width height) drawn.2.device).1
          done (⟨c.dataType, c.bufferLength width height, fun i => (stored i).getD 0⟩, drawn.1)
            ((drawn.2.readBack (pixelRead c width height)).performAll
              [.bindFramebuffer none, .viewport 0 0 drawn.1.width drawn.1.height])) failed := by
  unfold read clear pixelRead
  simp only [Attempt.ends_bind, Attempt.ends_except, Attempt.ends_lift, Attempt.ends_pure,
    Engine.run_command, Engine.run_commands]
  cases c.validate (c.width.getD s.width) (c.height.getD s.height) <;> rfl

theorem run_drop {s : Stack} :
    (s.drop.run w).2 =
      let programs := ((Program.dropAll s.programs).run w).2
      let layers := s.layers.foldl (fun w key => ((RenderTexture.release key).run w).2) programs
      (s.targets.foldl (fun w t => w.performAll
        [.deleteFramebuffer t.2.framebuffer, .deleteRenderbuffer t.2.renderbuffer]) layers).performAll
        (s.cache.entries.map fun entry => .deleteProgram entry.2) := by
  unfold drop ProgramCache.drop
  simp only [Engine.run_bind, Engine.run_forM, Engine.run_commands]

end Stack

namespace ProgramCache

/-- A pair that is not reused is linked anew; the flag says that its program is the caller's. -/
theorem run_link {cache : ProgramCache} {vertex fragment : CompiledShader} {cached : Bool} :
    (cache.link vertex fragment cached).run w =
      match if cached then cache.find? vertex.template fragment.template else none with
      | some handle => ((.ok (handle, false), cache), w)
      | none =>
        let a := Allocation.program vertex.source fragment.source
        match w.granted a with
        | .error e => ((.error e, cache), w.allocated a)
        | .ok handle => ((.ok (handle, !cached),
            { entries :=
                if cached then ((vertex.template, fragment.template), handle) :: cache.entries
                else cache.entries
              links := cache.links + 1 }), w.allocated a) := by
  unfold link
  cases (if cached then cache.find? vertex.template fragment.template else none) with
  | some handle => rfl
  | none =>
    simp only [Engine.run_bind, Engine.run_allocate]
    cases w.granted (.program vertex.source fragment.source) <;> rfl

/-- The program that binding yields, whole or not. -/
def bound (owned : Bool) (config : ProgramConfig) (b : Bindings) : Program :=
  { bindings := b
    mode := config.mode.getD (b.modes.head?.getD .triangles)
    draw := config.draw
    hook := config.hook
    owned }

/-- A program that could not be bound is dropped with all that was bound of it. -/
theorem ends_bind {handle : Handle} {owned : Bool} {redraw : RedrawKey}
    {vertex fragment : CompiledShader} {config : ProgramConfig} {done : Program → World δ → Prop} :
    (bind handle owned redraw vertex fragment config).Ends w done failed ↔
      (∀ vertexArray, w.granted .vertexArray = .ok vertexArray →
        (Binder.bindAll redraw vertex fragment config).Ends { program := handle, vertexArray }
          (w.allocated .vertexArray) (fun _ b w' => done (bound owned config b) w')
          fun e b w' => failed e ((bound owned config b).drop.run w').2) ∧
      ∀ e, w.granted .vertexArray = .error e →
        failed e (if owned then (w.allocated .vertexArray).perform (.deleteProgram handle)
          else w.allocated .vertexArray) := by
  unfold bind
  simp only [Attempt.ends_bind, Attempt.ends_ite, Attempt.ends_throw, Attempt.ends_allocate,
    Attempt.ends_lift, Attempt.ends_tryCatch, Engine.run_command]
  refine and_congr (forall_congr' fun vertexArray => imp_congr_right fun _ => ?_)
    (forall_congr' fun e => imp_congr_right fun _ => ?_)
  · unfold Binder.Ends
    generalize StateT.run (StateT.run (Binder.bindAll redraw vertex fragment config).run
      { program := handle, vertexArray }) (w.allocated .vertexArray) = answer
    obtain ⟨⟨e | ⟨⟩, b⟩, w'⟩ := answer <;> rfl
  · cases owned <;> rfl

/-- Names are checked first, then the pair is linked, then its tokens are bound. -/
theorem run_compile {cache : ProgramCache} {redraw : RedrawKey} {vertex fragment : CompiledShader}
    {config : ProgramConfig} :
    (cache.compile redraw vertex fragment config).run w =
      match checkSharedNames vertex fragment with
      | .error e => ((.error e, cache), w)
      | .ok () =>
        match (cache.link vertex fragment config.cached).run w with
        | ((.error e, cache), w) => ((.error e, cache), w)
        | ((.ok (handle, owned), cache), w) =>
          let built := (bind handle owned redraw vertex fragment config).run.run w
          ((built.1, cache), built.2) := by
  unfold compile
  cases checkSharedNames vertex fragment with
  | error e => rfl
  | ok fit =>
    simp only [Engine.run_bind]
    generalize StateT.run (cache.link vertex fragment config.cached) w = linked
    obtain ⟨⟨e | ⟨handle, owned⟩, cache'⟩, w'⟩ := linked <;> rfl

/-- A program that is built was bound to a handle that is its own unless it is cached. -/
theorem bind_of_compile {cache : ProgramCache} {redraw : RedrawKey} {vertex fragment : CompiledShader}
    {config : ProgramConfig} {p : Program}
    (built : ((cache.compile redraw vertex fragment config).run w).1.1 = .ok p) :
    ∃ handle w', (w' = w ∨ w' = w.allocated (.program vertex.source fragment.source)) ∧
      ((bind handle (!config.cached) redraw vertex fragment config).run.run w').1 = .ok p := by
  rw [run_compile] at built
  cases conflict : checkSharedNames vertex fragment with
  | error e => simp [conflict] at built
  | ok fit =>
    rw [conflict, run_link] at built
    cases reuse : (if config.cached then cache.find? vertex.template fragment.template else none) with
    | some handle =>
      have cached : config.cached = true := by
        by_contra uncached
        simp [uncached] at reuse
      rw [reuse] at built
      rw [cached]
      exact ⟨handle, w, .inl rfl, built⟩
    | none =>
      rw [reuse] at built
      dsimp only at built
      cases granted : w.granted (.program vertex.source fragment.source) with
      | error e =>
        rw [granted] at built
        simp at built
      | ok handle =>
        rw [granted] at built
        exact ⟨handle, _, .inr rfl, built⟩

/-- A compilation ends where it starts, with the request for its program, or with a binding. -/
theorem world_of_compile (fits : World δ → Prop) {cache : ProgramCache} {redraw : RedrawKey}
    {vertex fragment : CompiledShader} {config : ProgramConfig}
    (rejected : ∀ e, checkSharedNames vertex fragment = .error e → fits w)
    (asked : fits (w.allocated (.program vertex.source fragment.source)))
    (bound : ∀ handle owned w', w' = w ∨ w' = w.allocated (.program vertex.source fragment.source) →
      (bind handle owned redraw vertex fragment config).Ends w' (fun _ => fits) fun _ => fits) :
    fits ((cache.compile redraw vertex fragment config).run w).2 := by
  have ended (handle : Handle) (owned : Bool) (w' : World δ)
      (start : w' = w ∨ w' = w.allocated (.program vertex.source fragment.source)) :
      fits ((bind handle owned redraw vertex fragment config).run.run w').2 :=
    Attempt.world_of_ends (bound handle owned w' start)
  rw [run_compile]
  cases conflict : checkSharedNames vertex fragment with
  | error e => exact rejected e conflict
  | ok fit =>
    rw [run_link]
    cases (if config.cached then cache.find? vertex.template fragment.template else none) with
    | some handle => exact ended handle false w (.inl rfl)
    | none =>
      dsimp only
      cases w.granted (.program vertex.source fragment.source) with
      | error e => exact asked
      | ok handle => exact ended handle _ _ (.inr rfl)

end ProgramCache

section Quiet

variable {view : RenderTexture → RenderTexture}

/-- Dropping a program deletes what it consists of. -/
theorem Program.disposes_drop {p : Program} : Extends (·.isDisposal) view w (p.drop.run w).2 := by
  have objects : Extends (·.isDisposal) view w
      (w.performAll (p.bindings.objects.map BoundObject.deletion)) := by
    refine Extends.performAll ?_
    intro c member
    obtain ⟨object, _, rfl⟩ := List.mem_map.mp member
    cases object <;> rfl
  have released : Extends (·.isDisposal) view w (p.bindings.release.run w).2 := by
    unfold Bindings.release
    simp only [Engine.run_bind, Engine.run_commands, Engine.run_command]
    exact objects.trans (Extends.emit rfl)
  unfold drop
  simp only [Engine.run_bind]
  by_cases owned : p.owned
  · rw [if_pos owned]
    exact released.trans (Extends.emit rfl)
  · rw [if_neg owned]
    exact released

theorem Program.extends_drop {p : Program} : Extends (·.isErasure) view w (p.drop.run w).2 :=
  disposes_drop.mono fun _ => Event.isErasure_of_isDisposal

theorem Program.extends_dropAll {ps : List Program} :
    Extends (·.isErasure) view w ((dropAll ps).run w).2 := by
  unfold dropAll
  rw [Engine.run_forM]
  induction ps generalizing w with
  | nil => exact Extends.refl w
  | cons p ps ih => exact extends_drop.trans ih

theorem Program.erases_drop {p : Program} : Emits (·.isErasure) w (p.drop.run w).2 := by
  have run : Extends (·.isErasure) RenderTexture.shell w (p.drop.run w).2 := extends_drop
  exact run.events

theorem Program.erases_dropAll {ps : List Program} :
    Emits (·.isErasure) w ((dropAll ps).run w).2 := by
  have run : Extends (·.isErasure) RenderTexture.shell w ((dropAll ps).run w).2 := extends_dropAll
  exact run.events

theorem RenderTexture.erases_release {key : Nat} :
    Emits (·.isErasure) w ((release key).run w).2 := by
  cases present : w.texture? key with
  | none =>
    have same : ((release key).run w).2 = w := by
      unfold release
      simp only [Engine.run_bind, Engine.run_get, present]
      rfl
    rw [same]
    exact Emits.refl w
  | some t =>
    rw [run_release present]
    split
    · exact Emits.silent World.events_altered
    · have removed : Emits (·.isErasure) w { w with textures := w.textures.filter (·.1 ≠ key) } :=
        Emits.silent rfl
      refine (removed.trans Program.erases_dropAll).pushAll ?_
      simp [Event.isErasure, Event.deletes?, Command.deletes?]

theorem Stack.erases_drop {s : Stack} : Emits (·.isErasure) w (s.drop.run w).2 := by
  rw [run_drop]
  refine (Emits.trans ?_ (Emits.foldl fun w t _ => ?_)).pushAll ?_
  · exact Program.erases_dropAll.trans (Emits.foldl fun w key _ => RenderTexture.erases_release)
  · exact Emits.performAll (by simp [Event.isErasure, Event.deletes?, Command.deletes?])
  · intro c member
    obtain ⟨entry, _, rfl⟩ := List.mem_map.mp member
    rfl

/-- Binding makes building calls only, and fills no texture. -/
theorem Binder.extends_path {b b' : Bindings} {w' : World δ} (path : Path (b, w) (b', w')) :
    Extends (·.isEquipping) RenderTexture.bare w w' := by
  have walk (q : Bindings × World δ) (path : Path (b, w) q) :
      Extends (·.isEquipping) RenderTexture.bare w q.2 := by
    induction path with
    | refl => exact Extends.refl w
    | tail _ step ih =>
      refine ih.trans ?_
      cases step with
      | note _ _ _ => exact Extends.refl _
      | lookup l =>
        dsimp only
        exact Extends.emit (by rfl)
      | look value => exact Extends.looked
      | listen id s _ => exact Extends.listen
      | refused resource _ =>
        dsimp only
        exact Extends.emit (by rcases resource with rfl | rfl <;> rfl)
      | buffer _ target data pointers =>
        refine (Extends.emit (by rfl)).trans (Extends.performAll ?_)
        intro c member
        simp only [Binder.fill, List.mem_append, List.mem_cons, List.mem_map, List.not_mem_nil,
          or_false] at member
        rcases member with (rfl | rfl | rfl) | ⟨pointer, _, rfl⟩ | rfl <;> rfl
      | texture _ unit parameters =>
        refine (Extends.emit (by rfl)).trans (Extends.performAll ?_)
        intro c member
        simp only [Binder.seat, List.mem_cons, List.not_mem_nil, or_false] at member
        rcases member with rfl | rfl | rfl <;> rfl
  exact walk (b', w') path

theorem ProgramCache.extends_bind (handle : Handle) (owned : Bool) (redraw : RedrawKey)
    (vertex fragment : CompiledShader) (config : ProgramConfig) :
    (bind handle owned redraw vertex fragment config).Ends w
      (fun _ w' => Extends (·.isEquipping) RenderTexture.bare w w')
      (fun _ w' => Extends (·.isEquipping) RenderTexture.bare w w') := by
  rw [ends_bind]
  refine ⟨?_, ?_⟩
  · intro vertexArray _
    have start : Extends (·.isEquipping) RenderTexture.bare w (w.allocated .vertexArray) :=
      Extends.emit (by rfl)
    refine (Binder.follows_bindAll _ _ _ .refl).imp ?_ ?_
    · exact fun _ b w' path => start.trans (Binder.extends_path path)
    · intro _ b w' path
      have dropped : Extends (·.isEquipping) RenderTexture.bare w' ((bound owned config b).drop.run w').2 :=
        Program.disposes_drop.mono fun _ => Event.isEquipping_of_isDisposal
      exact (start.trans (Binder.extends_path path)).trans dropped
  · intro e _
    split
    · exact (Extends.emit (by rfl)).trans (Extends.emit (by rfl))
    · exact Extends.emit (by rfl)

theorem ProgramCache.equips_compile {cache : ProgramCache} {redraw : RedrawKey}
    {vertex fragment : CompiledShader} {config : ProgramConfig} :
    Extends (·.isEquipping) RenderTexture.bare w
      ((cache.compile redraw vertex fragment config).run w).2 := by
  have asked : Extends (·.isEquipping) RenderTexture.bare w
      (w.allocated (.program vertex.source fragment.source)) := Extends.emit (by rfl)
  refine world_of_compile _ (fun _ _ => Extends.refl w) asked fun handle owned w' start => ?_
  have linked : Extends (·.isEquipping) RenderTexture.bare w w' := by
    rcases start with rfl | rfl
    · exact Extends.refl _
    · exact asked
  exact (extends_bind handle owned redraw vertex fragment config).imp (fun _ _ => linked.trans)
    fun _ _ => linked.trans

theorem ProgramCache.builds_compile {cache : ProgramCache} {redraw : RedrawKey}
    {vertex fragment : CompiledShader} {config : ProgramConfig} :
    Extends (·.isBuilding) RenderTexture.bare w
      ((cache.compile redraw vertex fragment config).run w).2 :=
  equips_compile.mono fun _ => Event.isBuilding_of_isEquipping

theorem ProgramCache.extends_compile {cache : ProgramCache} {redraw : RedrawKey}
    {vertex fragment : CompiledShader} {config : ProgramConfig} :
    Extends (·.isQuiet) RenderTexture.bare w
      ((cache.compile redraw vertex fragment config).run w).2 :=
  builds_compile.mono fun _ => Event.isQuiet_of_isBuilding

end Quiet
end ShaderStack

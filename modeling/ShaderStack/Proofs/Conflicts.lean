import ShaderStack.Proofs.Allocation
import ShaderStack.Proofs.Naming

/-! Names that the two stages of a program cannot share.

The check compares each fragment token with the first other vertex token of its name. Up to scope
references names are unique in a stage, so that a conflict goes unseen exactly if a reference to its
name stands before the vertex token. -/
namespace ShaderStack

namespace NamedToken

/-- Different tokens of two stages with one name and different types. -/
def Clashes (v f : NamedToken) : Prop :=
  v.name = f.name ∧ v.token.id ≠ f.token.id ∧
    ∃ a b, v.token.dataType? = some a ∧ f.token.dataType? = some b ∧ a ≠ b

/-- No other token's scope reference to its name stands before a token in its stage. -/
def ExposedTo (v f : NamedToken) (stage : List NamedToken) : Prop :=
  ∃ before after, stage = before ++ v :: after ∧
    ∀ o ∈ before, o.token.isScope → o.name = v.name → o.token.id = f.token.id

end NamedToken

/-- The tokens with a type are those that are no scope references. -/
theorem Token.isScope_of_dataType {t : Token} {a : DataType} (typed : t.dataType? = some a) :
    t.isScope = false := by
  unfold dataType? TokenKind.dataType? at typed
  unfold isScope
  cases kind : t.kind <;> simp_all

section Check

variable {vertex fragment : List NamedToken} {n v f : NamedToken}

/-- What the check compares a fragment token with. -/
def rival? (vertex : List NamedToken) (f : NamedToken) : Option NamedToken :=
  vertex.find? fun o => o.name = f.name && o.token.id ≠ f.token.id

/-- A conflict is one of types, and an error of linking. -/
theorem nameConflict?_isSome_iff :
    (nameConflict? vertex f).isSome ↔ ∃ v, rival? vertex f = some v ∧
      ∃ a b, v.token.dataType? = some a ∧ f.token.dataType? = some b ∧ a ≠ b := by
  unfold nameConflict? rival?
  cases f.token.dataType? with
  | none => simp
  | some b =>
    cases vertex.find? fun o => o.name = f.name && o.token.id ≠ f.token.id with
    | none => simp
    | some v =>
      cases typed : v.token.dataType? with
      | none => simp [typed]
      | some a => by_cases same : a = b <;> simp [typed, same]

theorem stage_of_nameConflict {e : RenderError} (conflict : nameConflict? vertex f = some e) :
    ∃ log, e = .buildFailure .link log := by
  unfold nameConflict? at conflict
  simp only [Option.bind_eq_bind, Option.bind_eq_some_iff] at conflict
  obtain ⟨b, _, v, _, a, _, verdict⟩ := conflict
  split at verdict
  · simp at verdict
  · exact ⟨_, (Option.some.inj verdict).symm⟩

/-- Where only scope references repeat names, a typed token is found unless a reference hides it. -/
theorem rival?_eq_some_iff {a : DataType}
    (distinct : ((vertex.filter fun n => !n.token.isScope).map NamedToken.name).Nodup)
    (typed : v.token.dataType? = some a) : rival? vertex f = some v ↔
      v.name = f.name ∧ v.token.id ≠ f.token.id ∧ v.ExposedTo f vertex := by
  have plain : v.token.isScope = false := Token.isScope_of_dataType typed
  unfold rival?
  rw [List.find?_eq_some_iff_append]
  constructor
  · rintro ⟨rivals, before, after, split, others⟩
    obtain ⟨name, apart⟩ : v.name = f.name ∧ v.token.id ≠ f.token.id := by simpa using rivals
    refine ⟨name, apart, before, after, split, ?_⟩
    intro o early _ same
    have passed := others o early
    simpa [same.trans name] using passed
  · rintro ⟨name, apart, before, after, rfl, hidden⟩
    refine ⟨by simp [name, apart], before, after, rfl, ?_⟩
    intro o early
    have other : o.name = f.name → o.token.id = f.token.id := by
      intro same
      cases scope : o.token.isScope with
      | true => exact hidden o early scope (same.trans name.symm)
      | false =>
        -- two names of typed tokens in one stage
        have twice : o.name ∈ (before.filter fun n => !n.token.isScope).map NamedToken.name :=
          List.mem_map_of_mem (List.mem_filter.mpr ⟨early, by simp [scope]⟩)
        simp only [List.filter_append, List.filter_cons, plain, Bool.not_false, if_true, List.map_append,
          List.map_cons, List.nodup_append] at distinct
        exact absurd (same.trans name.symm) (distinct.2.2 _ twice _ List.mem_cons_self)
    simpa [imp_iff_not_or] using other

end Check

/-- The check fails exactly for a clash that no scope reference hides. -/
theorem checkSharedNames_error_iff {vertex fragment : CompiledShader}
    (distinct : ((vertex.tokens.filter fun n => !n.token.isScope).map NamedToken.name).Nodup) :
    (∃ log, checkSharedNames vertex fragment = .error (.buildFailure .link log)) ↔
      ∃ v ∈ vertex.tokens, ∃ f ∈ fragment.tokens, v.Clashes f ∧ v.ExposedTo f vertex.tokens := by
  have found : (∃ log, checkSharedNames vertex fragment = .error (.buildFailure .link log)) ↔
      ∃ f ∈ fragment.tokens, (nameConflict? vertex.tokens f).isSome := by
    rw [← List.findSome?_isSome_iff]
    unfold checkSharedNames
    cases conflict : fragment.tokens.findSome? (nameConflict? vertex.tokens) with
    | none => simp
    | some e =>
      obtain ⟨f, _, conflict⟩ := List.exists_of_findSome?_eq_some conflict
      obtain ⟨log, rfl⟩ := stage_of_nameConflict conflict
      simp
  rw [found]
  constructor
  · rintro ⟨f, member, conflict⟩
    obtain ⟨v, rival, a, b, typed, typed', other⟩ := nameConflict?_isSome_iff.mp conflict
    obtain ⟨name, apart, exposed⟩ := (rival?_eq_some_iff distinct typed).mp rival
    exact ⟨v, List.mem_of_find?_eq_some rival, f, member, ⟨name, apart, a, b, typed, typed', other⟩, exposed⟩
  · rintro ⟨v, _, f, member, ⟨name, apart, a, b, typed, typed', other⟩, exposed⟩
    exact ⟨f, member, nameConflict?_isSome_iff.mpr
      ⟨v, (rival?_eq_some_iff distinct typed).mpr ⟨name, apart, exposed⟩, a, b, typed, typed', other⟩⟩

theorem checkSharedNames_cases (vertex fragment : CompiledShader) :
    checkSharedNames vertex fragment = .ok () ∨
      ∃ log, checkSharedNames vertex fragment = .error (.buildFailure .link log) := by
  unfold checkSharedNames
  cases conflict : fragment.tokens.findSome? (nameConflict? vertex.tokens) with
  | none => exact .inl rfl
  | some e =>
    obtain ⟨f, _, conflict⟩ := List.exists_of_findSome?_eq_some conflict
    obtain ⟨log, rfl⟩ := stage_of_nameConflict conflict
    exact .inr ⟨log, rfl⟩

section Compile

open World (Extends Emits)

variable {δ : Type} {w w' : World δ}

theorem World.Emits.length_le {allowed : Event → Prop} (run : Emits allowed w w') :
    w.events.length ≤ w'.events.length := by
  obtain ⟨es, split, _⟩ := run
  simp [split]

variable [GraphicsDevice δ]

/-- Binding starts with an allocation, whatever comes of it. -/
theorem ProgramCache.length_bind (handle : Handle) (owned : Bool) (redraw : RedrawKey)
    (vertex fragment : CompiledShader) (config : ProgramConfig) :
    (bind handle owned redraw vertex fragment config).Ends w
      (fun _ w' => w.events.length < w'.events.length)
      (fun _ w' => w.events.length < w'.events.length) := by
  have grown {w' : World δ} (rest : Emits (fun _ => True) (w.allocated .vertexArray) w') :
      w.events.length < w'.events.length := by
    refine lt_of_lt_of_le ?_ rest.length_le
    simp
  rw [ends_bind]
  refine ⟨?_, ?_⟩
  · intro vertexArray _
    refine (Binder.follows_bindAll _ _ _ .refl).imp ?_ ?_
    · exact fun _ b w' path => grown ((Binder.extends_path path).events.mono fun _ _ => trivial)
    · intro _ b w' path
      have dropped : Extends (·.isErasure) RenderTexture.bare w' ((bound owned config b).drop.run w').2 :=
        Program.extends_drop
      have bound := (Binder.extends_path path).events
      exact grown ((bound.mono fun _ _ => trivial).trans (dropped.events.mono fun _ _ => trivial))
  · intro e _
    split
    · exact grown (Emits.emit trivial)
    · exact grown (Emits.refl _)

/-- A compilation whose names pass asks the context for something. -/
theorem ProgramCache.length_compile (cache : ProgramCache) (redraw : RedrawKey)
    {vertex fragment : CompiledShader} (config : ProgramConfig)
    (passes : checkSharedNames vertex fragment = .ok ()) :
    w.events.length < ((cache.compile redraw vertex fragment config).run w).2.events.length := by
  have asked : w.events.length < (w.allocated (.program vertex.source fragment.source)).events.length := by
    simp
  refine world_of_compile (fun w' => w.events.length < w'.events.length) ?_ asked
    fun handle owned w' start => ?_
  · intro e fails
    rw [passes] at fails
    exact nomatch fails
  · have linked : w.events.length ≤ w'.events.length := by
      rcases start with rfl | rfl
      · exact le_rfl
      · exact asked.le
    exact (length_bind handle owned redraw vertex fragment config).imp
      (fun _ _ => lt_of_le_of_lt linked) fun _ _ => lt_of_le_of_lt linked

/-- A compilation fails to link before it asks the context for anything exactly if a vertex token
clashes with a fragment token and no scope reference to their name stands before it. Without any
clash the names pass. -/
theorem compile_refuses_exposed_clashes (cache : ProgramCache) (redraw : RedrawKey)
    (vertex fragment : Template) (config : ProgramConfig) (w : World δ) :
    let built := (cache.compile redraw vertex.compile fragment.compile config).run w
    ((∃ log, built.1.1 = .error (.buildFailure .link log)) ∧ built.2.events = w.events ↔
      ∃ v ∈ vertex.compile.tokens, ∃ f ∈ fragment.compile.tokens,
        v.Clashes f ∧ v.ExposedTo f vertex.compile.tokens) ∧
    ((∀ v ∈ vertex.compile.tokens, ∀ f ∈ fragment.compile.tokens, ¬ v.Clashes f) →
      checkSharedNames vertex.compile fragment.compile = .ok ()) := by
  have named : NamedExactly vertex.compile.tokens := nameTokens_exact _
  have check : (∃ log, checkSharedNames vertex.compile fragment.compile =
      .error (.buildFailure .link log)) ↔ ∃ v ∈ vertex.compile.tokens, ∃ f ∈ fragment.compile.tokens,
        v.Clashes f ∧ v.ExposedTo f vertex.compile.tokens := checkSharedNames_error_iff named.distinct
  dsimp only
  rcases checkSharedNames_cases vertex.compile fragment.compile with passes | ⟨log, fails⟩
  · refine ⟨?_, fun _ => passes⟩
    rw [← check, passes]
    refine ⟨?_, by simp⟩
    rintro ⟨_, silent⟩
    have asked := ProgramCache.length_compile cache redraw config (w := w) passes
    rw [silent] at asked
    exact absurd asked (lt_irrefl _)
  · have clash := check.mp ⟨log, fails⟩
    have refused : (cache.compile redraw vertex.compile fragment.compile config).run w =
        ((.error (.buildFailure .link log), cache), w) := by
      rw [ProgramCache.run_compile, fails]
    refine ⟨?_, ?_⟩
    · rw [refused]
      exact iff_of_true ⟨⟨log, rfl⟩, rfl⟩ clash
    · intro none
      obtain ⟨v, here, f, there, clashes, _⟩ := clash
      exact absurd clashes (none v here f there)

/-- A number that a reference to its name goes before. -/
def shadedVertex : Template :=
  let amount : UniformToken := ⟨.vector .real .one, Accessor.value "amount", none⟩
  ⟨1, .ofParts [.token ⟨10, .scope "u_0"⟩, .token ⟨11, .uniform amount⟩]⟩

/-- A vector, which gets the same name. -/
def shadedFragment : Template :=
  let colour : UniformToken := ⟨.vector .real .three, Accessor.value "colour", none⟩
  ⟨2, .ofParts [.token ⟨12, .uniform colour⟩]⟩

/-- The two clash and pass, since the reference is what the vector is compared with. -/
theorem shaded_clash_passes :
    (∃ v ∈ shadedVertex.compile.tokens, ∃ f ∈ shadedFragment.compile.tokens, v.Clashes f) ∧
      checkSharedNames shadedVertex.compile shadedFragment.compile = .ok () := by
  refine ⟨⟨shadedVertex.compile.tokens[1], List.getElem_mem _, shadedFragment.compile.tokens[0],
    List.getElem_mem _, ?_⟩, by decide +kernel⟩
  exact ⟨by decide +kernel, by decide, .vector .real .one, .vector .real .three, rfl, rfl, by decide⟩

end Compile
end ShaderStack

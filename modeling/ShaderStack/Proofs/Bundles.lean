import ShaderStack.Proofs.Assembly
import ShaderStack.Proofs.Cadence
import ShaderStack.Proofs.Settling
import ShaderStack.Proofs.Splicing

/-! What the bundled scenes are made of.

Their arrays never change, their uniforms follow the time or stay the same, and their only sampler shows the
layer once there is one. So all of their tokens are calm, and what is left of building them is evaluated: that
no token is refused, and that the two stages of each pass fit and compile. -/
namespace ShaderStack

variable {sources : List (String × TextureSource)} {α β : Type}

namespace Authoring

/-- Whatever is built satisfies a condition, if nothing is refused. -/
def Makes (m : Authoring α) (good : α → Prop) : Prop :=
  ∀ host,
    match (m.run.run host).1 with
    | .ok a => good a
    | .error _ => True

variable {m : Authoring α} {f : α → Authoring β} {good : α → Prop} {better : β → Prop}

theorem Makes.bind (first : Makes m good) (second : ∀ a, good a → Makes (f a) better) :
    Makes (m >>= f) better := by
  intro host
  have here := first host
  simp only [ExceptT.run_bind, StateT.run_bind]
  rcases answer : StateT.run m.run host with ⟨e | a, host'⟩ <;> rw [answer] at here
  · trivial
  · exact second a here host'

theorem makes_pure {a : α} (here : good a) : Makes (pure a) good := fun _ => here

theorem makes_any : Makes m fun _ => True := fun _ => by split <;> trivial

theorem makes_lift {m : StateM Host α} (each : ∀ host, good (m.run host).1) :
    Makes (liftM m : Authoring α) good := each

end Authoring

open Authoring

namespace Token

/-- A name changes nothing of what a token reads. -/
theorem Calm.withName {t : Token} (calm : t.Calm sources) (name : String) (host : Host) :
    ((t.withName name).run host).1.Calm sources := by
  change Calm sources ⟨_, t.kind.rename name⟩
  unfold Calm at *
  cases kind : t.kind <;> rw [kind] at calm <;> exact calm

theorem makes_ofKind {kind : TokenKind} :
    Makes (liftM (ofKind kind) : Authoring Token) fun t => t.kind = kind := fun _ => rfl

theorem makes_vertexAttribute {type : DataType} {value : Accessor HostArray} {options : AttributeOptions} :
    Makes (vertexAttribute type value options) fun t =>
      t.kind = .vertexAttribute ⟨type, value, options⟩ :=
  makes_any.bind fun _ _ => makes_any.bind fun _ _ => makes_ofKind

theorem makes_sampler {value : Accessor TextureSource} {options : SamplerOptions} :
    Makes (sampler value options) fun t => t.kind = .sampler ⟨value, options⟩ := by
  refine makes_any.bind fun source _ => ?_
  cases source with
  | pixels data => exact makes_any.bind fun _ _ => makes_ofKind
  | surface id => exact makes_ofKind

theorem makes_scope {name : String} : Makes (scope name) fun t => t.kind = .scope name := by
  unfold scope
  split
  · exact makes_ofKind
  · exact fun _ => trivial

end Token

namespace Scene

theorem makes_fixedAttribute {arity : Arity} {values : List Single} {name : String} :
    Makes (fixedAttribute arity values name) fun t => ∀ sources, t.Calm sources := by
  refine makes_any.bind fun data _ => Token.makes_vertexAttribute.bind fun t kind => ?_
  refine makes_lift fun host sources => Token.Calm.withName ?_ name host
  unfold Token.Calm
  rw [kind]
  exact ⟨data, rfl⟩

theorem makes_withName {t : Token} {name : String} (calm : ∀ sources, t.Calm sources) :
    Makes (liftM (t.withName name) : Authoring Token) fun t => ∀ sources, t.Calm sources :=
  makes_lift fun host _ => (calm _).withName name host

theorem makes_template {parts : List TemplatePart} :
    Makes (liftM (template parts) : Authoring Template) fun t => t.body = .ofParts parts := fun _ => rfl

/-- Every matrix of a matrix uniform is taken. -/
theorem calm_matrix {value : Accessor (Vector Single 16)} {t : Token} {name : Option String}
    (kind : t.kind = .uniform ⟨.matrix .four, do return .matrix .four (← value), name⟩)
    (untouched : ∀ host, (value.run host).2 = host) : t.Calm sources := by
  unfold Token.Calm
  rw [kind]
  intro host
  have whole : (value.run host).1.toList.length = 4 * 4 := Vector.length_toList
  refine ⟨untouched host, ?_⟩
  change (((some (value.run host).1.toList).bind fun values =>
    if values.length = 4 * 4 then some (UniformPush.matrix 4 values) else none)).isSome = true
  rw [Option.bind_some, if_pos whole]
  rfl

theorem makes_matrixUniform {value : Accessor (Vector Single 16)} {name : String}
    (untouched : ∀ host, (value.run host).2 = host) :
    Makes (liftM (matrixUniform value name) : Authoring Token) fun t => ∀ sources, t.Calm sources :=
  makes_lift fun _ _ => Token.Calm.withName (calm_matrix rfl untouched) name _

end Scene

/-- The layer cell holds a rendered surface. -/
def Scene.Shows (sources : List (String × TextureSource)) : Prop :=
  ∃ id, sources.lookup layerCell = some (.surface id)

/-- Only calm tokens are pushed. -/
def TemplatePart.Calm (sources : List (String × TextureSource)) : TemplatePart → Prop
  | .text _ => True
  | .token t => t.Calm sources
  | .template t => ∀ u ∈ t.body.occurrences, u.Calm sources

theorem TemplateBody.calm_ofParts {parts : List TemplatePart} (calm : ∀ part ∈ parts, part.Calm sources) :
    ∀ t ∈ (ofParts parts).occurrences, t.Calm sources := by
  have occurs (body : TemplateBody) (t : Token) : t ∈ body.occurrences ↔ Sum.inr t ∈ body.glyphs := by
    simp [occurrences_eq_glyphs]
  intro t member
  rw [occurs, glyphs_ofParts] at member
  obtain ⟨part, pushed, shown⟩ := List.mem_flatMap.mp member
  have here := calm part pushed
  cases part with
  | text segment => simp [TemplatePart.glyphs] at shown
  | token slot =>
    obtain rfl : t = slot := by simpa [TemplatePart.glyphs] using shown
    exact here
  | template slot => exact here t ((occurs _ _).mpr shown)

/-- A pass whose tokens are all calm. -/
structure Pass.Calm (sources : List (String × TextureSource)) (p : Pass) : Prop where
  tokens : ∀ t ∈ p.vertex.body.occurrences ++ p.fragment.body.occurrences, t.Calm sources
  indices : ∀ t ∈ p.indices, t.FixedIndices

theorem Pass.Calm.ofParts {p : Pass} {vertex fragment : List TemplatePart}
    (vertexBody : p.vertex.body = .ofParts vertex) (fragmentBody : p.fragment.body = .ofParts fragment)
    (calm : ∀ part ∈ vertex ++ fragment, part.Calm sources)
    (indices : ∀ t ∈ p.indices, t.FixedIndices) : p.Calm sources := by
  refine ⟨fun t member => ?_, indices⟩
  rw [vertexBody, fragmentBody] at member
  rcases List.mem_append.mp member with here | here
  · exact TemplateBody.calm_ofParts (fun part pushed => calm part (List.mem_append_left _ pushed)) t here
  · exact TemplateBody.calm_ofParts (fun part pushed => calm part (List.mem_append_right _ pushed)) t here

namespace Scene

theorem makes_triangle : Makes triangle fun p => ∀ sources, p.Calm sources := by
  refine makes_fixedAttribute.bind fun position calm => ?_
  refine Makes.bind (?_ : Makes _ fun t => ∀ sources, t.Calm sources) fun seconds calm' => ?_
  · exact makes_lift fun _ _ host => ⟨time_host host, rfl⟩
  refine (makes_withName calm').bind fun seconds calm' => ?_
  refine makes_template.bind fun vertex vertexBody => makes_template.bind fun fragment fragmentBody => ?_
  refine makes_pure fun sources => .ofParts vertexBody fragmentBody ?_ (by simp)
  simp [TemplatePart.Calm, calm, calm']

theorem makes_cube {target : PassTarget} :
    Makes (cube target) fun p => p.target = target ∧ ∀ sources, p.Calm sources := by
  refine makes_fixedAttribute.bind fun position calm => makes_fixedAttribute.bind fun color calm' => ?_
  refine makes_any.bind fun faces _ => Token.makes_vertexAttribute.bind fun indices kind => ?_
  refine (makes_matrixUniform fun host => ?_).bind fun model calm₁ => ?_
  · exact time_host host
  refine (makes_matrixUniform fun _ => rfl).bind fun projection calm₂ => ?_
  refine Token.makes_scope.bind fun varying scope => ?_
  refine makes_template.bind fun vertex vertexBody => makes_template.bind fun fragment fragmentBody => ?_
  refine makes_pure ⟨rfl, fun sources => .ofParts vertexBody fragmentBody ?_ ?_⟩
  · have calm₃ : varying.Calm sources := by simp [Token.Calm, scope]
    simp [TemplatePart.Calm, calm, calm', calm₁, calm₂, calm₃]
  · intro t here
    obtain rfl := Option.some.inj here
    exact ⟨_, kind, rfl, faces, rfl⟩

/-- The sampler of the composite shows what the layer cell holds. -/
theorem makes_composite : Makes composite fun p => ∀ sources, Shows sources → p.Calm sources := by
  refine makes_fixedAttribute.bind fun position calm => ?_
  refine makes_any.bind fun blank _ => makes_any.bind fun _ _ => Token.makes_sampler.bind fun scene kind => ?_
  have shown : ∀ sources, Shows sources → scene.Calm sources := by
    rintro sources ⟨id, found⟩
    unfold Token.Calm
    rw [kind]
    intro host same
    refine ⟨id, Prod.ext ?_ rfl⟩
    change (host.sources.lookup layerCell).getD _ = _
    rw [same, found, Option.getD_some]
  refine Makes.bind (?_ : Makes _ fun t => ∀ sources, Shows sources → t.Calm sources)
    fun scene shown => ?_
  · exact makes_lift fun host sources shows => (shown sources shows).withName "u_scene" host
  refine Token.makes_scope.bind fun uv scope => ?_
  refine makes_template.bind fun vertex vertexBody => makes_template.bind fun fragment fragmentBody => ?_
  refine makes_pure fun sources shows => .ofParts vertexBody fragmentBody ?_ (by simp)
  have calm₁ : uv.Calm sources := by simp [Token.Calm, scope]
  simp [TemplatePart.Calm, calm, calm₁, shown sources shows]

/-- The tokens of a bundled scene are calm once its layer, if it has one, is shown. -/
theorem makes_build (kind : SceneKind) : Makes (build kind) fun scene =>
    ∀ sources, (scene.isLayered → Shows sources) → ∀ p ∈ scene.passes, p.Calm sources := by
  have alone {p : Pass} (calm : ∀ sources, p.Calm sources) (sources : List (String × TextureSource)) :
      ∀ q ∈ [p], q.Calm sources := by
    intro q member
    rw [List.mem_singleton.mp member]
    exact calm sources
  refine makes_any.bind fun _ _ => Makes.bind (?_ : Makes _ fun passes => ∀ sources,
    ((Scene.mk kind passes).isLayered → Shows sources) → ∀ p ∈ passes, p.Calm sources)
    fun passes calm => makes_pure calm
  cases kind with
  | helloWorld => exact makes_triangle.bind fun p calm => makes_pure fun sources _ => alone calm sources
  | cube => exact makes_cube.bind fun p calm => makes_pure fun sources _ => alone calm.2 sources
  | renderTexture =>
    refine makes_cube.bind fun p ⟨target, calm⟩ => makes_composite.bind fun q calm' => ?_
    refine makes_pure fun sources shows => ?_
    have layered : (Scene.mk .renderTexture [p, q]).isLayered := by simp [isLayered, target]
    intro r member
    rcases List.mem_cons.mp member with rfl | later
    · exact calm sources
    · rw [List.mem_singleton.mp later]
      exact calm' sources (shows layered)

end Scene

/-- A text with an entry point and no directive that stops it. -/
def Linkage.compiles (text : List Char) : Bool :=
  (errorLine? text).isNone && Text.occurs "void main".toList text

theorem Linkage.checkStage_of_compiles {stage : BuildStage} {text : List Char} (fits : compiles text) :
    checkStage stage (String.ofList text) = .ok () := by
  obtain ⟨free, entered⟩ := Bool.and_eq_true_iff.mp fits
  unfold checkStage
  rw [String.toList_ofList, Option.isNone_iff_eq_none.mp free]
  dsimp only
  rw [if_pos entered]

namespace Template

/-- The source of a template before it is put into a string. -/
def text (t : Template) : List Char :=
  CompiledShader.sourceText t.compile.tokens (CompiledShader.bodyText t.compile.tokens t.body.pieces)

theorem source_compile {t : Template} : t.compile.source = String.ofList t.text := rfl

end Template

/-- The two stages of a pass fit and compile. -/
def Pass.builds (p : Pass) : Bool :=
  (checkSharedNames p.vertex.compile p.fragment.compile).isOk &&
    (Linkage.compiles p.vertex.text && Linkage.compiles p.fragment.text)

theorem Pass.exists_linkage {p : Pass} (builds : p.builds) :
    checkSharedNames p.vertex.compile p.fragment.compile = .ok () ∧
      ∃ linkage, Linkage.build p.vertex.compile.source p.fragment.compile.source = .ok linkage := by
  obtain ⟨fit, both⟩ := Bool.and_eq_true_iff.mp builds
  obtain ⟨vertex, fragment⟩ := Bool.and_eq_true_iff.mp both
  constructor
  · revert fit
    cases checkSharedNames p.vertex.compile p.fragment.compile with
    | error e => exact Bool.noConfusion
    | ok _ => exact fun _ => rfl
  · rw [Template.source_compile, Template.source_compile]
    refine ⟨.ofSources (String.ofList p.vertex.text) (String.ofList p.fragment.text), ?_⟩
    unfold Linkage.build
    rw [Linkage.checkStage_of_compiles vertex, Linkage.checkStage_of_compiles fragment]
    rfl

namespace Scene

/-- What a check says of a bundled scene that is built on a new host, and of that host. -/
def inspect (check : Scene → Host → Bool) (kind : SceneKind) : Bool :=
  match (build kind).run.run {} with
  | (.ok scene, host) => check scene host
  | (.error _, _) => false

/-- Until a layer is made, its cell holds pixels. -/
def isBlank (host : Host) : Bool :=
  match host.source layerCell with
  | .pixels _ => true
  | .surface _ => false

theorem inspect_bundled (kind : SceneKind) :
    inspect (fun scene host => scene.passes.all Pass.builds && isBlank host) kind = true := by
  cases kind <;> decide +kernel

/-- Every bundled scene can be built, and its passes link. -/
theorem exists_build (kind : SceneKind) :
    ∃ scene host, (build kind).run.run {} = (.ok scene, host) ∧ isBlank host ∧
      ∀ p ∈ scene.passes, p.builds ∧ ∀ sources, (scene.isLayered → Shows sources) → p.Calm sources := by
  have made := makes_build kind {}
  have checked := inspect_bundled kind
  unfold inspect at checked
  rcases answer : (build kind).run.run {} with ⟨e | scene, host⟩ <;> rw [answer] at made checked
  · cases checked
  · obtain ⟨builds, blank⟩ := Bool.and_eq_true_iff.mp checked
    refine ⟨scene, host, rfl, blank, fun p member => ⟨List.all_eq_true.mp builds p member, ?_⟩⟩
    exact fun sources shows => made sources shows p member

end Scene
end ShaderStack

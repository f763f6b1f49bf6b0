import ShaderStack.Proofs.Assembly
import Mathlib.Logic.Relation

/-! Templates that say the same.

A template can be cut into texts in many ways, and parts of it can be nested. Neither shows after
compilation, which sees nothing but characters and tokens in reading order. -/
namespace ShaderStack

/-- A character of a text, or a token that stands between texts. -/
abbrev Glyph := Char ⊕ Token

/-- The characters and tokens of a template in reading order, nested ones in place. -/
def TemplateBody.glyphs : TemplateBody → List Glyph
  | text segment => segment.toList.map .inl
  | token segment slot rest => segment.toList.map .inl ++ .inr slot :: rest.glyphs
  | nested segment _ inner rest => segment.toList.map .inl ++ inner.glyphs ++ rest.glyphs

namespace TemplatePart

/-- What a push adds. -/
def glyphs : TemplatePart → List Glyph
  | text segment => segment.toList.map .inl
  | token slot => [.inr slot]
  | template slot => slot.body.glyphs

/-- Segments and slots in turn, each segment as a text. -/
def alternate : List String → List TemplatePart → List TemplatePart
  | segment :: segments, slot :: slots => text segment :: slot :: alternate segments slots
  | segments, _ => segments.map text

end TemplatePart

namespace TemplateBody

/-- The segments and slots of a body, as they can be pushed one after another. -/
def parts (body : TemplateBody) : List TemplatePart :=
  TemplatePart.alternate body.segments body.slots

@[simp] theorem parts_text {segment : String} : (text segment).parts = [.text segment] := rfl

@[simp] theorem parts_token {segment : String} {slot : Token} {rest : TemplateBody} :
    (token segment slot rest).parts = .text segment :: .token slot :: rest.parts := rfl

@[simp] theorem parts_nested {segment : String} {id : Identity} {inner rest : TemplateBody} :
    (nested segment id inner rest).parts = .text segment :: .template ⟨id, inner⟩ :: rest.parts := rfl

theorem glyphs_parts (body : TemplateBody) : body.parts.flatMap TemplatePart.glyphs = body.glyphs := by
  induction body with
  | text segment => simp [TemplatePart.glyphs, glyphs]
  | token segment slot rest ih => simp [TemplatePart.glyphs, glyphs, ih]
  | nested segment id inner rest _ ih => simp [TemplatePart.glyphs, glyphs, ih]

theorem glyphs_push (part : TemplatePart) (body : TemplateBody) :
    (body.push part).glyphs = body.glyphs ++ part.glyphs := by
  induction body with
  | text segment => cases part <;> simp [push, glyphs, TemplatePart.glyphs, empty]
  | token segment slot rest ih => simp [push, glyphs, ih]
  | nested segment id inner rest _ ih => simp [push, glyphs, ih]

/-- A template reads as what was pushed, in order. -/
theorem glyphs_ofParts (parts : List TemplatePart) :
    (ofParts parts).glyphs = parts.flatMap TemplatePart.glyphs := by
  have pushed (body : TemplateBody) : (parts.foldl (fun body part => body.push part) body).glyphs =
      body.glyphs ++ parts.flatMap TemplatePart.glyphs := by
    induction parts generalizing body with
    | nil => simp
    | cons part parts ih => simp [ih, glyphs_push]
  exact pushed empty

theorem occurrences_eq_glyphs (body : TemplateBody) :
    body.occurrences = body.glyphs.filterMap Sum.getRight? := by
  have texts (segment : String) :
      (segment.toList.map (Sum.inl : Char → Glyph)).filterMap Sum.getRight? = [] := by
    simp [List.filterMap_map, Function.comp_def]
  induction body with
  | text segment => rw [glyphs, texts, occurrences]
  | token segment slot rest ih => simp [glyphs, occurrences, texts, ih]
  | nested segment id inner rest innerIh restIh =>
    simp only [glyphs, occurrences, List.filterMap_append, texts, innerIh, restIh, List.nil_append]

/-- The text of a body, glyph by glyph. -/
theorem toList_spliced (name : Token → String) (body : TemplateBody) :
    (body.spliced name).toList = body.glyphs.flatMap (Sum.elim ([·]) fun t => (name t).toList) := by
  have texts (cs : List Char) :
      (cs.map (Sum.inl : Char → Glyph)).flatMap (Sum.elim ([·]) fun t => (name t).toList) = cs := by
    simp [List.flatMap_map]
  induction body with
  | text segment => rw [glyphs, texts, spliced]
  | token segment slot rest ih =>
    simp only [glyphs, spliced, String.toList_append, List.flatMap_append, List.flatMap_cons, texts,
      Sum.elim_inr, ih, List.append_assoc]
  | nested segment id inner rest innerIh restIh =>
    simp only [glyphs, spliced, String.toList_append, List.flatMap_append, texts, innerIh, restIh]

end TemplateBody

/-- The compilation of a template that is given by its glyphs. -/
def CompiledShader.ofGlyphs (id : Identity) (glyphs : List Glyph) : CompiledShader :=
  let tokens := nameTokens (distinctTokens (glyphs.filterMap Sum.getRight?))
  let body := glyphs.flatMap (Sum.elim ([·]) fun t => (nameIn tokens t).toList)
  { template := id, source := String.ofList (sourceText tokens body), tokens }

/-- Compilation sees the glyphs of a template and nothing else. -/
theorem Template.compile_eq_ofGlyphs (t : Template) : t.compile = .ofGlyphs t.id t.body.glyphs := by
  have text (tokens : List NamedToken) : CompiledShader.bodyText tokens t.body.pieces =
      t.body.glyphs.flatMap (Sum.elim ([·]) fun t => (CompiledShader.nameIn tokens t).toList) := by
    rw [← TemplateBody.toList_spliced, ← CompiledShader.bodyText_pieces, String.toList_ofList]
  simp only [Template.compile, CompiledShader.ofGlyphs, TemplateBody.tokens_pieces,
    TemplateBody.occurrences_eq_glyphs, text]

/-- Ways to push the same: a nested template gives way to its own segments and slots, or is rewritten
within; texts are joined; an empty text is left out. -/
inductive Resplices : List TemplatePart → List TemplatePart → Prop
  | unnest (t : Template) : Resplices [.template t] t.body.parts
  | within (id id' : Identity) {ps qs : List TemplatePart} (inner : Resplices ps qs) :
      Resplices [.template ⟨id, .ofParts ps⟩] [.template ⟨id', .ofParts qs⟩]
  | join (a b : String) : Resplices [.text a, .text b] [.text (a ++ b)]
  | blank : Resplices [.text ""] []
  | among (before after : List TemplatePart) {ps qs : List TemplatePart} (step : Resplices ps qs) :
      Resplices (before ++ ps ++ after) (before ++ qs ++ after)

theorem Resplices.glyphs_eq {ps qs : List TemplatePart} (step : Resplices ps qs) :
    ps.flatMap TemplatePart.glyphs = qs.flatMap TemplatePart.glyphs := by
  induction step with
  | unnest t => simp [TemplatePart.glyphs, TemplateBody.glyphs_parts]
  | within id id' _ ih => simpa [TemplatePart.glyphs, TemplateBody.glyphs_ofParts] using ih
  | join a b => simp [TemplatePart.glyphs]
  | blank => rfl
  | among before after _ ih => simp only [List.flatMap_append, ih]

/-- Rewritings in both directions, any number of them. -/
abbrev SameSplices : List TemplatePart → List TemplatePart → Prop := Relation.EqvGen Resplices

namespace SameSplices

variable {ps qs ps' qs' : List TemplatePart}

theorem glyphs_eq (same : SameSplices ps qs) :
    ps.flatMap TemplatePart.glyphs = qs.flatMap TemplatePart.glyphs := by
  induction same with
  | rel _ _ step => exact step.glyphs_eq
  | refl _ => rfl
  | symm _ _ _ ih => exact ih.symm
  | trans _ _ _ _ _ first second => exact first.trans second

theorem among (before after : List TemplatePart) (same : SameSplices ps qs) :
    SameSplices (before ++ ps ++ after) (before ++ qs ++ after) := by
  induction same with
  | rel _ _ step => exact .rel _ _ (.among before after step)
  | refl _ => exact .refl _
  | symm _ _ _ ih => exact .symm _ _ ih
  | trans _ _ _ _ _ first second => exact .trans _ _ _ first second

theorem append (first : SameSplices ps qs) (second : SameSplices ps' qs') :
    SameSplices (ps ++ ps') (qs ++ qs') := by
  have left : SameSplices (ps ++ ps') (qs ++ ps') := first.among [] ps'
  have right : SameSplices (qs ++ ps') (qs ++ qs') := by simpa using second.among qs []
  exact .trans _ _ _ left right

/-- A glyph as a push of its own. -/
def single : Glyph → TemplatePart := Sum.elim (fun c => .text (String.singleton c)) .token

/-- A text can be pushed character by character. -/
theorem spell_text (cs : List Char) :
    SameSplices [.text (String.ofList cs)] ((cs.map Sum.inl).map single) := by
  induction cs with
  | nil => exact .rel _ _ .blank
  | cons c cs ih =>
    have joined : SameSplices [.text (String.singleton c), .text (String.ofList cs)]
        [.text (String.ofList (c :: cs))] := by
      have whole : String.singleton c ++ String.ofList cs = String.ofList (c :: cs) := by simp
      exact whole ▸ .rel _ _ (.join _ _)
    have spelled : SameSplices ([.text (String.singleton c)] ++ [.text (String.ofList cs)])
        ([.text (String.singleton c)] ++ (cs.map Sum.inl).map single) := append (.refl _) ih
    exact .trans _ _ _ joined.symm spelled

/-- Every body can be pushed glyph by glyph. -/
theorem spell_body (body : TemplateBody) : SameSplices body.parts (body.glyphs.map single) := by
  have text (segment : String) :
      SameSplices [.text segment] ((segment.toList.map Sum.inl).map single) := by
    have spelled := spell_text segment.toList
    rwa [String.ofList_toList] at spelled
  induction body with
  | text segment => exact text segment
  | token segment slot rest ih =>
    have tail : SameSplices ([.token slot] ++ rest.parts) ([.token slot] ++ rest.glyphs.map single) :=
      append (.refl _) ih
    simpa [TemplateBody.glyphs, single] using (text segment).append tail
  | nested segment id inner rest innerIh restIh =>
    have unnested : SameSplices [.template ⟨id, inner⟩] (inner.glyphs.map single) :=
      .trans _ _ _ (.rel _ _ (.unnest ⟨id, inner⟩)) innerIh
    simpa [TemplateBody.glyphs] using (text segment).append (unnested.append restIh)

theorem spell_parts (ps : List TemplatePart) :
    SameSplices ps ((ps.flatMap TemplatePart.glyphs).map single) := by
  induction ps with
  | nil => exact .refl _
  | cons part ps ih =>
    have first : SameSplices [part] (part.glyphs.map single) := by
      cases part with
      | text segment => exact spell_body (.text segment)
      | token slot => exact .refl _
      | template slot => exact .trans _ _ _ (.rel _ _ (.unnest slot)) (spell_body slot.body)
    simpa using first.append ih

/-- The rewritings lead from pushes to all pushes of the same glyphs. -/
theorem iff_glyphs : SameSplices ps qs ↔
    ps.flatMap TemplatePart.glyphs = qs.flatMap TemplatePart.glyphs := by
  refine ⟨glyphs_eq, fun same => ?_⟩
  have back := (spell_parts qs).symm
  rw [← same] at back
  exact .trans _ _ _ (spell_parts ps) back

end SameSplices

/-- Nesting is splicing, and where texts are cut does not count. Pushes lead to each other by the
rewritings exactly if they say the same, and then their templates have one source and one name for each
token. -/
theorem compile_splices_nested (ps qs : List TemplatePart) :
    (SameSplices ps qs ↔ ps.flatMap TemplatePart.glyphs = qs.flatMap TemplatePart.glyphs) ∧
      (∀ id, Template.compile ⟨id, .ofParts ps⟩ = .ofGlyphs id (ps.flatMap TemplatePart.glyphs)) ∧
      (SameSplices ps qs → ∀ id id',
        (Template.compile ⟨id', .ofParts qs⟩).source = (Template.compile ⟨id, .ofParts ps⟩).source ∧
          (Template.compile ⟨id', .ofParts qs⟩).tokens = (Template.compile ⟨id, .ofParts ps⟩).tokens) := by
  have compiled (id : Identity) (parts : List TemplatePart) :
      Template.compile ⟨id, .ofParts parts⟩ = .ofGlyphs id (parts.flatMap TemplatePart.glyphs) := by
    rw [Template.compile_eq_ofGlyphs, TemplateBody.glyphs_ofParts]
  refine ⟨SameSplices.iff_glyphs, fun id => compiled id ps, fun same id id' => ?_⟩
  rw [compiled, compiled, same.glyphs_eq]
  exact ⟨rfl, rfl⟩

/-- A uniform without a name of its own. -/
def hue : Token :=
  let value : Accessor UniformValue := Accessor.value "hue"
  ⟨1, .uniform ⟨.vector .real .four, value, none⟩⟩

/-- A function that uses the uniform. -/
def shading : Template :=
  ⟨8, .ofParts [.text "vec4 shade() \x7b return ", .token hue, .text "; \x7d\n"]⟩

/-- A shader around two levels of templates, or around what is left after the inner one is unnested. -/
def shaded (id : Identity) (inner : List TemplatePart) : List TemplatePart :=
  [.text "#version 300 es\n", .template ⟨id, .ofParts (.text "precision highp float;\n" :: inner)⟩,
    .text "void main() \x7b color = shade() * ", .token hue, .text "; \x7d"]

theorem shaded_splices : SameSplices (shaded 9 [.template shading]) (shaded 10 shading.body.parts) ∧
    (Template.compile ⟨11, .ofParts (shaded 10 shading.body.parts)⟩).source =
      "#version 300 es\nprecision highp float;\nuniform vec4 u_0;\nvec4 shade() \x7b return u_0; \x7d\n" ++
        "void main() \x7b color = shade() * u_0; \x7d" := by
  have inner : Resplices [.text "precision highp float;\n", .template shading]
      (.text "precision highp float;\n" :: shading.body.parts) := by
    simpa using Resplices.among [.text "precision highp float;\n"] [] (.unnest shading)
  have same : SameSplices (shaded 9 [.template shading]) (shaded 10 shading.body.parts) :=
    .rel _ _ (.among [_] [_, _, _] (.within 9 10 inner))
  refine ⟨same, ?_⟩
  rw [((compile_splices_nested _ _).2.2 same 11 11).1]
  decide +kernel

end ShaderStack

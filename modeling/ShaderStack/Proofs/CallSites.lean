import ShaderStack.Proofs.Assembly
import Mathlib.Data.Set.Function

/-! A template that is written in one place and evaluated again.

Each evaluation brings tokens of its own, so that two of them differ in the identities of the tokens and in
what their accessors give. Neither shows in the source. -/
namespace ShaderStack

/-- The buffer that an attribute feeds. -/
def Token.target? (t : Token) : Option BufferTarget :=
  match t.kind with
  | .vertexAttribute a => some a.options.target
  | _ => none

/-- Two tokens that a source does not tell apart, the second under the renamed identity. -/
structure Token.Matches (σ : Identity → Identity) (t u : Token) : Prop where
  id : u.id = σ t.id
  type : u.type = t.type
  dataType : u.dataType? = t.dataType?
  target : u.target? = t.target?
  explicitName : u.explicitName? = t.explicitName?

/-- Two bodies of the same texts and nesting, with tokens that match. -/
inductive TemplateBody.Matches (σ : Identity → Identity) : TemplateBody → TemplateBody → Prop
  | text {segment : String} : Matches σ (.text segment) (.text segment)
  | token {segment : String} {t u : Token} {rest rest' : TemplateBody} (slot : t.Matches σ u)
      (tail : Matches σ rest rest') : Matches σ (.token segment t rest) (.token segment u rest')
  | nested {segment : String} {id id' : Identity} {inner inner' rest rest' : TemplateBody}
      (slot : Matches σ inner inner') (tail : Matches σ rest rest') :
      Matches σ (.nested segment id inner rest) (.nested segment id' inner' rest')

/-- Two evaluations of one place: the tokens match under a renaming that keeps them apart. -/
def Template.SameSite (t u : Template) : Prop :=
  ∃ σ : Identity → Identity, Set.InjOn σ {id | ∃ v ∈ t.body.occurrences, v.id = id} ∧
    t.body.Matches σ u.body

theorem Token.Matches.refl (t : Token) : t.Matches (fun same => same) t := ⟨rfl, rfl, rfl, rfl, rfl⟩

theorem TemplateBody.Matches.refl (body : TemplateBody) : body.Matches (fun same => same) body := by
  induction body with
  | text => exact .text
  | token _ slot _ ih => exact .token (.refl slot) ih
  | nested _ _ _ _ innerIh restIh => exact .nested innerIh restIh

theorem Template.SameSite.refl (t : Template) : t.SameSite t :=
  ⟨fun same => same, Set.injOn_id _, .refl t.body⟩

section Matches

variable {σ : Identity → Identity} {t u : Token} {ts us : List Token}

/-- The tokens of a kind that counts for naming, declaring and binding. -/
theorem Token.Matches.kind_cases (same : t.Matches σ u) :
    (∃ a b, t.kind = .vertexAttribute a ∧ u.kind = .vertexAttribute b ∧ b.type = a.type ∧
        b.options.target = a.options.target ∧ b.options.name = a.options.name) ∨
      (∃ a b, t.kind = .uniform a ∧ u.kind = .uniform b ∧ b.type = a.type ∧ b.name = a.name) ∨
      (∃ a b, t.kind = .sampler a ∧ u.kind = .sampler b ∧ b.options.name = a.options.name) ∨
      ∃ name, t.kind = .scope name ∧ u.kind = .scope name := by
  obtain ⟨_, type, dataType, target, explicitName⟩ := same
  unfold Token.type Token.dataType? Token.target? Token.explicitName? at *
  cases here : t.kind <;> cases there : u.kind <;>
    simp_all [TokenKind.type, TokenKind.dataType?, TokenKind.explicitName?]

theorem distinctTokens_matches (same : List.Forall₂ (Token.Matches σ) ts us)
    (apart : Set.InjOn σ {id | ∃ v ∈ ts, v.id = id}) :
    List.Forall₂ (Token.Matches σ) (distinctTokens ts) (distinctTokens us) := by
  induction same with
  | nil => exact .nil
  | @cons t u ts us head tail ih =>
    have fewer : {id | ∃ v ∈ ts, v.id = id} ⊆ {id | ∃ v ∈ t :: ts, v.id = id} := by
      rintro id ⟨v, member, same⟩
      exact ⟨v, List.mem_cons_of_mem _ member, same⟩
    have rest := ih (apart.mono fewer)
    refine .cons head ?_
    have members : ∀ v ∈ distinctTokens ts, v ∈ ts := fun v => mem_distinctTokens
    generalize distinctTokens ts = kept at rest members
    generalize distinctTokens us = kept' at rest
    induction rest with
    | nil => exact .nil
    | @cons v v' kept kept' first _ ih' =>
      have later := ih' fun v member => members v (List.mem_cons_of_mem _ member)
      have equal : v'.id = u.id ↔ v.id = t.id := by
        rw [first.id, head.id]
        exact apart.eq_iff ⟨v, List.mem_cons_of_mem _ (members v List.mem_cons_self), rfl⟩
          ⟨t, List.mem_cons_self, rfl⟩
      by_cases old : v.id = t.id
      · rw [List.filter_cons_of_neg (by simp [old]), List.filter_cons_of_neg (by simp [equal, old])]
        exact later
      · rw [List.filter_cons_of_pos (by simp [old]), List.filter_cons_of_pos (by simp [equal, old])]
        exact .cons first later

theorem Token.Matches.isScope_eq (same : t.Matches σ u) : u.isScope = t.isScope := by
  rcases same.kind_cases with ⟨_, _, here, there, _⟩ | ⟨_, _, here, there, _⟩ |
    ⟨_, _, here, there, _⟩ | ⟨_, here, there⟩
  all_goals simp [Token.isScope, here, there]

theorem Token.Matches.request_eq (same : t.Matches σ u) : u.request? = t.request? := by
  rcases same.kind_cases with ⟨_, _, here, there, _, _, name⟩ | ⟨_, _, here, there, _, name⟩ |
    ⟨_, _, here, there, name⟩ | ⟨_, here, there⟩
  all_goals simp_all [Token.request?]

theorem Token.Matches.scope (same : t.Matches σ u) {name : String} (scope : t.kind = .scope name) :
    u.kind = .scope name := by
  rcases same.kind_cases with ⟨_, _, here, _⟩ | ⟨_, _, here, _⟩ | ⟨_, _, here, _⟩ |
    ⟨_, here, there⟩
  all_goals simp_all

theorem Token.Matches.space_eq (same : t.Matches σ u) :
    Naming.Namespace.ofKind u.kind = Naming.Namespace.ofKind t.kind := by
  rcases same.kind_cases with ⟨_, _, here, there, _⟩ | ⟨_, _, here, there, _⟩ |
    ⟨_, _, here, there, _⟩ | ⟨_, here, there⟩
  all_goals simp [Naming.Namespace.ofKind, here, there]

namespace Naming

/-- Tokens that match claim the same names. -/
theorem claim_matches (same : List.Forall₂ (Token.Matches σ) ts us) (taken : List String) :
    List.Forall₂ (fun c d => c.1.Matches σ d.1 ∧ d.2 = c.2) (claim taken ts) (claim taken us) := by
  induction same generalizing taken with
  | nil => exact .nil
  | @cons t u ts us head tail ih =>
    rcases token_cases t with ⟨own, scope⟩ | ⟨plain, asked, asks⟩ | ⟨plain, silent⟩
    · rw [claim_scope scope, claim_scope (head.scope scope)]
      exact .cons ⟨head, rfl⟩ (ih taken)
    · have asks' := head.request_eq.trans asks
      by_cases old : asked ∈ taken
      · rw [claim_lost asks old, claim_lost asks' old]
        exact .cons ⟨head, rfl⟩ (ih taken)
      · rw [claim_won asks old, claim_won asks' old]
        exact .cons ⟨head, rfl⟩ (ih (asked :: taken))
    · rw [claim_open plain silent,
        claim_open (head.isScope_eq.trans plain) (head.request_eq.trans silent)]
      exact .cons ⟨head, rfl⟩ (ih taken)

theorem claimedNames_eq {claims claims' : List (Token × Option String)}
    (same : List.Forall₂ (fun c d => c.1.Matches σ d.1 ∧ d.2 = c.2) claims claims') :
    claimedNames claims' = claimedNames claims := by
  induction same with
  | nil => rfl
  | @cons c d claims claims' head tail ih =>
    obtain ⟨t, name⟩ := c
    obtain ⟨u, name'⟩ := d
    obtain ⟨same, rfl⟩ := head
    have scope := same.isScope_eq
    unfold Token.isScope at scope
    unfold claimedNames at *
    cases here : t.kind <;> cases there : u.kind <;> simp_all [List.filterMap_cons]

/-- The same claims are filled up alike. -/
theorem fill_matches {claims claims' : List (Token × Option String)} (taken : List String)
    (counters : Counters)
    (same : List.Forall₂ (fun c d => c.1.Matches σ d.1 ∧ d.2 = c.2) claims claims') :
    List.Forall₂ (fun m n => m.token.Matches σ n.token ∧ n.name = m.name)
      (fill taken counters claims) (fill taken counters claims') := by
  induction same generalizing counters with
  | nil => exact .nil
  | @cons c d claims claims' head tail ih =>
    obtain ⟨t, name⟩ := c
    obtain ⟨u, name'⟩ := d
    obtain ⟨same, rfl⟩ := head
    cases name' with
    | some name => exact .cons ⟨same, rfl⟩ (ih counters)
    | none =>
      unfold fill
      rw [same.space_eq]
      exact .cons ⟨same, rfl⟩ (ih _)

end Naming

/-- Names do not depend on the identities of the tokens. -/
theorem nameTokens_matches (same : List.Forall₂ (Token.Matches σ) ts us) :
    List.Forall₂ (fun m n => m.token.Matches σ n.token ∧ n.name = m.name)
      (nameTokens ts) (nameTokens us) := by
  have claims := Naming.claim_matches same []
  unfold nameTokens
  dsimp only
  rw [Naming.claimedNames_eq claims]
  exact Naming.fill_matches _ _ claims

theorem NamedToken.declaration_eq {m n : NamedToken} (same : m.token.Matches σ n.token)
    (name : n.name = m.name) : n.declaration? = m.declaration? := by
  rcases same.kind_cases with ⟨_, _, here, there, type, target, _⟩ | ⟨_, _, here, there, type, _⟩ |
    ⟨_, _, here, there, _⟩ | ⟨_, here, there⟩
  all_goals simp_all [NamedToken.declaration?]

theorem declarations_eq {ms ns : List NamedToken}
    (same : List.Forall₂ (fun m n => m.token.Matches σ n.token ∧ n.name = m.name) ms ns) :
    ns.filterMap NamedToken.declaration? = ms.filterMap NamedToken.declaration? := by
  induction same with
  | nil => rfl
  | cons head tail ih =>
    rw [List.filterMap_cons, List.filterMap_cons, NamedToken.declaration_eq head.1 head.2, ih]

/-- A token and its match have one name. -/
theorem nameIn_eq {ms ns : List NamedToken}
    (same : List.Forall₂ (fun m n => m.token.Matches σ n.token ∧ n.name = m.name) ms ns)
    (slot : t.Matches σ u) {ids : Set Identity} (apart : Set.InjOn σ ids) (inside : t.id ∈ ids)
    (known : ∀ m ∈ ms, m.token.id ∈ ids) :
    CompiledShader.nameIn ns u = CompiledShader.nameIn ms t := by
  unfold CompiledShader.nameIn
  induction same with
  | nil => rfl
  | @cons m n ms ns head tail ih =>
    have equal : n.token.id = u.id ↔ m.token.id = t.id := by
      rw [head.1.id, slot.id]
      exact apart.eq_iff (known m List.mem_cons_self) inside
    by_cases found : m.token.id = t.id
    · simp [equal.mpr found, found, head.2]
    · rw [List.find?_cons_of_neg (by simp [equal, found]), List.find?_cons_of_neg (by simp [found])]
      exact ih fun m member => known m (List.mem_cons_of_mem _ member)

end Matches

section Bodies

variable {σ : Identity → Identity} {body body' : TemplateBody}

theorem TemplateBody.Matches.occurrences (same : body.Matches σ body') :
    List.Forall₂ (Token.Matches σ) body.occurrences body'.occurrences := by
  induction same with
  | text => exact .nil
  | token slot _ ih => exact .cons slot ih
  | nested _ _ innerIh restIh => exact List.rel_append innerIh restIh

/-- Names that agree on the tokens give one text. -/
theorem TemplateBody.Matches.spliced (same : body.Matches σ body') {name name' : Token → String}
    (agree : ∀ t u, t ∈ body.occurrences → t.Matches σ u → name' u = name t) :
    body'.spliced name' = body.spliced name := by
  induction same with
  | text => rfl
  | token slot _ ih =>
    simp only [TemplateBody.spliced]
    rw [agree _ _ List.mem_cons_self slot, ih fun t u member => agree t u (List.mem_cons_of_mem _ member)]
  | nested _ _ innerIh restIh =>
    simp only [TemplateBody.spliced]
    rw [innerIh fun t u member => agree t u (List.mem_append_left _ member),
      restIh fun t u member => agree t u (List.mem_append_right _ member)]

/-- Evaluating a place again gives the same source. -/
theorem Template.SameSite.source_eq {t u : Template} (same : t.SameSite u) :
    u.compile.source = t.compile.source := by
  obtain ⟨σ, apart, bodies⟩ := same
  have named : List.Forall₂ (fun m n => m.token.Matches σ n.token ∧ n.name = m.name)
      t.compile.tokens u.compile.tokens := by
    have distinct := nameTokens_matches (distinctTokens_matches bodies.occurrences apart)
    simpa only [Template.compile, TemplateBody.tokens_pieces] using distinct
  have known : ∀ n ∈ t.compile.tokens, n.token.id ∈ {id | ∃ v ∈ t.body.occurrences, v.id = id} := by
    intro n member
    have kept := t.tokens_compile ▸ List.mem_map_of_mem member
    exact ⟨n.token, mem_distinctTokens kept, rfl⟩
  have texts : String.ofList (CompiledShader.bodyText u.compile.tokens u.body.pieces) =
      String.ofList (CompiledShader.bodyText t.compile.tokens t.body.pieces) := by
    rw [CompiledShader.bodyText_pieces, CompiledShader.bodyText_pieces]
    refine bodies.spliced fun v v' occurs slot => ?_
    exact nameIn_eq named slot apart ⟨v, occurs, rfl⟩ known
  have sources (t : Template) : t.compile.source = String.ofList (CompiledShader.sourceText
      t.compile.tokens (CompiledShader.bodyText t.compile.tokens t.body.pieces)) := rfl
  rw [sources, sources, String.ofList_inj.mp texts]
  unfold CompiledShader.sourceText
  rw [declarations_eq named]

end Bodies
end ShaderStack

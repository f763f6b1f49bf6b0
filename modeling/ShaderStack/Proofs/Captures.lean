import ShaderStack.Proofs.Naming

/-! What a scope reference refers to.

Numbering steps around the names that tokens ask for, and a scope reference asks for none. So a reference
is captured when its name is one of the numbers that are given out. A name that a token asks for is that
token's, and any other name is left to the text that the author wrote. -/
namespace ShaderStack

/-- The name was made up: it is not what the token asks for. -/
def NamedToken.Synthesized (n : NamedToken) : Prop :=
  n.token.isScope = false ∧ n.token.request? ≠ some n.name

instance : DecidablePred NamedToken.Synthesized := fun _ => inferInstanceAs (Decidable (_ ∧ _))

namespace Naming

/-- The tokens of a namespace whose names were made up. -/
def synthesized (space : Namespace) (tokens : List NamedToken) : List NamedToken :=
  tokens.filter fun n => n.Synthesized ∧ Namespace.ofKind n.token.kind = space

theorem synthesized_cons_of_not {space : Namespace} {n : NamedToken} {rest : List NamedToken}
    (asked : ¬ n.Synthesized) : synthesized space (n :: rest) = synthesized space rest :=
  List.filter_cons_of_neg (by simp [asked])

/-- The tokens that are left over are those whose names are made up. What they ask for, if anything, an
earlier token has, so that their number is another name. -/
theorem Assigned.leftOver_eq {all taken : List String} {counters : Counters} {ns : List NamedToken}
    (given : Assigned all taken counters ns) (before : List NamedToken)
    (known : ∀ name, name ∈ taken ↔ requested before name = true) (inside : taken ⊆ all)
    (space : Namespace) : leftOver space.sort before ns = synthesized space ns := by
  induction given generalizing before with
  | nil => rfl
  | @scope taken counters rest t own kind _ ih =>
    have skip : isLeftOver before t = false := by simp [isLeftOver, Token.isScope_of_kind kind]
    have asked : ¬ NamedToken.Synthesized ⟨own, t⟩ := by
      simp [NamedToken.Synthesized, Token.isScope_of_kind kind]
    simp only [leftOver, skip, Bool.false_and, synthesized_cons_of_not asked]
    refine ih _ (fun name => ?_) inside
    simp [known, requested, Token.request?, kind]
  | @won taken counters rest t own plain asks new claimed _ ih =>
    have skip : isLeftOver before t = false := by
      simpa [isLeftOver, asks, plain] using mt (known own).mpr new
    have asked : ¬ NamedToken.Synthesized ⟨own, t⟩ := by simp [NamedToken.Synthesized, asks]
    simp only [leftOver, skip, Bool.false_and, synthesized_cons_of_not asked]
    refine ih _ (fun name => ?_) (List.cons_subset.mpr ⟨claimed, inside⟩)
    have old := known name
    simp only [requested, List.mem_cons, List.any_append, List.any_cons, List.any_nil, asks] at old ⊢
    grind
  | @left taken counters rest t n own plain lost place next _ ih =>
    have extra : isLeftOver before t = true := by
      cases asks : t.request? with
      | none => simp [isLeftOver, plain, asks]
      | some name => simp [isLeftOver, plain, asks, ← known, lost name asks]
    have made : NamedToken.Synthesized ⟨numbered own n, t⟩ := by
      refine ⟨plain, fun asks => ?_⟩
      obtain ⟨free, _⟩ := freeNumber_spec own all (counters.get own)
      exact free (next ▸ inside (lost _ asks))
    have tail : leftOver space.sort (before ++ [⟨numbered own n, t⟩]) rest = synthesized space rest := by
      refine ih _ (fun name => ?_) inside
      have old := lost name
      simp only [known, requested, List.any_append, List.any_cons, List.any_nil] at old ⊢
      grind
    have sorted : space.sort t = decide (Namespace.ofKind t.kind = space) := by
      rw [Bool.eq_iff_iff, Namespace.sort_iff plain, decide_eq_true_iff]
    unfold synthesized at tail ⊢
    by_cases here : Namespace.ofKind t.kind = space
    · simp [leftOver, extra, sorted, here, made, tail]
    · simp [leftOver, extra, sorted, here, tail]

theorem leftOver_nameTokens (ts : List Token) (space : Namespace) :
    leftOver space.sort [] (nameTokens ts) = synthesized space (nameTokens ts) :=
  (nameTokens_assigned ts).leftOver_eq [] (by simp [requested]) (List.nil_subset _) space

/-- The names that are made up in a namespace are its first free numbers, in order. -/
theorem synthesized_names (ts : List Token) (space : Namespace) :
    (synthesized space (nameTokens ts)).map NamedToken.name =
      (List.range (synthesized space (nameTokens ts)).length).map fun k =>
        numbered space (Nat.nth (Free (nameTokens ts) space.lead) k) := by
  rw [← leftOver_nameTokens]
  exact (nameTokens_numbered ts space).names

theorem number_of_synthesized {ts : List Token} {n : NamedToken} (member : n ∈ nameTokens ts)
    (made : n.Synthesized) :
    ∃ k < (synthesized (Namespace.ofKind n.token.kind) (nameTokens ts)).length,
      n.name = numbered (Namespace.ofKind n.token.kind)
        (Nat.nth (Free (nameTokens ts) (Namespace.ofKind n.token.kind).lead) k) := by
  have listed : n.name ∈ (synthesized (Namespace.ofKind n.token.kind) (nameTokens ts)).map
      NamedToken.name := List.mem_map_of_mem (List.mem_filter.mpr ⟨member, by simp [made]⟩)
  rw [synthesized_names] at listed
  obtain ⟨k, few, number⟩ := List.mem_map.mp listed
  exact ⟨k, List.mem_range.mp few, number.symm⟩

end Naming

open Naming

namespace NamedExactly

variable {tokens : List NamedToken} (exact : NamedExactly tokens)
include exact

/-- One token at most has a name, scope references apart. -/
theorem eq_of_name {m n : NamedToken} (here : m ∈ tokens) (there : n ∈ tokens)
    (plain : m.token.isScope = false) (plain' : n.token.isScope = false) (same : m.name = n.name) :
    m = n :=
  List.inj_on_of_nodup_map exact.distinct (List.mem_filter.mpr ⟨here, by simpa using plain⟩)
    (List.mem_filter.mpr ⟨there, by simpa using plain'⟩) same

/-- A name that is asked for goes to a token that asks for it. -/
theorem exists_of_requested {name : String} (asked : requested tokens name = true) :
    ∃ n ∈ tokens, n.token.request? = some name ∧ n.name = name := by
  obtain ⟨n, found⟩ := Option.isSome_iff_exists.mp (List.find?_isSome.mpr (by
    simpa [requested] using asked : ∃ n ∈ tokens, (n.token.request? = some name : Bool)))
  obtain ⟨asks, before, after, split, first⟩ := List.find?_eq_some_iff_append.mp found
  have asks' : n.token.request? = some name := by simpa using asks
  refine ⟨n, by simp [split], asks', exact.firsts before n after name split asks' ?_⟩
  simpa [requested] using first

end NamedExactly

/-- Where the name of a scope reference comes from. If a token asks for it, that token has it and no other
one. It is made up for a token exactly if it is one of the free numbers that a namespace gives out, as many
as it has names to make up. If neither is so, no input of the compilation has it. -/
theorem references_captured_iff (t : Template) : ∀ s ∈ t.compile.tokens, s.token.isScope →
    (requested t.compile.tokens s.name → ∃ n ∈ t.compile.tokens,
      n.token.request? = some s.name ∧ n.name = s.name ∧
        ∀ m ∈ t.compile.tokens, m.token.isScope = false → m.name = s.name → m = n) ∧
    ((∃ n ∈ t.compile.tokens, n.Synthesized ∧ n.name = s.name) ↔
      ∃ space, ∃ k < (synthesized space t.compile.tokens).length,
        s.name = numbered space (Nat.nth (Free t.compile.tokens space.lead) k)) ∧
    (¬ requested t.compile.tokens s.name → (∀ n ∈ t.compile.tokens, n.Synthesized → n.name ≠ s.name) →
      ∀ n ∈ t.compile.tokens, n.token.isScope = false → n.name ≠ s.name) := by
  have exact : NamedExactly t.compile.tokens := nameTokens_exact _
  intro s member reference
  refine ⟨fun asked => ?_, ?_, fun unasked apart n here plain same => ?_⟩
  · obtain ⟨n, here, asks, same⟩ := exact.exists_of_requested asked
    have plain : n.token.isScope = false := by
      rcases token_cases n.token with ⟨own, scope⟩ | ⟨plain, _⟩ | ⟨plain, _⟩
      · simp [Token.request?, scope] at asks
      all_goals exact plain
    exact ⟨n, here, asks, same, fun m there plain' name =>
      exact.eq_of_name there here plain' plain (name.trans same.symm)⟩
  · constructor
    · rintro ⟨n, here, made, same⟩
      refine ⟨Namespace.ofKind n.token.kind, ?_⟩
      exact same ▸ number_of_synthesized here made
    · rintro ⟨space, k, few, number⟩
      have numbers : (synthesized space t.compile.tokens).map NamedToken.name = _ :=
        synthesized_names _ space
      have listed : s.name ∈ (synthesized space t.compile.tokens).map NamedToken.name := by
        rw [numbers, number]
        exact List.mem_map.mpr ⟨k, List.mem_range.mpr few, rfl⟩
      obtain ⟨n, here, same⟩ := List.mem_map.mp listed
      obtain ⟨inside, made⟩ := List.mem_filter.mp here
      exact ⟨n, inside, (of_decide_eq_true made).1, same⟩
  · by_cases asks : n.token.request? = some n.name
    · refine unasked (List.any_eq_true.mpr ⟨n, here, ?_⟩)
      simp [asks, same]
    · exact apart n here ⟨plain, asks⟩ same

/-- A reference to a name that the author declares, in a function that also uses uniforms without names. -/
def referring (uniforms : Nat) : Template :=
  let amount (id : Identity) : Token :=
    ⟨id, .uniform ⟨.vector .real .one, Accessor.value "amount", none⟩⟩
  ⟨1, .ofParts (.token ⟨0, .scope "u_1"⟩ :: (List.range' 1 uniforms).map fun id => .token (amount id))⟩

/-- Up to one uniform the name is the author's. The second one captures it. -/
theorem second_uniform_captures :
    (∀ n ∈ (referring 1).compile.tokens, n.Synthesized → n.name ≠ "u_1") ∧
      ∃ space, ∃ k < (synthesized space (referring 2).compile.tokens).length,
        "u_1" = numbered space (Nat.nth (Free (referring 2).compile.tokens space.lead) k) := by
  refine ⟨by decide +kernel, ?_⟩
  have member : (⟨"u_1", ⟨0, .scope "u_1"⟩⟩ : NamedToken) ∈ (referring 2).compile.tokens :=
    List.mem_cons_self
  refine ((references_captured_iff (referring 2)) _ member rfl).2.1.mp ?_
  refine ⟨(referring 2).compile.tokens[2], List.getElem_mem _, by decide +kernel, by decide +kernel⟩

/-- The name of a reference is made up for a uniform that it does not refer to. -/
theorem reference_shares_made_up_name :
    ∃ s ∈ (referring 2).compile.tokens, ∃ n ∈ (referring 2).compile.tokens,
      s.token.isScope ∧ n.Synthesized ∧ n.name = s.name := by
  decide +kernel

end ShaderStack

import ShaderStack.Proofs.Captures
import ShaderStack.Proofs.Assembly

/-! Which texts stand for tokens in a source.

Numbered names are identifiers, and the name of a scope reference is checked when the reference is made. The
names that options and renamings give are not checked, and go into the source as they are. All names of a
compilation are identifiers exactly if these are. -/
namespace ShaderStack

namespace Text

theorem isIdentifierChar_of_isDigit {c : Char} (digit : c.isDigit = true) :
    isIdentifierChar c = true := by
  simp [isIdentifierChar, Char.isAlphanum, digit]

/-- An identifier consists of letters, digits and underscores, and is not empty. -/
theorem isIdentifierChar_of_mem {cs : List Char} (identifier : isIdentifier cs = true) :
    cs ≠ [] ∧ ∀ c ∈ cs, isIdentifierChar c = true := by
  cases cs with
  | nil => contradiction
  | cons first rest =>
    simp only [isIdentifier, Bool.and_eq_true, List.all_eq_true] at identifier
    refine ⟨List.cons_ne_nil _ _, fun c member => ?_⟩
    rcases List.mem_cons.mp member with rfl | later
    · have start := identifier.1
      simp only [Bool.or_eq_true] at start
      rcases start with letter | underscore
      · simp [isIdentifierChar, Char.isAlphanum, letter]
      · simp [isIdentifierChar, underscore]
    · exact identifier.2 c later

end Text

/-- The name is an identifier. -/
abbrev Identifies (name : String) : Prop := Text.isIdentifier name.toList = true

theorem Naming.identifies_numbered (space : Namespace) (i : Nat) : Identifies (numbered space i) := by
  have digits : ∀ c ∈ Nat.toDigits 10 i, Text.isIdentifierChar c = true := fun c member =>
    Text.isIdentifierChar_of_isDigit (Nat.isDigit_of_mem_toDigits (by decide) (by decide) member)
  have spelled : (numbered space i).toList = space.lead.toList ++ Nat.toDigits 10 i := by
    simp [numbered]
  unfold Identifies
  rw [spelled]
  cases space
  all_goals
    have letter : 'a'.isAlpha = true ∧ 'u'.isAlpha = true := by decide
    have underscore : Text.isIdentifierChar '_' = true := by decide
    simpa [Namespace.lead, Text.isIdentifier, letter, underscore] using digits

namespace DataType

/-- Types are spelled with letters and digits. -/
theorem identifies_name (type : DataType) : Identifies type.name := by
  cases type with
  | vector scalar arity => cases scalar <;> cases arity <;> decide +kernel
  | matrix dimension => cases dimension <;> decide +kernel
  | sampler2D => decide +kernel

end DataType

/-- The keyword and the type with which a source declares the token. -/
def Token.declarator? (t : Token) : Option (String × DataType) :=
  match t.kind with
  | .vertexAttribute a => if a.options.target = .array then some ("in", a.type) else none
  | .uniform u => some ("uniform", u.type)
  | .sampler _ => some ("uniform", .sampler2D)
  | .scope _ => none

theorem NamedToken.declaration_eq_map (n : NamedToken) :
    n.declaration? = n.token.declarator?.map fun d => d.1 ++ " " ++ d.2.name ++ " " ++ n.name ++ ";" := by
  cases kind : n.token.kind with
  | vertexAttribute a =>
    by_cases target : a.options.target = .array
    · simp only [declaration?, Token.declarator?, kind, if_pos target, Option.map_some]
      rfl
    · simp [declaration?, Token.declarator?, kind, target]
  | uniform u =>
    simp only [declaration?, Token.declarator?, kind, Option.map_some]
    rfl
  | sampler s =>
    simp only [declaration?, Token.declarator?, kind, Option.map_some]
    rfl
  | scope name => simp [declaration?, Token.declarator?, kind]

/-- A token is declared as an input or as a uniform. -/
theorem Token.keyword_cases {t : Token} {keyword : String} {type : DataType}
    (declares : t.declarator? = some (keyword, type)) : keyword = "in" ∨ keyword = "uniform" := by
  cases kind : t.kind with
  | vertexAttribute a =>
    by_cases target : a.options.target = .array
    · simp_all [declarator?]
    · simp [declarator?, kind, target] at declares
  | _ => simp_all [declarator?]

section Authoring

variable {α : Type} {p : Token → Prop}

/-- Every token that is built this way fits. -/
def Authoring.Gives (m : Authoring Token) (p : Token → Prop) : Prop :=
  ∀ host t, (m.run.run host).1 = .ok t → p t

theorem Authoring.gives_bind {m : Authoring α} {f : α → Authoring Token} (each : ∀ a, (f a).Gives p) :
    (m >>= f).Gives p := by
  intro host t built
  rw [ExceptT.run_bind, StateT.run_bind] at built
  rcases answer : m.run.run host with ⟨e | a, host'⟩ <;> rw [answer] at built
  · exact nomatch built
  · exact each a host' t built

theorem Authoring.gives_ofKind {kind : TokenKind} (fits : ∀ id, p ⟨id, kind⟩) :
    (liftM (Token.ofKind kind) : Authoring Token).Gives p := by
  intro host t built
  obtain rfl := Except.ok.inj built
  exact fits _

theorem Authoring.gives_throw {e : TokenError} : (throw e : Authoring Token).Gives p :=
  fun _ _ built => nomatch built

end Authoring

namespace Token

/-- How hosts come by their tokens, with the name that an option or a renaming gave last. The name of a
reference that was not renamed has been checked, all others have not. -/
inductive Made : Option String → Token → Prop
  | vertexAttribute {type : DataType} {value : Accessor HostArray} {options : AttributeOptions} {host : Host}
      {t : Token} (built : ((Token.vertexAttribute type value options).run.run host).1 = .ok t) :
      Made options.name t
  | uniform {type : DataType} {value : Accessor UniformValue} {name : Option String} {host : Host} {t : Token}
      (built : ((Token.uniform type value name).run.run host).1 = .ok t) : Made name t
  | uniformOfType (type : DataType) (value : Accessor UniformValue) (name : Option String) (host : Host) :
      Made name ((Token.uniformOfType type value name).run host).1
  | sampler {value : Accessor TextureSource} {options : SamplerOptions} {host : Host} {t : Token}
      (built : ((Token.sampler value options).run.run host).1 = .ok t) : Made options.name t
  | scope {name : String} {host : Host} {t : Token}
      (built : ((Token.scope name).run.run host).1 = .ok t) : Made none t
  | renamed {given : Option String} {t : Token} (made : Made given t) (name : String) (host : Host) :
      Made (some name) ((t.withName name).run host).1

/-- The name that a token asks for, or spells if it is a reference, was given or was checked. -/
theorem Made.explicitName {given : Option String} {t : Token} (made : Made given t) :
    t.explicitName? = given ∨ given = none ∧ ∃ name, t.kind = .scope name ∧ Identifies name := by
  cases made with
  | @vertexAttribute type value options host t built =>
    refine .inl ?_
    have gives : (Token.vertexAttribute type value options).Gives fun t => t.explicitName? = options.name :=
      Authoring.gives_bind fun _ => Authoring.gives_bind fun _ => Authoring.gives_ofKind fun _ => rfl
    exact gives host t built
  | @uniform type value name host t built =>
    refine .inl ?_
    have gives : (Token.uniform type value given).Gives fun t => t.explicitName? = given := by
      unfold Token.uniform
      split
      · exact Authoring.gives_throw
      · exact Authoring.gives_bind fun _ => Authoring.gives_bind fun _ => Authoring.gives_ofKind fun _ => rfl
    exact gives host t built
  | uniformOfType type value name host => exact .inl rfl
  | @sampler value options host t built =>
    refine .inl ?_
    have gives : (Token.sampler value options).Gives fun t => t.explicitName? = options.name :=
      Authoring.gives_bind fun source => by
        cases source with
        | pixels data => exact Authoring.gives_bind fun _ => Authoring.gives_ofKind fun _ => rfl
        | surface id => exact Authoring.gives_ofKind fun _ => rfl
    exact gives host t built
  | @scope name host t built =>
    refine .inr ⟨rfl, ?_⟩
    unfold Token.scope at built
    split at built
    · next checked =>
      obtain rfl := Except.ok.inj built
      exact ⟨name, rfl, checked⟩
    · exact nomatch built
  | @renamed given t made name host =>
    refine .inl ?_
    change (t.kind.rename name).explicitName? = some name
    cases t.kind <;> rfl

end Token

/-- A declaration ends in its only semicolon and keeps to a line, if the name is an identifier. -/
theorem NamedToken.exists_statement {n : NamedToken} (identifier : Identifies n.name) {line : String}
    (declares : n.declaration? = some line) :
    ∃ text, line.toList = text ++ [';'] ∧ ';' ∉ text ∧ '\n' ∉ text := by
  rw [n.declaration_eq_map, Option.map_eq_some_iff] at declares
  obtain ⟨⟨keyword, type⟩, declares, rfl⟩ := declares
  have calm : ∀ c ∈ (keyword ++ " " ++ type.name ++ " " ++ n.name).toList,
      Text.isIdentifierChar c = true ∨ c = ' ' := by
    have word : ∀ c ∈ keyword.toList, Text.isIdentifierChar c = true := by
      rcases Token.keyword_cases declares with rfl | rfl <;> simp [Text.isIdentifierChar]
    have typeName := (Text.isIdentifierChar_of_mem type.identifies_name).2
    have name := (Text.isIdentifierChar_of_mem identifier).2
    intro c member
    simp only [String.toList_append, List.mem_append] at member
    have space : c ∈ " ".toList → c = ' ' := by simp
    rcases member with (((member | member) | member) | member) | member
    · exact .inl (word c member)
    · exact .inr (space member)
    · exact .inl (typeName c member)
    · exact .inr (space member)
    · exact .inl (name c member)
  refine ⟨(keyword ++ " " ++ type.name ++ " " ++ n.name).toList, String.toList_append, ?_, ?_⟩
  all_goals exact fun member => absurd (calm _ member) (by decide)

namespace Template

variable {t : Template} {given : Token → Option String}

theorem made_of_mem (made : ∀ u ∈ t.body.occurrences, Token.Made (given u) u) {n : NamedToken}
    (member : n ∈ t.compile.tokens) : Token.Made (given n.token) n.token :=
  made n.token (mem_distinctTokens (t.tokens_compile ▸ List.mem_map_of_mem member))

/-- A name is what its token asks for or spells, or it is a number. -/
theorem name_cases {n : NamedToken} (member : n ∈ t.compile.tokens) :
    n.token.explicitName? = some n.name ∨ Identifies n.name := by
  have exact : NamedExactly t.compile.tokens := nameTokens_exact _
  rcases Naming.token_cases n.token with ⟨own, scope⟩ | ⟨plain, _⟩ | ⟨plain, _⟩
  · refine .inl ?_
    rw [exact.scopes n member own scope]
    simp [Token.explicitName?, scope, TokenKind.explicitName?]
  all_goals
    by_cases asks : n.token.request? = some n.name
    · refine .inl ?_
      unfold Token.request? at asks
      cases kind : n.token.kind <;> simp_all [Token.explicitName?, TokenKind.explicitName?]
    · refine .inr ?_
      obtain ⟨k, _, number⟩ := Naming.number_of_synthesized member ⟨plain, asks⟩
      rw [number]
      exact Naming.identifies_numbered _ _

end Template

/-- Only names that were given unchecked can be something else than identifiers. Each given name that is
asked for gets into the source, so that all names are identifiers exactly if the given ones are. Then the
template's text has identifiers at all of its slots, and each declaration is a single statement on a line. -/
theorem compile_writes_identifiers (t : Template) {given : Token → Option String}
    (made : ∀ u ∈ t.body.occurrences, Token.Made (given u) u) :
    (∀ n ∈ t.compile.tokens, given n.token = some n.name ∨ Identifies n.name) ∧
    ((∀ n ∈ t.compile.tokens, Identifies n.name) ↔
      ∀ n ∈ t.compile.tokens, ∀ name ∈ given n.token, Identifies name) ∧
    ((∀ n ∈ t.compile.tokens, Identifies n.name) → ∃ (name : Token → String) (lines : List String),
      Assembled (t.body.spliced name) lines t.compile.source ∧
      (∀ u ∈ t.body.occurrences, t.compile.nameOf? u.id = some (name u) ∧ Identifies (name u)) ∧
      ∀ line ∈ lines, ∃ text, line.toList = text ++ [';'] ∧ ';' ∉ text ∧ '\n' ∉ text) := by
  have exact : NamedExactly t.compile.tokens := nameTokens_exact _
  have either : ∀ n ∈ t.compile.tokens, given n.token = some n.name ∨ Identifies n.name := by
    intro n member
    rcases Template.name_cases member with explicit | identifier
    · rcases (Template.made_of_mem made member).explicitName with same | ⟨_, own, scope, identifier⟩
      · exact .inl (same ▸ explicit)
      · exact .inr (exact.scopes n member own scope ▸ identifier)
    · exact .inr identifier
  refine ⟨either, ⟨fun all n member name named => ?_, fun all n member => ?_⟩, fun all => ?_⟩
  · have explicit : n.token.explicitName? = some name := by
      rcases (Template.made_of_mem made member).explicitName with same | ⟨silent, _⟩
      · exact same.trans named
      · rw [silent] at named
        exact nomatch named
    -- a reference has its name itself, and of the tokens that ask for one the first has it
    rcases Naming.token_cases n.token with ⟨own, scope⟩ | ⟨plain, _⟩ | ⟨plain, _⟩
    · have same : own = name := by
        simpa [Token.explicitName?, scope, TokenKind.explicitName?] using explicit
      exact same ▸ exact.scopes n member own scope ▸ all n member
    all_goals
      have asks : n.token.request? = some name := by
        unfold Token.request?
        unfold Token.isScope at plain
        cases kind : n.token.kind <;> simp_all [Token.explicitName?, TokenKind.explicitName?]
      have asked : Naming.requested t.compile.tokens name = true :=
        List.any_eq_true.mpr ⟨n, member, by simp [asks]⟩
      obtain ⟨m, here, _, same⟩ := exact.exists_of_requested asked
      exact same ▸ all m here
  · rcases either n member with named | identifier
    · exact all n member n.name named
    · exact identifier
  · have source := assembled_sourceText t.compile.tokens
      (CompiledShader.bodyText t.compile.tokens t.body.pieces)
    rw [CompiledShader.bodyText_pieces] at source
    refine ⟨_, _, source, fun u occurs => ?_, fun line listed => ?_⟩
    · have found := t.nameOf_occurrence occurs
      refine ⟨found, ?_⟩
      obtain ⟨n, here, same⟩ := Option.map_eq_some_iff.mp found
      exact same ▸ all n (List.mem_of_find?_eq_some here)
    · obtain ⟨n, member, declares⟩ := List.mem_filterMap.mp listed
      exact NamedToken.exists_statement (all n member) declares

/-- A uniform that was built without a name. -/
def amount : Token := (Token.uniformOfType (.vector .real .one) (Accessor.value "amount") none {}).1

/-- A reference whose name was checked. -/
def reference : Token := ⟨1, .scope "x"⟩

/-- A function that uses a token under another name. -/
def renamed (t : Token) (name : String) : Template :=
  ⟨1, .ofParts [.text "void main() \x7b float z = ", .token (t.withName name {}).1, .text "; \x7d"]⟩

theorem made_renamed {given : Option String} {t : Token} (made : Token.Made given t) (name : String) :
    ∀ u ∈ (renamed t name).body.occurrences, Token.Made (some name) u := by
  intro u occurs
  obtain rfl := List.mem_singleton.mp occurs
  exact .renamed made name {}

theorem made_amount : Token.Made none amount := .uniformOfType _ _ none {}

theorem renamed_amount_writes_identifiers :
    (∀ u ∈ (renamed amount "amount").body.occurrences, Token.Made (some "amount") u) ∧
      ∀ n ∈ (renamed amount "amount").compile.tokens, Identifies n.name := by
  have made := made_renamed made_amount "amount"
  refine ⟨made, (compile_writes_identifiers _ made).2.1.mpr ?_⟩
  rintro n member name ⟨⟩
  decide

/-- A new name is not checked, not even that of a reference whose old one was. The source declares what it
adds. -/
theorem renamed_adds_declaration :
    ¬ Identifies "x; uniform float y" ∧
    ∀ t ∈ [amount, reference],
      (∀ u ∈ (renamed t "x; uniform float y").body.occurrences,
        Token.Made (some "x; uniform float y") u) ∧
      (renamed t "x; uniform float y").compile.tokens.map NamedToken.name = ["x; uniform float y"] ∧
      (renamed t "x; uniform float y").compile.source =
        (if t.isScope then "" else "uniform float x; uniform float y;\n") ++
          "void main() \x7b float z = x; uniform float y; \x7d" := by
  have checked : Token.Made none reference := by
    have built : ((Token.scope "x").run.run {}).1 = .ok reference := by
      unfold Token.scope
      rw [if_pos (by decide)]
      rfl
    exact .scope built
  refine ⟨by decide, fun t either => ?_⟩
  rcases List.mem_pair.mp either with rfl | rfl
  · exact ⟨made_renamed made_amount _, by decide +kernel, by decide +kernel⟩
  · exact ⟨made_renamed checked _, by decide +kernel, by decide +kernel⟩

end ShaderStack

import ShaderStack.Proofs.Naming
import ShaderStack.Proofs.Preamble

/-! What the source of a compiled template is made of: its texts with the names in place of the slots,
and between two parts of that one line for each token that is declared. -/
namespace ShaderStack

/-- The texts of a template in order, nested ones in place, with names for the slots. -/
def TemplateBody.spliced (name : Token → String) : TemplateBody → String
  | .text segment => segment
  | .token segment slot rest => segment ++ name slot ++ rest.spliced name
  | .nested segment _ inner rest => segment ++ inner.spliced name ++ rest.spliced name

/-- Whether a source declares the token. -/
def Token.isInput (t : Token) : Bool :=
  match t.kind with
  | .vertexAttribute a => a.options.target = .array
  | .uniform _ => true
  | .sampler _ => true
  | .scope _ => false

/-- The line that declares a token. -/
inductive NamedToken.Declares (n : NamedToken) : String → Prop
  | input {a : AttributeToken} (kind : n.token.kind = .vertexAttribute a)
      (target : a.options.target = .array) : Declares n ("in " ++ a.type.name ++ " " ++ n.name ++ ";")
  | uniform {u : UniformToken} (kind : n.token.kind = .uniform u) :
      Declares n ("uniform " ++ u.type.name ++ " " ++ n.name ++ ";")
  | sampler {s : SamplerToken} (kind : n.token.kind = .sampler s) :
      Declares n ("uniform sampler2D " ++ n.name ++ ";")

theorem NamedToken.declaration_cases (n : NamedToken) :
    (n.token.isInput = false ∧ n.declaration? = none) ∨
      ∃ line, n.token.isInput = true ∧ n.declaration? = some line ∧ n.Declares line := by
  cases kind : n.token.kind with
  | vertexAttribute a =>
    by_cases target : a.options.target = .array
    · exact .inr ⟨_, by simp [Token.isInput, kind, target],
        by simp only [declaration?, kind, if_pos target]; rfl, .input kind target⟩
    · exact .inl ⟨by simp [Token.isInput, kind, target], by simp [declaration?, kind, target]⟩
  | uniform u =>
    exact .inr ⟨_, by simp [Token.isInput, kind], by simp only [declaration?, kind]; rfl, .uniform kind⟩
  | sampler s =>
    exact .inr ⟨_, by simp [Token.isInput, kind], by simp only [declaration?, kind]; rfl, .sampler kind⟩
  | scope name => exact .inl ⟨by simp [Token.isInput, kind], by simp [declaration?, kind]⟩

/-- Each declared token has its line, in order. -/
theorem declarations_forall₂ (tokens : List NamedToken) :
    List.Forall₂ NamedToken.Declares (tokens.filter fun n => n.token.isInput)
      (tokens.filterMap NamedToken.declaration?) := by
  induction tokens with
  | nil => exact .nil
  | cons n rest ih =>
    rcases n.declaration_cases with ⟨silent, none⟩ | ⟨line, input, some, declares⟩
    · rw [List.filter_cons_of_neg (by simp [silent]), List.filterMap_cons_none none]
      exact ih
    · rw [List.filter_cons_of_pos (by simp [input]), List.filterMap_cons_some some]
      exact .cons declares ih

/-- Lines below a text begin on a line of their own. -/
def lineBreakAfter (before : String) : String :=
  if before = "" ∨ before.toList.getLast? = some '\n' then "" else "\n"

/-- How a source is made from a body and the lines of its declarations. The body is cut between two
characters, at the offset where its preamble ends; only the margin behind the cut is lost. -/
inductive Assembled (body : String) : List String → String → Prop
  | bare : Assembled body [] body
  | declared {lines : List String} {before after : String} (margin : String) (declares : lines ≠ [])
      (split : body = before ++ (margin ++ after))
      (place : Preamble.byteOffset (Text.linesInclusive body.toList) = before.utf8ByteSize)
      (blank : ∀ c ∈ margin.toList, c = ' ' ∨ c = '\t')
      (bounded : ∀ c ∈ after.toList.head?, c ≠ ' ' ∧ c ≠ '\t') :
      Assembled body lines
        (before ++ lineBreakAfter before ++ String.join (lines.map (· ++ "\n")) ++ after)

section Source

variable (tokens : List NamedToken)

theorem CompiledShader.bodyText_ofSegment (segment : String) :
    bodyText tokens (Piece.ofSegment segment) = segment.toList := by
  unfold Piece.ofSegment
  split
  · next empty => simp [bodyText, String.isEmpty_iff.mp empty]
  · simp [bodyText, pieceText]

/-- The text between the declarations is the template's. -/
theorem CompiledShader.bodyText_pieces (body : TemplateBody) :
    String.ofList (bodyText tokens body.pieces) = body.spliced (nameIn tokens) := by
  have text (pieces more : List Piece) :
      bodyText tokens (pieces ++ more) = bodyText tokens pieces ++ bodyText tokens more :=
    List.flatMap_append
  induction body with
  | text segment =>
    rw [TemplateBody.pieces, bodyText_ofSegment, String.ofList_toList]
    rfl
  | token segment slot rest ih =>
    have slotText : bodyText tokens (.token slot :: rest.pieces) =
        (nameIn tokens slot).toList ++ bodyText tokens rest.pieces := rfl
    simp only [TemplateBody.pieces, TemplateBody.spliced, text, slotText, bodyText_ofSegment,
      String.ofList_append, String.ofList_toList, ih, String.append_assoc]
  | nested segment id inner rest innerIh restIh =>
    simp only [TemplateBody.pieces, TemplateBody.spliced, text, bodyText_ofSegment,
      String.ofList_append, String.ofList_toList, innerIh, restIh]

theorem ofList_lines (lines : List String) :
    String.ofList ((lines.map String.toList).flatMap (· ++ ['\n'])) =
      String.join (lines.map (· ++ "\n")) := by
  rw [← String.toList_inj, String.toList_ofList, String.toList_join, List.flatMap_map, List.flatMap_map]
  simp

/-- The declarations go into the body and nothing else changes. -/
theorem assembled_sourceText (body : List Char) :
    Assembled (String.ofList body) (tokens.filterMap NamedToken.declaration?)
      (String.ofList (CompiledShader.sourceText tokens body)) := by
  unfold CompiledShader.sourceText
  split
  · next none =>
    rw [none]
    exact .bare
  · next declares =>
    have parts : (Preamble.split body).2.takeWhile Preamble.isMargin ++
        (Preamble.split body).2.dropWhile Preamble.isMargin = (Preamble.split body).2 :=
      List.takeWhile_append_dropWhile
    have margins (c : Char) : Preamble.isMargin c = true ↔ c = ' ' ∨ c = '\t' := by
      simp [Preamble.isMargin]
    have lineBreak : String.ofList (if (Preamble.split body).1.isEmpty ||
        (Preamble.split body).1.getLast? = some '\n' then [] else ['\n']) =
        lineBreakAfter (String.ofList (Preamble.split body).1) := by
      have empty : String.ofList (Preamble.split body).1 = "" ↔
          (Preamble.split body).1.isEmpty = true := by
        rw [← String.toList_inj, String.toList_ofList, List.isEmpty_iff]
        rfl
      unfold lineBreakAfter
      simp only [empty, String.toList_ofList, Bool.or_eq_true, decide_eq_true_eq]
      split <;> rfl
    have source : String.ofList (Preamble.insert
        ((tokens.filterMap NamedToken.declaration?).map String.toList) body) =
        String.ofList (Preamble.split body).1 ++
          lineBreakAfter (String.ofList (Preamble.split body).1) ++
          String.join ((tokens.filterMap NamedToken.declaration?).map (· ++ "\n")) ++
          String.ofList ((Preamble.split body).2.dropWhile Preamble.isMargin) := by
      rw [← lineBreak, ← ofList_lines]
      simp only [← String.ofList_append]
      rfl
    rw [source]
    refine .declared (String.ofList ((Preamble.split body).2.takeWhile Preamble.isMargin)) declares
      ?_ ?_ ?_ ?_
    · rw [← String.ofList_append, ← String.ofList_append, parts, Preamble.split_append]
    · rw [String.toList_ofList, Preamble.byteOffset_eq]
    · intro c member
      rw [String.toList_ofList] at member
      exact (margins c).mp (List.all_eq_true.mp List.all_takeWhile c member)
    · intro c first
      have stops := List.head?_dropWhile_not Preamble.isMargin (Preamble.split body).2
      rw [String.toList_ofList, Option.mem_def] at first
      rw [first] at stops
      simpa [Preamble.isMargin] using stops

end Source

theorem Template.tokens_compile (t : Template) :
    t.compile.tokens.map NamedToken.token = distinctTokens t.body.occurrences := by
  simp only [Template.compile, TemplateBody.tokens_pieces]
  exact Naming.tokens_fill ..

/-- Each distinct token has one entry, in the order of the first occurrences. -/
theorem Template.ids_compile (t : Template) :
    t.compile.tokens.map (fun n => n.token.id) = (t.body.occurrences.map Token.id).eraseDups := by
  rw [← ids_distinctTokens, ← t.tokens_compile, List.map_map]
  rfl

/-- Each occurrence of a token has the name of its entry. -/
theorem Template.nameOf_occurrence (t : Template) {u : Token} (occurs : u ∈ t.body.occurrences) :
    t.compile.nameOf? u.id = some (CompiledShader.nameIn t.compile.tokens u) := by
  have known : u.id ∈ t.compile.tokens.map fun n => n.token.id := by
    rw [t.ids_compile, List.mem_eraseDups]
    exact List.mem_map_of_mem occurs
  obtain ⟨n, member, same⟩ := List.mem_map.mp known
  unfold CompiledShader.nameOf? CompiledShader.nameIn
  cases found : t.compile.tokens.find? fun n => n.token.id = u.id with
  | some m => rfl
  | none =>
    have other := List.find?_eq_none.mp found n member
    simp [same] at other

/-- A compilation inserts the lines that declare its tokens and changes nothing else. -/
theorem compile_inserts_declarations (t : Template) :
    ∃ (name : Token → String) (lines : List String),
      (∀ u ∈ t.body.occurrences, t.compile.nameOf? u.id = some (name u)) ∧
      t.compile.tokens.map (fun n => n.token.id) = (t.body.occurrences.map Token.id).eraseDups ∧
      (∀ n ∈ t.compile.tokens,
        t.body.occurrences.find? (fun u => u.id = n.token.id) = some n.token) ∧
      List.Forall₂ NamedToken.Declares (t.compile.tokens.filter fun n => n.token.isInput) lines ∧
      Assembled (t.body.spliced name) lines t.compile.source := by
  have source := assembled_sourceText t.compile.tokens
    (CompiledShader.bodyText t.compile.tokens t.body.pieces)
  rw [CompiledShader.bodyText_pieces] at source
  refine ⟨_, _, fun u occurs => t.nameOf_occurrence occurs, t.ids_compile, fun n member => ?_,
    declarations_forall₂ t.compile.tokens, source⟩
  exact find_distinctTokens (t.tokens_compile ▸ List.mem_map_of_mem member)

end ShaderStack

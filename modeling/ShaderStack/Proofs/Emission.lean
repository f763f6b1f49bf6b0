import ShaderStack.Proofs.Identifiers
import ShaderStack.Proofs.Scanning
import Mathlib.Data.List.TakeWhile

/-! What a linker finds in the declarations that a compilation inserts.

Each declaration is a line of its own, which mentions its keyword, its type and its name once and nothing
else. So scanning a source gives the declared names in one block, and what uses an input are the other lines
that mention its name. -/
namespace ShaderStack

namespace Text

section Lines

variable {x line : List Char}

theorem linesInclusive_append (ends : x = [] ∨ x.getLast? = some '\n') (y : List Char) :
    linesInclusive (x ++ y) = linesInclusive x ++ linesInclusive y := by
  induction x with
  | nil => rfl
  | cons c x ih =>
    have rest : x = [] ∨ x.getLast? = some '\n' := by
      rcases x.eq_nil_or_concat with rfl | ⟨front, d, rfl⟩
      · exact .inl rfl
      · exact .inr (by simpa [List.getLast?_cons] using ends)
    have cut := ih rest
    rw [List.cons_append, linesInclusive, linesInclusive, cut]
    by_cases newline : c = '\n'
    · rw [if_pos newline, if_pos newline, List.cons_append]
    · rw [if_neg newline, if_neg newline]
      cases first : linesInclusive x with
      | nil =>
        have none : x = [] := by
          rw [← flatten_linesInclusive x, first]
          rfl
        simp [none, newline] at ends
      | cons line more => rfl

theorem lines_append (ends : x = [] ∨ x.getLast? = some '\n') (y : List Char) :
    lines (x ++ y) = lines x ++ lines y := by
  unfold lines
  rw [linesInclusive_append ends, List.map_append]

/-- A line with its newline. The scanner of lines would take a carriage return before that off. -/
theorem lines_singleton (short : '\n' ∉ line) (plain : line.getLast? ≠ some '\r') :
    lines (line ++ ['\n']) = [line] := by
  have whole : linesInclusive (line ++ ['\n']) = [line ++ ['\n']] := by
    induction line with
    | nil => rfl
    | cons c line ih =>
      rw [List.mem_cons, not_or] at short
      have rest := ih short.2 fun last => plain (by simp [List.getLast?_cons, last])
      rw [List.cons_append, linesInclusive, if_neg (Ne.symm short.1), rest]
  have bare : withoutLineEnd (line ++ ['\n']) = line := by
    unfold withoutLineEnd
    rw [List.reverse_append]
    split
    · next rest same =>
      have reversed : line.reverse = '\r' :: rest := (List.cons.inj same).2
      rw [← List.head?_reverse, reversed] at plain
      contradiction
    · next rest _ same =>
      rw [← (List.cons.inj same).2]
      exact List.reverse_reverse line
    · next other => exact absurd rfl (other line.reverse)
  unfold lines
  rw [whole, List.map_singleton, bare]

/-- Lines that are written one after the other are read back. -/
theorem lines_flatMap {written : List (List Char)} (short : ∀ line ∈ written, '\n' ∉ line)
    (plain : ∀ line ∈ written, line.getLast? ≠ some '\r') (y : List Char) :
    lines (written.flatMap (· ++ ['\n']) ++ y) = written ++ lines y := by
  induction written with
  | nil => rfl
  | cons line more ih =>
    rw [List.flatMap_cons, List.append_assoc, lines_append (.inr (by simp)),
      lines_singleton (short line List.mem_cons_self) (plain line List.mem_cons_self),
      ih (fun l member => short l (List.mem_cons_of_mem _ member))
        fun l member => plain l (List.mem_cons_of_mem _ member)]
    rfl

end Lines

section Statements

theorem isBlank_of_isIdentifierChar {c : Char} (letter : isIdentifierChar c = true) :
    isBlank c = false := by
  have range : 48 ≤ c.toNat ∧ c.toNat ≤ 122 := by
    have code : c.toNat = c.val.toNat := rfl
    -- capitals, small letters and digits, by their codes
    change (((decide (65 ≤ c.val ∧ c.val ≤ 90) || decide (97 ≤ c.val) && decide (c.val ≤ 122)) ||
      decide (48 ≤ c.val) && decide (c.val ≤ 57)) || c == '_') = true at letter
    simp only [Bool.or_eq_true, decide_eq_true_eq, Bool.and_eq_true, beq_iff_eq,
      UInt32.le_iff_toNat_le] at letter
    rcases letter with ((upper | lower) | digit) | rfl
    · simp at upper
      omega
    · simp at lower
      omega
    · simp at digit
      omega
    · decide
  simp only [isBlank, Bool.or_eq_false_iff, Bool.and_eq_false_iff, decide_eq_false_iff_not, beq_eq_false_iff_ne]
  omega

/-- Letters, digits and underscores, at least one of them. -/
def Lettered (word : List Char) : Prop := word ≠ [] ∧ ∀ c ∈ word, isIdentifierChar c = true

theorem Lettered.solid {word : List Char} (lettered : Lettered word) : Solid word :=
  ⟨lettered.1, fun c member => isBlank_of_isIdentifierChar (lettered.2 c member)⟩

/-- A line that declares a name of some type. -/
def statement (keyword type name : List Char) : List Char :=
  keyword ++ ' ' :: (type ++ ' ' :: (name ++ [';']))

variable {keyword type name other : List Char} (key : Lettered keyword) (shape : Lettered type)
  (input : Lettered name)
include key shape input

theorem words_statement : words (keyword ++ ' ' :: (type ++ ' ' :: name)) = [keyword, type, name] := by
  rw [words_append_cons (by decide), words_append_cons (by decide), words_of_solid key.solid,
    words_of_solid shape.solid, words_of_solid input.solid]
  rfl

theorem statement_calm : '\n' ∉ statement keyword type name ∧
    (statement keyword type name).getLast? ≠ some '\r' ∧ '/' ∉ statement keyword type name := by
  have apart {c : Char} (plain : isIdentifierChar c = false) :
      c ∉ keyword ∧ c ∉ type ∧ c ∉ name := by
    refine ⟨fun member => ?_, fun member => ?_, fun member => ?_⟩
    · simp [key.2 c member] at plain
    · simp [shape.2 c member] at plain
    · simp [input.2 c member] at plain
  have newline := apart (c := '\n') (by decide)
  have slash := apart (c := '/') (by decide)
  simp [statement, newline, slash, List.getLast?_append, List.getLast?_cons]

/-- A declaration mentions its keyword, its type and its name, each once. -/
theorem encard_offsets_statement (word : other ≠ []) (unkeyed : other ≠ keyword)
    (untyped : other ≠ type) :
    (offsets other (statement keyword type name)).encard = if name = other then 1 else 0 := by
  have pieces : splitBy (fun c => !isIdentifierChar c) (statement keyword type name) =
      [keyword, type, name, []] := by
    have whole {word : List Char} (lettered : Lettered word) :
        word.splitOnP (fun c => !isIdentifierChar c) = [word] :=
      List.splitOnP_eq_singleton fun c member => by simp [lettered.2 c member]
    unfold statement
    rw [splitBy_eq_splitOnP, List.splitOnP_append_cons _ _ (by decide),
      List.splitOnP_append_cons _ _ (by decide), List.splitOnP_append_cons _ _ (by decide), whole key,
      whole shape, whole input]
    rfl
  have calm := (statement_calm key shape input).2.2
  rw [← Linkage.count_pieces, Linkage.beforeComment_of_not_mem calm, pieces]
  by_cases same : name = other
  · simp [same, word.symm, unkeyed.symm, untyped.symm]
  · simp [same, word.symm, unkeyed.symm, untyped.symm]

end Statements

end Text

/-- The tokens that a source declares, in order. -/
def CompiledShader.inputs (shader : CompiledShader) : List NamedToken :=
  shader.tokens.filter fun n => n.token.isInput

/-- The line that declares a token. -/
def NamedToken.line (n : NamedToken) : List Char := (n.declaration?.getD "").toList

theorem NamedToken.toList_declarations (tokens : List NamedToken) :
    (tokens.filterMap NamedToken.declaration?).map String.toList =
      (tokens.filter fun n => n.token.isInput).map NamedToken.line := by
  induction tokens with
  | nil => rfl
  | cons n rest ih =>
    rcases n.declaration_cases with ⟨silent, none⟩ | ⟨line, input, some, _⟩
    · rw [List.filter_cons_of_neg (by simp [silent]), List.filterMap_cons_none none]
      exact ih
    · rw [List.filter_cons_of_pos (by simp [input]), List.filterMap_cons_some some, List.map_cons,
        List.map_cons, ih, NamedToken.line, some]
      rfl

/-- Declarations stand between two parts of the body, the first of which ends its last line. -/
theorem CompiledShader.exists_sourceText (tokens : List NamedToken) (body : List Char) :
    ∃ front after, (front = [] ∨ front.getLast? = some '\n') ∧
      sourceText tokens body =
        front ++ (((tokens.filter fun n => n.token.isInput).map NamedToken.line).flatMap (· ++ ['\n']) ++
          after) := by
  rw [← NamedToken.toList_declarations]
  unfold sourceText
  split
  · next none =>
    rw [none]
    exact ⟨[], body, .inl rfl, rfl⟩
  · unfold Preamble.insert
    dsimp only
    refine ⟨_, _, ?_, by rw [List.append_assoc]⟩
    by_cases ended : ((Preamble.split body).1.isEmpty || (Preamble.split body).1.getLast? = some '\n') = true
    · rw [if_pos ended, List.append_nil]
      simpa using ended
    · rw [if_neg ended]
      exact .inr (by simp)

namespace Token

/-- Whether a source declares the token with `in`. -/
def isAttribute (t : Token) : Bool :=
  match t.kind with
  | .vertexAttribute a => a.options.target = .array
  | _ => false

theorem type_of_isAttribute {t : Token} (array : t.isAttribute = true) : t.type = .vertexAttribute := by
  obtain ⟨id, kind⟩ := t
  cases kind with
  | vertexAttribute a => rfl
  | _ => contradiction

theorem declarator_cases (t : Token) :
    (∃ type, t.isAttribute = true ∧ t.isUniform = false ∧ t.isInput = true ∧
      t.declarator? = some ("in", type)) ∨
    (∃ type, t.isAttribute = false ∧ t.isUniform = true ∧ t.isInput = true ∧
      t.declarator? = some ("uniform", type)) ∨
    (t.isAttribute = false ∧ t.isUniform = false ∧ t.isInput = false ∧ t.declarator? = none) := by
  obtain ⟨id, kind⟩ := t
  cases kind with
  | vertexAttribute a =>
    by_cases target : a.options.target = .array <;>
      simp [isAttribute, isUniform, isInput, declarator?, target]
  | uniform u => simp [isAttribute, isUniform, isInput, declarator?]
  | sampler s => simp [isAttribute, isUniform, isInput, declarator?]
  | scope name => simp [isAttribute, isUniform, isInput, declarator?]

end Token

open Text

theorem Identifies.lettered {name : String} (identifies : Identifies name) : Lettered name.toList :=
  isIdentifierChar_of_mem identifies

namespace NamedToken

/-- The name is no other word of a declaration. -/
structure Unreserved (n : NamedToken) : Prop where
  unkeyed : n.name ≠ "in" ∧ n.name ≠ "uniform"
  untyped : ∀ type : DataType, n.name ≠ type.name

theorem line_eq {n : NamedToken} {keyword : String} {type : DataType}
    (declares : n.token.declarator? = some (keyword, type)) :
    n.line = statement keyword.toList type.name.toList n.name.toList := by
  rw [line, n.declaration_eq_map, declares]
  simp [statement]

/-- The words of the line that declares a token. -/
theorem exists_line {n : NamedToken} (input : n.token.isInput = true) (identifies : Identifies n.name) :
    ∃ (keyword : String) (type : DataType), (keyword = "in" ∨ keyword = "uniform") ∧
      n.token.declarator? = some (keyword, type) ∧
      n.line = statement keyword.toList type.name.toList n.name.toList ∧ Lettered keyword.toList ∧
      Lettered type.name.toList ∧ Lettered n.name.toList := by
  have keys : Lettered "in".toList ∧ Lettered "uniform".toList := by
    simp [Lettered, isIdentifierChar]
  rcases n.token.declarator_cases with
    ⟨type, _, _, _, declares⟩ | ⟨type, _, _, _, declares⟩ | ⟨_, _, other, _⟩
  · exact ⟨_, type, .inl rfl, declares, line_eq declares, keys.1, type.identifies_name.lettered,
      identifies.lettered⟩
  · exact ⟨_, type, .inr rfl, declares, line_eq declares, keys.2, type.identifies_name.lettered,
      identifies.lettered⟩
  · simp [other] at input

end NamedToken

namespace Linkage

/-- The scanner reads a declaration back. -/
theorem declaredName?_statement {keyword key type name : String} (keyed : Lettered key.toList)
    (shape : Lettered type.toList) (input : Lettered name.toList) :
    declaredName? keyword (statement key.toList type.toList name.toList) =
      if key = keyword then some name else none := by
  obtain ⟨c, rest, split⟩ := List.exists_cons_of_ne_nil keyed.1
  have none : ∀ c ∈ ([] : List Char), isBlank c = true := nofun
  have found := statement?_complete none none
    (s := key.toList ++ ' ' :: (type.toList ++ ' ' :: name.toList))
    ⟨c, by simp [split], keyed.solid.2 c (by simp [split])⟩
  have line_eq : [] ++ (key.toList ++ ' ' :: (type.toList ++ ' ' :: name.toList) ++ ';' :: []) =
      statement key.toList type.toList name.toList := by
    simp [statement]
  rw [line_eq] at found
  have unbound : name.toList.takeWhile (· != '[') = name.toList := by
    rw [List.takeWhile_eq_self_iff]
    intro c member
    have letter := input.2 c member
    simp only [bne_iff_ne, ne_eq]
    rintro rfl
    exact absurd letter (by simp [isIdentifierChar])
  have same : key.toList = keyword.toList ↔ key = keyword := String.toList_inj
  simp only [declaredName?, found, words_statement keyed shape input, Option.bind_eq_bind,
    Option.bind_some, List.getLast?_cons, List.getLast?_nil, Option.getD_none, Option.getD_some, unbound,
    String.ofList_toList, same]

end Linkage

open Linkage

/-- How a source lists what it declares: on lines of their own between two parts of its text. Scanning it
gives the names of the inputs in one block, and each of these lines mentions the name of its own token
once and no other one. -/
structure CompiledShader.Lists (shader : CompiledShader) (front after : List (List Char)) : Prop where
  lines_eq : lines shader.source.toList = front ++ (shader.inputs.map NamedToken.line ++ after)
  attributes : declarations "in" shader.source = front.filterMap (declaredName? "in") ++
    ((shader.tokens.filter fun n => n.token.isAttribute).map NamedToken.name ++
      after.filterMap (declaredName? "in"))
  uniforms : declarations "uniform" shader.source = front.filterMap (declaredName? "uniform") ++
    ((shader.tokens.filter fun n => n.token.isUniform).map NamedToken.name ++
      after.filterMap (declaredName? "uniform"))
  mentioned : ∀ i n, shader.inputs[i]? = some n → n.Unreserved → ∀ j m, shader.inputs[j]? = some m →
    {k | (front.length + j, k) ∈ mentions shader.source n.name}.encard = if j = i then 1 else 0

section Listing

variable {shader : CompiledShader} {front after : List (List Char)}

/-- The scanner reads the name of a token from its line, if it looks for its keyword. -/
theorem NamedToken.declaredName?_line {keyword : String} {declared : Token → Bool} {n : NamedToken}
    (identifies : Identifies n.name)
    (known : ∀ t, declared t = true ↔ ∃ type, t.declarator? = some (keyword, type))
    (input : n.token.isInput = true) :
    declaredName? keyword n.line = if declared n.token then some n.name else none := by
  obtain ⟨key, type, _, declares, line, keyed, shape, lettered⟩ := n.exists_line input identifies
  have asked : declared n.token = true ↔ key = keyword := by
    rw [known, declares]
    simp
  rw [line, declaredName?_statement keyed shape lettered]
  simp only [asked]

/-- What scanning the declarations gives. -/
theorem NamedToken.filterMap_line {keyword : String} {declared : Token → Bool} {tokens : List NamedToken}
    (identifiers : ∀ n ∈ tokens, Identifies n.name)
    (known : ∀ t, declared t = true ↔ ∃ type, t.declarator? = some (keyword, type)) :
    ((tokens.filter fun n => n.token.isInput).map NamedToken.line).filterMap (declaredName? keyword) =
      (tokens.filter fun n => declared n.token).map NamedToken.name := by
  induction tokens with
  | nil => rfl
  | cons n rest ih =>
    have tail := ih fun m member => identifiers m (List.mem_cons_of_mem _ member)
    have read := n.declaredName?_line (identifiers n List.mem_cons_self) known
    cases input : n.token.isInput with
    | true =>
      have read := read input
      cases named : declared n.token <;> simp_all
    | false =>
      have silent : declared n.token = false := by
        rw [Bool.eq_false_iff, ne_eq, known]
        rintro ⟨type, declares⟩
        rcases n.token.declarator_cases with ⟨_, _, _, here, _⟩ | ⟨_, _, _, here, _⟩ | ⟨_, _, _, none⟩
        · simp [here] at input
        · simp [here] at input
        · simp [none] at declares
      simp_all

/-- No two inputs have one name. -/
theorem Template.nodup_inputs (t : Template) : (t.compile.inputs.map NamedToken.name).Nodup := by
  have exact : NamedExactly t.compile.tokens := nameTokens_exact _
  have inputs : t.compile.inputs.Sublist (t.compile.tokens.filter fun n => !n.token.isScope) := by
    refine List.monotone_filter_right _ fun n input => ?_
    cases kind : n.token.kind <;> simp_all [Token.isInput, Token.isScope]
  exact exact.distinct.sublist (inputs.map NamedToken.name)

/-- The declarations of a template are lines of its source. -/
theorem Template.exists_lines (t : Template) (identifiers : ∀ n ∈ t.compile.tokens, Identifies n.name) :
    ∃ front after,
      lines t.compile.source.toList = front ++ (t.compile.inputs.map NamedToken.line ++ after) := by
  obtain ⟨front, after, ends, source⟩ := CompiledShader.exists_sourceText t.compile.tokens
    (CompiledShader.bodyText t.compile.tokens t.body.pieces)
  have text : t.compile.source.toList = front ++
      ((t.compile.inputs.map NamedToken.line).flatMap (· ++ ['\n']) ++ after) := by
    exact String.toList_ofList.trans source
  refine ⟨lines front, lines after, ?_⟩
  rw [text, lines_append ends, lines_flatMap]
  all_goals
    intro line member
    obtain ⟨n, listed, rfl⟩ := List.mem_map.mp member
    obtain ⟨inside, input⟩ := List.mem_filter.mp listed
    obtain ⟨_, _, _, _, line, keyed, shape, lettered⟩ := n.exists_line input (identifiers n inside)
    rw [line]
  · exact (statement_calm keyed shape lettered).1
  · exact (statement_calm keyed shape lettered).2.1

/-- Scanning a source whose declarations are lines of it. -/
theorem CompiledShader.declarations_eq {keyword : String} {declared : Token → Bool}
    (lines_eq : lines shader.source.toList = front ++ (shader.inputs.map NamedToken.line ++ after))
    (identifiers : ∀ n ∈ shader.tokens, Identifies n.name)
    (known : ∀ t, declared t = true ↔ ∃ type, t.declarator? = some (keyword, type)) :
    declarations keyword shader.source = front.filterMap (declaredName? keyword) ++
      ((shader.tokens.filter fun n => declared n.token).map NamedToken.name ++
        after.filterMap (declaredName? keyword)) := by
  unfold declarations
  rw [lines_eq, List.filterMap_append, List.filterMap_append]
  refine congrArg _ (congrArg (· ++ _) ?_)
  exact NamedToken.filterMap_line identifiers known

/-- The line of an input mentions the name of that input once, and the name of no other one. -/
theorem Template.encard_mentioned (t : Template) {i j : Nat} {n m : NamedToken}
    (lines_eq : lines t.compile.source.toList =
      front ++ (t.compile.inputs.map NamedToken.line ++ after))
    (identifiers : ∀ n ∈ t.compile.tokens, Identifies n.name) (here : t.compile.inputs[i]? = some n)
    (unreserved : n.Unreserved) (there : t.compile.inputs[j]? = some m) :
    {k | (front.length + j, k) ∈ mentions t.compile.source n.name}.encard = if j = i then 1 else 0 := by
  have place : (lines t.compile.source.toList)[front.length + j]? = some m.line := by
    rw [lines_eq, List.getElem?_append_right (Nat.le_add_right _ _), Nat.add_sub_cancel_left,
      List.getElem?_append_left, List.getElem?_map, there]
    · rfl
    · rw [List.length_map]
      exact (List.getElem?_eq_some_iff.mp there).1
  have offsets_eq : {k | (front.length + j, k) ∈ mentions t.compile.source n.name} =
      offsets n.name.toList m.line := by
    ext k
    simp [mentions, place]
  have named : m.name.toList = n.name.toList ↔ j = i := by
    rw [String.toList_inj]
    refine ⟨fun same => ?_, fun same => ?_⟩
    · have bound := (List.getElem?_eq_some_iff.mp there).1
      refine (List.getElem?_inj (l := t.compile.inputs.map NamedToken.name) ?_ t.nodup_inputs).mp ?_
      · simpa using bound
      · simp [here, there, same]
    · rw [same, here] at there
      exact congrArg NamedToken.name (Option.some.inj there).symm
  obtain ⟨inside, input⟩ := List.mem_filter.mp (List.mem_of_getElem? there)
  obtain ⟨keyword, type, key, _, line, keyed, shape, lettered⟩ :=
    m.exists_line input (identifiers m inside)
  have own : n ∈ t.compile.tokens := (List.mem_filter.mp (List.mem_of_getElem? here)).1
  rw [offsets_eq, line, encard_offsets_statement keyed shape lettered (identifiers n own).lettered.1]
  · simp only [named]
  · rcases key with rfl | rfl
    · exact mt String.toList_inj.mp unreserved.unkeyed.1
    · exact mt String.toList_inj.mp unreserved.unkeyed.2
  · exact mt String.toList_inj.mp (unreserved.untyped type)

/-- Every template whose names are identifiers lists its declarations. -/
theorem Template.exists_lists (t : Template) (identifiers : ∀ n ∈ t.compile.tokens, Identifies n.name) :
    ∃ front after, t.compile.Lists front after := by
  obtain ⟨front, after, lines_eq⟩ := t.exists_lines identifiers
  refine ⟨front, after, lines_eq, CompiledShader.declarations_eq lines_eq identifiers fun t => ?_,
    CompiledShader.declarations_eq lines_eq identifiers fun t => ?_,
    fun i n here unreserved j m there => t.encard_mentioned lines_eq identifiers here unreserved there⟩
  · rcases t.declarator_cases with
      ⟨type, here, _, _, declares⟩ | ⟨type, here, _, _, declares⟩ | ⟨here, _, _, declares⟩ <;>
      simp [here, declares]
  · rcases t.declarator_cases with
      ⟨type, _, here, _, declares⟩ | ⟨type, _, here, _, declares⟩ | ⟨_, here, _, declares⟩ <;>
      simp [here, declares]

end Listing

end ShaderStack

import ShaderStack.Proofs.Association
import ShaderStack.Proofs.Scanning
import ShaderStack.Device.Recording

/-! Which inputs a linker elides, and how it numbers the others.

An input has a location if a line declares it and its text mentions it a second time. Uniforms are shared
by the stages, so one stage that does so is enough. Locations count the names in the order in which lines
declare them first. -/
namespace ShaderStack

open Text

/-- Of two names in a list, the one comes before the other does for the first time. -/
def Precedes (names : List String) (a b : String) : Prop :=
  ∃ before after, names = before ++ after ∧ a ∈ before ∧ b ∉ before

theorem Precedes.append {names : List String} {a b : String} (first : Precedes names a b)
    (more : List String) : Precedes (names ++ more) a b := by
  obtain ⟨before, after, rfl, here, there⟩ := first
  exact ⟨before, after ++ more, List.append_assoc .., here, there⟩

namespace Linkage

/-- The names of a list have been given locations: each has one, counted in the order of first
occurrences. -/
structure Placed (names : List String) (table : List (String × Location)) : Prop where
  known : ∀ name, name ∈ table.map Prod.fst ↔ name ∈ names
  distinct : (table.map Prod.fst).Nodup
  counted : table.map Prod.snd = List.range table.length
  sorted : (table.map Prod.fst).Pairwise (Precedes names)

namespace Placed

variable {names : List String} {table : List (String × Location)}

theorem nil : Placed [] [] := ⟨fun _ => Iff.rfl, .nil, rfl, .nil⟩

theorem isSome_lookup_iff (placed : Placed names table) (name : String) :
    (table.lookup name).isSome ↔ name ∈ names := by
  rw [← placed.known, List.lookup_isSome_iff, List.mem_map]
  exact exists_congr fun p => and_congr_right fun _ => beq_iff_eq.trans eq_comm

/-- A name that has a location keeps it, any other gets the next one. -/
theorem next (placed : Placed names table) (name : String) :
    Placed (names ++ [name]) (if (table.lookup name).isSome then table
      else table ++ [(name, table.length)]) := by
  by_cases old : (table.lookup name).isSome
  · have seen := (placed.isSome_lookup_iff name).mp old
    rw [if_pos old]
    refine ⟨fun other => ?_, placed.distinct, placed.counted,
      placed.sorted.imp fun first => first.append _⟩
    rw [placed.known, List.mem_append, List.mem_singleton]
    exact ⟨.inl, fun member => member.elim id fun same => same ▸ seen⟩
  · have new := mt (placed.isSome_lookup_iff name).mpr old
    rw [if_neg old]
    refine ⟨fun other => ?_, ?_, ?_, ?_⟩
    · simp only [List.map_append, List.map_singleton, List.mem_append, placed.known]
    · rw [List.map_append, List.map_singleton, ← List.concat_eq_append]
      exact List.Nodup.concat (mt (placed.known name).mp new) placed.distinct
    · rw [List.map_append, placed.counted, List.length_append, List.length_singleton, List.range_succ]
      rfl
    · rw [List.map_append, List.pairwise_append]
      refine ⟨placed.sorted.imp fun first => first.append _, List.pairwise_singleton _ _, ?_⟩
      rintro a member b single
      obtain rfl := List.mem_singleton.mp single
      exact ⟨names, [b], rfl, (placed.known a).mp member, new⟩

/-- All names of a list are placed one after the other. -/
theorem locate (placed : Placed names table) (more : List String) :
    Placed (names ++ more) (locate table more) := by
  induction more generalizing names table with
  | nil =>
    rw [List.append_nil]
    exact placed
  | cons name more ih =>
    have rest := ih (placed.next name)
    rw [List.append_assoc, List.singleton_append] at rest
    unfold Linkage.locate
    split at rest
    · next old =>
      rw [if_pos old]
      exact rest
    · next new =>
      rw [if_neg new]
      exact rest

/-- A location is a place in the table. -/
theorem lookup_eq_some_iff (placed : Placed names table) {name : String} {l : Location} :
    table.lookup name = some l ↔ table[l]? = some (name, l) := by
  constructor
  · intro found
    obtain ⟨i, here⟩ := List.mem_iff_getElem?.mp (mem_of_lookup found)
    have count := congrArg (·[i]?) placed.counted
    simp only [List.getElem?_map, here, Option.map_some] at count
    obtain ⟨_, same⟩ := List.getElem?_eq_some_iff.mp count.symm
    rw [List.getElem_range] at same
    exact same ▸ here
  · exact fun here => lookup_of_mem placed.distinct (List.mem_of_getElem? here)

/-- The locations are the numbers below their count. -/
theorem exists_lookup_iff (placed : Placed names table) (l : Location) :
    (∃ name, table.lookup name = some l) ↔ l < table.length := by
  simp only [placed.lookup_eq_some_iff]
  constructor
  · rintro ⟨name, here⟩
    exact (List.getElem?_eq_some_iff.mp here).1
  · intro bound
    have count := congrArg (·[l]?) placed.counted
    simp only [List.getElem?_map, List.getElem?_eq_getElem bound, Option.map_some,
      List.getElem?_range bound] at count
    refine ⟨table[l].1, ?_⟩
    rw [List.getElem?_eq_getElem bound]
    exact congrArg some (Prod.ext rfl (Option.some.inj count))

theorem precedes_of_lt (placed : Placed names table) {a b : String} {l k : Location}
    (first : table.lookup a = some l) (second : table.lookup b = some k) (before : l < k) :
    Precedes names a b := by
  obtain ⟨low, here⟩ := List.getElem?_eq_some_iff.mp (placed.lookup_eq_some_iff.mp first)
  obtain ⟨high, there⟩ := List.getElem?_eq_some_iff.mp (placed.lookup_eq_some_iff.mp second)
  have sorted := List.pairwise_iff_getElem.mp placed.sorted l k (by simpa using low)
    (by simpa using high) before
  simpa [here, there] using sorted

end Placed

/-- Lines declare the one name before they declare the other for the first time. -/
def DeclaredBefore (keyword : String) (lines : List (List Char)) (a b : String) : Prop :=
  ∃ before after, lines = before ++ after ∧ (∃ line ∈ before, Declares keyword a line) ∧
    ∀ line ∈ before, ¬ Declares keyword b line

theorem DeclaredBefore.asymm {keyword : String} {lines : List (List Char)} {a b : String}
    (first : DeclaredBefore keyword lines a b) : ¬ DeclaredBefore keyword lines b a := by
  obtain ⟨before, after, split, ⟨line, member, declares⟩, none⟩ := first
  rintro ⟨before', after', split', ⟨line', member', declares'⟩, none'⟩
  rw [split] at split'
  rcases List.prefix_or_prefix_of_prefix ⟨after, rfl⟩ ⟨after', split'.symm⟩ with short | long
  · exact none' line (short.mem member) declares
  · exact none line' (long.mem member') declares'

/-- The names that are used have locations, one each. These are the numbers below their count, in the order
in which lines declare the names first. -/
structure Numbered (keyword : String) (lines : List (List Char)) (used : String → Prop)
    (location : String → Option Location) : Prop where
  located : ∀ name, (location name).isSome ↔ used name
  distinct : ∀ a b l, location a = some l → location b = some l → a = b
  dense : ∃ count, ∀ l, (∃ name, location name = some l) ↔ l < count
  ordered : ∀ a b l k, location a = some l → location b = some k →
    (l < k ↔ DeclaredBefore keyword lines a b)

/-- The order of the names that are used is the order of the lines. -/
theorem declaredBefore_of_precedes {keyword : String} (solid : Solid keyword.toList)
    {lines : List (List Char)} {used : String → Bool} {a b : String} (spoken : used b = true)
    (first : Precedes ((lines.filterMap (declaredName? keyword)).filter used) a b) :
    DeclaredBefore keyword lines a b := by
  obtain ⟨early, late, split, here, there⟩ := first
  obtain ⟨names, more, cut, rfl, rfl⟩ := List.filter_eq_append_iff.mp split
  obtain ⟨before, after, rfl, rfl, rfl⟩ := List.filterMap_eq_append_iff.mp cut
  simp only [List.mem_filter, List.mem_filterMap, declaredName?_eq_some_iff solid] at here there
  exact ⟨before, after, rfl, here.1, fun line member declares => there ⟨⟨line, member, declares⟩, spoken⟩⟩

/-- Numbering what lines declare, as far as it is used. -/
theorem numbered_locate {keyword : String} (solid : Solid keyword.toList) (lines : List (List Char))
    (used : String → Bool) :
    Numbered keyword lines (fun name => (∃ line ∈ lines, Declares keyword name line) ∧ used name)
      fun name => (locate [] ((lines.filterMap (declaredName? keyword)).filter used)).lookup name := by
  have placed := Placed.nil.locate ((lines.filterMap (declaredName? keyword)).filter used)
  rw [List.nil_append] at placed
  generalize locate [] ((lines.filterMap (declaredName? keyword)).filter used) = table at placed
  have listed (name : String) : (table.lookup name).isSome ↔
      (∃ line ∈ lines, Declares keyword name line) ∧ used name := by
    rw [placed.isSome_lookup_iff]
    simp only [List.mem_filter, List.mem_filterMap, declaredName?_eq_some_iff solid]
  have distinct {a b : String} {l : Location} (first : table.lookup a = some l)
      (second : table.lookup b = some l) : a = b := by
    rw [placed.lookup_eq_some_iff] at first second
    rw [first] at second
    exact congrArg Prod.fst (Option.some.inj second)
  have before {a b : String} {l k : Location} (first : table.lookup a = some l)
      (second : table.lookup b = some k) (less : l < k) : DeclaredBefore keyword lines a b :=
    declaredBefore_of_precedes solid ((listed b).mp (by simp [second])).2
      (placed.precedes_of_lt first second less)
  refine ⟨listed, fun a b l => distinct, ⟨table.length, placed.exists_lookup_iff⟩,
    fun a b l k first second => ⟨before first second, fun declared => ?_⟩⟩
  rcases Nat.lt_trichotomy l k with less | rfl | more
  · exact less
  · obtain rfl := distinct first second
    exact absurd declared declared.asymm
  · exact absurd declared (before second first more).asymm

/-- The text declares the name with the keyword and mentions it at two places, one of which may be in the
declaration. -/
def Uses (keyword source name : String) : Prop :=
  (∃ line ∈ lines source.toList, Declares keyword name line) ∧ (mentions source name).Nontrivial

theorem solid_keywords : Solid "in".toList ∧ Solid "uniform".toList := by
  simp [Solid, isBlank]

theorem numbered_attributes (vertex fragment : String) :
    Numbered "in" (lines vertex.toList) (Uses "in" vertex)
      fun name => (ofSources vertex fragment).attributes.lookup name := by
  have numbered := numbered_locate solid_keywords.1 (lines vertex.toList)
    fun name => 1 < references vertex name
  have same : (fun name => (∃ line ∈ lines vertex.toList, Declares "in" name line) ∧
      decide (1 < references vertex name) = true) = Uses "in" vertex := by
    funext name
    simp only [decide_eq_true_eq, one_lt_references]
    rfl
  rwa [same] at numbered

/-- Either stage may use a uniform that both declare. -/
theorem usesUniform_iff {declaring other name : String}
    (declared : name ∈ declarations "uniform" declaring) :
    usesUniform declaring other name = true ↔
      Uses "uniform" declaring name ∨ Uses "uniform" other name := by
  rw [mem_declarations solid_keywords.2] at declared
  simp [usesUniform, Uses, declared, mem_declarations solid_keywords.2, one_lt_references]

theorem numbered_uniforms (vertex fragment : String) :
    Numbered "uniform" (lines vertex.toList ++ lines fragment.toList)
      (fun name => Uses "uniform" vertex name ∨ Uses "uniform" fragment name)
      fun name => (ofSources vertex fragment).uniforms.lookup name := by
  classical
  have names : uniformNames vertex fragment =
      ((lines vertex.toList ++ lines fragment.toList).filterMap (declaredName? "uniform")).filter
        fun name => Uses "uniform" vertex name ∨ Uses "uniform" fragment name := by
    rw [List.filterMap_append, List.filter_append]
    refine congrArg₂ (· ++ ·) (List.filter_congr fun name member => ?_)
      (List.filter_congr fun name member => ?_)
    · rw [Bool.eq_iff_iff, usesUniform_iff member, decide_eq_true_eq]
    · rw [Bool.eq_iff_iff, usesUniform_iff member, decide_eq_true_eq, or_comm]
  have numbered := numbered_locate solid_keywords.2 (lines vertex.toList ++ lines fragment.toList)
    fun name => Uses "uniform" vertex name ∨ Uses "uniform" fragment name
  have same : (fun name =>
      (∃ line ∈ lines vertex.toList ++ lines fragment.toList, Declares "uniform" name line) ∧
        decide (Uses "uniform" vertex name ∨ Uses "uniform" fragment name) = true) =
      fun name => Uses "uniform" vertex name ∨ Uses "uniform" fragment name := by
    funext name
    rw [decide_eq_true_eq, eq_iff_iff, and_iff_right_iff_imp]
    rintro (⟨⟨line, member, declares⟩, _⟩ | ⟨⟨line, member, declares⟩, _⟩)
    · exact ⟨line, List.mem_append_left _ member, declares⟩
    · exact ⟨line, List.mem_append_right _ member, declares⟩
  rw [same, ← names] at numbered
  exact numbered

/-- Two texts that build are linked. -/
theorem eq_of_build {vertex fragment : String} {linkage : Linkage}
    (built : build vertex fragment = .ok linkage) : linkage = ofSources vertex fragment := by
  unfold build at built
  cases first : checkStage .vertex vertex with
  | error e =>
    rw [first] at built
    cases built
  | ok _ =>
    cases second : checkStage .fragment fragment with
    | error e =>
      rw [first, second] at built
      cases built
    | ok _ =>
      rw [first, second] at built
      exact (Except.ok.inj built).symm

end Linkage

open Linkage

/-- What the device answers for the program that it builds last. -/
theorem RecordingDevice.lookup_allocate {vertex fragment : String} {d d' : RecordingDevice} {h : Handle}
    (built : d.allocate (.program vertex fragment) = (.ok h, d')) :
    d'.programs.lookup h = some (ofSources vertex fragment) := by
  cases linked : build vertex fragment with
  | error e => simp [RecordingDevice.allocate, linked] at built
  | ok linkage =>
    simp only [RecordingDevice.allocate, linked, Prod.mk.injEq, Except.ok.injEq] at built
    obtain ⟨rfl, rfl⟩ := built
    rw [eq_of_build linked]
    exact List.lookup_cons_self

/-- A program has locations for exactly the inputs that its texts use: attributes by the vertex text alone,
uniforms by either. They are numbered from zero in the order of the declarations, the vertex text's first,
and the device answers with them. -/
theorem link_locates_used (vertex fragment : String) :
    Numbered "in" (lines vertex.toList) (Uses "in" vertex)
      (fun name => (ofSources vertex fragment).attributes.lookup name) ∧
    Numbered "uniform" (lines vertex.toList ++ lines fragment.toList)
      (fun name => Uses "uniform" vertex name ∨ Uses "uniform" fragment name)
      (fun name => (ofSources vertex fragment).uniforms.lookup name) ∧
    ∀ (d d' : RecordingDevice) (h : Handle), d.allocate (.program vertex fragment) = (.ok h, d') →
      ∀ name,
        d'.lookup (.attributeLocation h name) = (ofSources vertex fragment).attributes.lookup name ∧
        d'.lookup (.uniformLocation h name) = (ofSources vertex fragment).uniforms.lookup name := by
  refine ⟨numbered_attributes vertex fragment, numbered_uniforms vertex fragment,
    fun d d' h built name => ?_⟩
  simp [RecordingDevice.lookup, RecordingDevice.lookup_allocate built]

/-- Positions that the text uses, normals that it does not, and weights that only a comment mentions. -/
def positioned : String :=
  "in vec2 a_0;\nin vec3 a_1;\nin float a_2[4]; // a_2\nuniform mat4 view;\n" ++
    "void main() \x7b gl_Position = view * vec4(a_0, 0.0, 1.0); \x7d // a_1"

/-- A view that the other text uses. -/
def viewed : String := "uniform mat4 view;\nuniform vec4 u_0;\nvoid main() \x7b c = u_0; \x7d"

theorem positioned_locates_used :
    let linked := ofSources positioned viewed
    linked.attributes = [("a_0", 0)] ∧ linked.uniforms = [("view", 0), ("u_0", 1)] ∧
      Uses "in" positioned "a_0" ∧ ¬ Uses "in" positioned "a_1" ∧ ¬ Uses "in" positioned "a_2" ∧
      ∃ h d', RecordingDevice.allocate (.program positioned viewed) {} = (.ok h, d') ∧
        d'.lookup (.attributeLocation h "a_0") = some 0 := by
  have linkage : ofSources positioned viewed = ⟨[("a_0", 0)], [("view", 0), ("u_0", 1)]⟩ := by
    decide +kernel
  have granted : (RecordingDevice.allocate (.program positioned viewed) {}).1 = .ok 1 := by
    decide +kernel
  have built : RecordingDevice.allocate (.program positioned viewed) {} =
      (.ok 1, (RecordingDevice.allocate (.program positioned viewed) {}).2) := by
    rw [← granted]
  obtain ⟨numbered, _, answers⟩ := link_locates_used positioned viewed
  rw [linkage] at answers numbered
  refine ⟨by rw [linkage], by rw [linkage], (numbered.located "a_0").mp rfl,
    fun used => absurd ((numbered.located "a_1").mpr used) (by decide),
    fun used => absurd ((numbered.located "a_2").mpr used) (by decide), 1, _, built, ?_⟩
  exact (answers _ _ _ built "a_0").1

end ShaderStack

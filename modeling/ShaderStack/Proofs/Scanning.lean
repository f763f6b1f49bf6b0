import ShaderStack.Device.Linkage
import ShaderStack.Proofs.Preamble
import Mathlib.Data.Set.Card

/-! What a linker finds in a text: the lines that declare a name, and the places that mention it.

A declaration is a statement that ends its line. A mention is a whole word that no comment precedes on its
line. Neither looks past the end of a line. -/
namespace ShaderStack

namespace Text

section Words

theorem splitBy_eq_splitOnP (separates : Char → Bool) (cs : List Char) :
    splitBy separates cs = cs.splitOnP separates := by
  induction cs with
  | nil => rfl
  | cons c cs ih =>
    rw [splitBy, List.splitOnP_cons_eq_if_modifyHead, ih]
    split
    · rfl
    · cases pieces : cs.splitOnP separates with
      | nil => exact absurd pieces (List.splitOnP_ne_nil separates cs)
      | cons piece more => rfl

/-- A word is not empty and has no white space in it. -/
def Solid (word : List Char) : Prop := word ≠ [] ∧ ∀ c ∈ word, isBlank c = false

variable {x y cs word : List Char} {rest : List (List Char)}

theorem words_append_cons {c : Char} (blank : isBlank c = true) (x y : List Char) :
    words (x ++ c :: y) = words x ++ words y := by
  simp only [words, splitBy_eq_splitOnP, List.splitOnP_append_cons x y blank, List.filter_append]

theorem words_append
    (apart : (∃ c ∈ x.getLast?, isBlank c = true) ∨ ∃ c ∈ y.head?, isBlank c = true) :
    words (x ++ y) = words x ++ words y := by
  rcases apart with ⟨c, last, blank⟩ | ⟨c, first, blank⟩
  · obtain ⟨x, rfl⟩ := List.getLast?_eq_some_iff.mp last
    have alone := words_append_cons blank x []
    rw [List.append_assoc, List.singleton_append, words_append_cons blank, alone]
    simp [words, splitBy]
  · obtain ⟨y, rfl⟩ := List.head?_eq_some_iff.mp first
    have alone := words_append_cons blank [] y
    rw [words_append_cons blank, ← List.nil_append (c :: y), alone]
    simp [words, splitBy]

theorem words_blank_append (blank : ∀ c ∈ x, isBlank c = true) (y : List Char) :
    words (x ++ y) = words y := by
  induction x with
  | nil => rfl
  | cons c x ih =>
    have alone := words_append_cons (blank c List.mem_cons_self) [] (x ++ y)
    rw [List.cons_append, ← List.nil_append (c :: _), alone,
      ih fun d member => blank d (List.mem_cons_of_mem _ member)]
    rfl

theorem words_of_blank (blank : ∀ c ∈ cs, isBlank c = true) : words cs = [] := by
  rw [← List.append_nil cs, words_blank_append blank]
  rfl

theorem words_of_solid (solid : Solid word) : words word = [word] := by
  unfold words
  rw [splitBy_eq_splitOnP, List.splitOnP_eq_singleton fun c member => by simpa using solid.2 c member]
  simp [solid.1]

theorem words_solid_append (solid : Solid word) (stops : ∀ c ∈ y.head?, isBlank c = true) :
    words (word ++ y) = word :: words y := by
  cases y with
  | nil =>
    rw [List.append_nil, words_of_solid solid]
    rfl
  | cons c y =>
    rw [words_append (.inr ⟨c, rfl, stops c rfl⟩), words_of_solid solid]
    rfl

/-- A text that is not blank has a first word. -/
theorem exists_first_word (code : ∃ c ∈ cs, isBlank c = false) :
    ∃ lead word tail, cs = lead ++ (word ++ tail) ∧ (∀ c ∈ lead, isBlank c = true) ∧ Solid word ∧
      ∀ c ∈ tail.head?, isBlank c = true := by
  obtain ⟨lead, split, blank, first⟩ := trimLeft_eq cs
  refine ⟨lead, (trimLeft cs).takeWhile (!isBlank ·), (trimLeft cs).dropWhile (!isBlank ·), ?_, blank,
    ⟨fun none => ?_, fun c member => ?_⟩, fun c member => ?_⟩
  · rw [List.takeWhile_append_dropWhile, ← split]
  · obtain ⟨c, member, solid⟩ := code
    rw [split, List.mem_append] at member
    rcases member with member | member
    · simp [blank c member] at solid
    · obtain ⟨d, more, trimmed⟩ := List.exists_cons_of_ne_nil (List.ne_nil_of_mem member)
      have solid := first d (by simp [trimmed])
      simp [trimmed, solid] at none
  · simpa using List.all_eq_true.mp List.all_takeWhile c member
  · have stops := List.head?_dropWhile_not (!isBlank ·) (trimLeft cs)
    rw [Option.mem_def.mp member] at stops
    simpa using stops

theorem words_eq_nil_iff : words cs = [] ↔ ∀ c ∈ cs, isBlank c = true := by
  refine ⟨fun none => ?_, words_of_blank⟩
  by_contra code
  push Not at code
  simp only [Bool.not_eq_true] at code
  obtain ⟨lead, word, tail, rfl, blank, solid, stops⟩ := exists_first_word code
  rw [words_blank_append blank, words_solid_append solid stops] at none
  contradiction

/-- The first word of a text, what is before it and what is behind it. -/
theorem words_eq_cons (cut : words cs = word :: rest) :
    ∃ lead tail, cs = lead ++ (word ++ tail) ∧ (∀ c ∈ lead, isBlank c = true) ∧ Solid word ∧
      (∀ c ∈ tail.head?, isBlank c = true) ∧ words tail = rest := by
  have code : ∃ c ∈ cs, isBlank c = false := by
    by_contra blank
    push Not at blank
    simp only [ne_eq, Bool.not_eq_false] at blank
    rw [words_of_blank blank] at cut
    contradiction
  obtain ⟨lead, first, tail, rfl, blank, solid, stops⟩ := exists_first_word code
  rw [words_blank_append blank, words_solid_append solid stops] at cut
  obtain ⟨rfl, rfl⟩ := List.cons.inj cut
  exact ⟨lead, tail, rfl, blank, solid, stops, rfl⟩

/-- White space is before a word if there is anything. -/
theorem Solid.exists_head {front trail : List Char} (solid : Solid word)
    (stops : ∀ c ∈ (front ++ (word ++ trail)).head?, isBlank c = true) :
    ∃ c ∈ front.head?, isBlank c = true := by
  cases front with
  | nil =>
    obtain ⟨c, word, rfl⟩ := List.exists_cons_of_ne_nil solid.1
    have blank := stops c rfl
    rw [solid.2 c List.mem_cons_self] at blank
    contradiction
  | cons c front => exact ⟨c, rfl, stops c rfl⟩

/-- The last word of a text, what is before it and what is behind it. -/
theorem words_getLast? (last : (words cs).getLast? = some word) :
    ∃ front trail, cs = front ++ (word ++ trail) ∧ (∀ c ∈ trail, isBlank c = true) ∧ Solid word ∧
      ∀ c ∈ front.getLast?, isBlank c = true := by
  generalize cut : words cs = all at last
  induction all generalizing cs with
  | nil => contradiction
  | cons first rest ih =>
    obtain ⟨lead, tail, rfl, blank, solid, stops, more⟩ := words_eq_cons cut
    cases rest with
    | nil =>
      obtain rfl : first = word := Option.some.inj last
      exact ⟨lead, tail, rfl, words_eq_nil_iff.mp more, solid, fun c member =>
        blank c (List.mem_of_getLast? member)⟩
    | cons second rest =>
      have last' : (second :: rest).getLast? = some word := by simpa using last
      obtain ⟨front, trail, rfl, clear, solid', ends⟩ := ih more last'
      refine ⟨lead ++ (first ++ front), trail, by simp, clear, solid', fun c member => ?_⟩
      obtain ⟨d, head, _⟩ := solid'.exists_head stops
      obtain ⟨front, rfl⟩ := List.head?_eq_some_iff.mp head
      rw [← List.append_assoc, List.getLast?_append_of_ne_nil _ (List.cons_ne_nil _ _)] at member
      exact ends c member

end Words

/-- The line declares the name: it is a statement that ends in a semicolon, whose first word is the keyword
and whose last word is the name, up to an array bound. -/
inductive Declares (keyword name : String) : List Char → Prop
  | statement {lead between bound gap trail : List Char}
      (margins : ∀ c ∈ lead ++ (gap ++ trail), isBlank c = true)
      (starts : ∃ c ∈ between.head?, isBlank c = true)
      (ends : ∃ c ∈ between.getLast?, isBlank c = true) (word : Solid (name.toList ++ bound))
      (plain : '[' ∉ name.toList) (bracket : ∀ c ∈ bound.head?, c = '[') :
      Declares keyword name
        (lead ++ (keyword.toList ++ (between ++ (name.toList ++ bound ++ (gap ++ ';' :: trail)))))

/-- A name between two parts of a line, as a whole word. No comment begins before the word ends. -/
structure Word (before name after : List Char) : Prop where
  letters : ∀ c ∈ name, isIdentifierChar c = true
  starts : ∀ c ∈ before.getLast?, isIdentifierChar c = false
  ends : ∀ c ∈ after.head?, isIdentifierChar c = false
  code : ∀ front comment, before ++ (name ++ after) = front ++ '/' :: '/' :: comment →
    (before ++ name).length ≤ front.length

/-- The offsets at which a line mentions a name. -/
def offsets (name line : List Char) : Set Nat :=
  {i | ∃ before after, line = before ++ (name ++ after) ∧ before.length = i ∧ Word before name after}

/-- The places at which a text mentions a name: a line and an offset in the line. -/
def mentions (source name : String) : Set (Nat × Nat) :=
  {place | ∃ line ∈ (lines source.toList)[place.1]?, place.2 ∈ offsets name.toList line}

end Text

namespace Linkage

open Text

section Declarations

variable {line s : List Char}

theorem statement?_sound (ends : statement? line = some s) :
    ∃ lead trail, line = lead ++ (s ++ ';' :: trail) ∧ (∀ c ∈ lead, isBlank c = true) ∧
      ∀ c ∈ trail, isBlank c = true := by
  unfold statement? at ends
  split at ends
  · next rest reversed =>
    obtain rfl := Option.some.inj ends
    obtain ⟨lead, split, blank, _⟩ := trimLeft_eq line
    obtain ⟨trail, split', blank'⟩ := trimRight_eq (trimLeft line)
    have kept : trimRight (trimLeft line) = rest.reverse ++ [';'] := by
      rw [← List.reverse_cons, ← reversed]
      exact (List.reverse_reverse _).symm
    rw [kept] at split'
    rw [split'] at split
    exact ⟨lead, trail, by simpa using split, blank, blank'⟩
  · contradiction

theorem statement?_complete {lead trail : List Char} (blank : ∀ c ∈ lead, isBlank c = true)
    (blank' : ∀ c ∈ trail, isBlank c = true) (starts : ∃ c ∈ s.head?, isBlank c = false) :
    statement? (lead ++ (s ++ ';' :: trail)) = some s := by
  obtain ⟨first, head, solid⟩ := starts
  obtain ⟨more, rfl⟩ := List.head?_eq_some_iff.mp head
  have left : trimLeft (lead ++ (first :: more ++ ';' :: trail)) = first :: more ++ [';'] ++ trail := by
    unfold trimLeft
    rw [List.dropWhile_append_of_pos blank, List.cons_append, List.dropWhile_cons_of_neg (by simp [solid])]
    simp
  have right : trimRight (first :: more ++ [';'] ++ trail) = first :: more ++ [';'] := by
    unfold trimRight
    rw [List.reverse_append, List.dropWhile_append_of_pos (by simpa using blank'), List.reverse_append,
      List.reverse_singleton, List.singleton_append, List.dropWhile_cons_of_neg (by decide)]
    simp
  unfold statement? trim
  rw [left, right]
  simp

theorem declaredName?_eq_some {keyword name : String} : declaredName? keyword line = some name ↔
    ∃ s rest last, statement? line = some s ∧ words s = keyword.toList :: rest ∧
      rest.getLast? = some last ∧ String.ofList (last.takeWhile (· != '[')) = name := by
  constructor
  · intro found
    obtain ⟨s, ends, found⟩ := Option.bind_eq_some_iff.mp found
    split at found
    · next first rest cut =>
      split at found
      · next same =>
        obtain ⟨last, there, named⟩ := Option.bind_eq_some_iff.mp found
        exact ⟨s, rest, last, ends, same ▸ cut, there, Option.some.inj named⟩
      · contradiction
    · contradiction
  · rintro ⟨s, rest, last, ends, cut, there, rfl⟩
    simp [declaredName?, ends, cut, there]

/-- The scanner finds the declarations of a keyword, and only these. -/
theorem declaredName?_eq_some_iff {keyword name : String} (solid : Solid keyword.toList) :
    declaredName? keyword line = some name ↔ Declares keyword name line := by
  rw [declaredName?_eq_some]
  constructor
  · rintro ⟨s, rest, last, ends, cut, there, rfl⟩
    obtain ⟨lead, trail, rfl, blank, blank'⟩ := statement?_sound ends
    obtain ⟨lead', tail, rfl, blank'', _, stops, rfl⟩ := words_eq_cons cut
    obtain ⟨between, gap, rfl, clear, whole, apart⟩ := words_getLast? there
    obtain ⟨first, head, starts⟩ := whole.exists_head stops
    have parts : last.takeWhile (· != '[') ++ last.dropWhile (· != '[') = last :=
      List.takeWhile_append_dropWhile
    have line_eq : lead ++ (lead' ++ (keyword.toList ++ (between ++ (last ++ gap))) ++ ';' :: trail) =
        (lead ++ lead') ++ (keyword.toList ++ (between ++
          ((String.ofList (last.takeWhile (· != '['))).toList ++ last.dropWhile (· != '[') ++
            (gap ++ ';' :: trail)))) := by
      rw [String.toList_ofList, parts]
      simp
    rw [line_eq]
    refine .statement ?_ ⟨first, head, starts⟩ ?_ ?_ ?_ ?_
    · simp only [List.mem_append]
      rintro c ((member | member) | (member | member))
      · exact blank c member
      · exact blank'' c member
      · exact clear c member
      · exact blank' c member
    · obtain ⟨between, rfl⟩ := List.head?_eq_some_iff.mp head
      exact ⟨_, List.getLast?_eq_some_getLast (List.cons_ne_nil _ _), apart _
        (List.getLast?_eq_some_getLast (List.cons_ne_nil _ _))⟩
    · rw [String.toList_ofList, parts]
      exact whole
    · rw [String.toList_ofList]
      intro member
      simpa using List.all_eq_true.mp List.all_takeWhile _ member
    · intro c member
      have stops := List.head?_dropWhile_not (· != '[') last
      rw [Option.mem_def.mp member] at stops
      simpa using stops
  · rintro ⟨margins, starts, ends, word, plain, bracket⟩
    next lead between bound gap trail =>
    have blank : ∀ c ∈ lead, isBlank c = true := fun c member => margins c (by simp [member])
    have blank' : ∀ c ∈ trail, isBlank c = true := fun c member => margins c (by simp [member])
    have clear : ∀ c ∈ gap, isBlank c = true := fun c member => margins c (by simp [member])
    refine ⟨keyword.toList ++ (between ++ (name.toList ++ bound ++ gap)),
      words between ++ [name.toList ++ bound], name.toList ++ bound, ?_, ?_, by simp, ?_⟩
    · obtain ⟨c, rest, split⟩ := List.exists_cons_of_ne_nil solid.1
      have found := statement?_complete blank blank'
        (s := keyword.toList ++ (between ++ (name.toList ++ bound ++ gap)))
        ⟨c, by simp [split], solid.2 c (by simp [split])⟩
      rw [← found]
      simp
    · obtain ⟨c, head, space⟩ := starts
      rw [words_append (.inr ⟨c, by simp [List.head?_append, Option.mem_def.mp head], space⟩),
        words_of_solid solid, words_append (.inl ends), words_solid_append word]
      · rw [words_of_blank clear]
        rfl
      · exact fun c member => clear c (List.mem_of_head? member)
    · have front : (name.toList ++ bound).takeWhile (· != '[') = name.toList := by
        rw [List.takeWhile_append_of_pos fun c member => by simpa using ne_of_mem_of_not_mem member plain]
        cases bound with
        | nil => simp
        | cons c bound => simp [bracket c rfl]
      rw [front, String.ofList_toList]

/-- The names that the lines of a text declare. -/
theorem mem_declarations {keyword name source : String} (solid : Solid keyword.toList) :
    name ∈ declarations keyword source ↔ ∃ line ∈ lines source.toList, Declares keyword name line := by
  unfold declarations
  simp only [List.mem_filterMap, declaredName?_eq_some_iff solid]

end Declarations

section Mentions

variable {name line : List Char}

theorem beforeComment_cons {c : Char} (plain : ¬ ['/', '/'] <+: c :: line) :
    beforeComment (c :: line) = c :: beforeComment line := by
  rw [beforeComment]
  rintro tail rfl rfl
  simp at plain

theorem beforeComment_of_comment (comment : ['/', '/'] <+: line) : beforeComment line = [] := by
  obtain ⟨rest, rfl⟩ := comment
  rfl

theorem beforeComment_of_not_mem (clear : '/' ∉ line) : beforeComment line = line := by
  induction line with
  | nil => rfl
  | cons c line ih =>
    rw [List.mem_cons, not_or] at clear
    rw [beforeComment_cons (by simp [clear.1]), ih clear.2]

/-- A comment ends no word that it does not begin after. -/
theorem takeWhile_beforeComment (line : List Char) :
    (beforeComment line).takeWhile isIdentifierChar = line.takeWhile isIdentifierChar := by
  induction line with
  | nil => rfl
  | cons c line ih =>
    by_cases comment : ['/', '/'] <+: c :: line
    · rw [beforeComment_of_comment comment]
      obtain ⟨rest, same⟩ := comment
      rw [← same]
      rfl
    · rw [beforeComment_cons comment, List.takeWhile_cons, List.takeWhile_cons, ih]

theorem Word.cons_iff {c : Char} {before after : List Char} : Word (c :: before) name after ↔
    ¬ ['/', '/'] <+: c :: (before ++ (name ++ after)) ∧
      (before = [] → isIdentifierChar c = false) ∧ Word before name after := by
  constructor
  · rintro ⟨letters, starts, ends, code⟩
    refine ⟨fun ⟨comment, same⟩ => ?_, fun none => ?_, letters, fun d member => ?_, ends,
      fun front comment same => ?_⟩
    · have late := code [] comment (by simpa using same.symm)
      simp at late
    · exact starts c (by simp [none])
    · exact starts d (by simp [List.getLast?_cons, Option.mem_def.mp member])
    · have late := code (c :: front) comment (by simp [same])
      simpa using late
  · rintro ⟨plain, first, letters, starts, ends, code⟩
    refine ⟨letters, fun d member => ?_, ends, fun front comment same => ?_⟩
    · rw [List.getLast?_cons] at member
      cases last : before.getLast? with
      | none =>
        rw [last] at member
        obtain rfl := Option.some.inj member
        exact first (List.getLast?_eq_none_iff.mp last)
      | some e =>
        rw [last] at member
        obtain rfl := Option.some.inj member
        exact starts _ last
    · cases front with
      | nil => exact absurd ⟨comment, by simpa using same.symm⟩ plain
      | cons d front =>
        obtain ⟨rfl, same'⟩ := List.cons.inj same
        simpa using code front comment same'

theorem succ_mem_offsets {c : Char} {i : Nat} : i + 1 ∈ offsets name (c :: line) ↔
    ¬ ['/', '/'] <+: c :: line ∧ (i = 0 → isIdentifierChar c = false) ∧ i ∈ offsets name line := by
  constructor
  · rintro ⟨_ | ⟨d, before⟩, after, same, count, word⟩
    · contradiction
    · obtain ⟨rfl, rfl⟩ := List.cons.inj same
      obtain ⟨plain, first, word⟩ := Word.cons_iff.mp word
      have count : before.length = i := by simpa using count
      refine ⟨plain, fun zero => first (List.eq_nil_of_length_eq_zero (count.trans zero)), before, after,
        rfl, count, word⟩
  · rintro ⟨plain, first, before, after, rfl, rfl, word⟩
    exact ⟨c :: before, after, rfl, rfl, Word.cons_iff.mpr
      ⟨plain, fun none => first (by simp [none]), word⟩⟩

theorem zero_mem_offsets : 0 ∈ offsets name line ↔ line.takeWhile isIdentifierChar = name := by
  constructor
  · rintro ⟨before, after, rfl, none, ⟨letters, _, ends, _⟩⟩
    obtain rfl := List.eq_nil_of_length_eq_zero none
    rw [List.nil_append, List.takeWhile_append_of_pos letters]
    cases after with
    | nil => simp
    | cons c after => simp [ends c rfl]
  · rintro rfl
    have letters : ∀ c ∈ line.takeWhile isIdentifierChar, isIdentifierChar c = true :=
      List.all_eq_true.mp List.all_takeWhile
    refine ⟨[], line.dropWhile isIdentifierChar, List.takeWhile_append_dropWhile.symm, rfl, letters,
      nofun, fun c member => ?_, fun front comment same => ?_⟩
    · have stops := List.head?_dropWhile_not isIdentifierChar line
      rw [Option.mem_def.mp member] at stops
      exact stops
    · -- a slash is no part of a word
      by_contra early
      rw [Nat.not_le] at early
      have slash : '/' ∈ line.takeWhile isIdentifierChar := by
        have here := congrArg (·[front.length]?) same
        simp only [List.nil_append] at here early
        rw [List.getElem?_append_left early] at here
        exact List.mem_of_getElem? (here.trans (by simp))
      exact absurd (letters _ slash) (by decide)

theorem encard_offsets (name line : List Char) : (offsets name line).encard =
    {i | i + 1 ∈ offsets name line}.encard +
      if line.takeWhile isIdentifierChar = name then 1 else 0 := by
  have shifted : (Nat.succ '' {i | i + 1 ∈ offsets name line}).encard =
      {i | i + 1 ∈ offsets name line}.encard := Nat.succ_injective.encard_image _
  rw [← shifted]
  by_cases first : line.takeWhile isIdentifierChar = name
  · rw [if_pos first, ← Set.encard_insert_of_notMem (by simp : 0 ∉ Nat.succ '' _)]
    congr 1
    ext i
    cases i <;> simp [zero_mem_offsets, first]
  · rw [if_neg first, add_zero]
    congr 1
    ext i
    cases i <;> simp [zero_mem_offsets, first]

/-- The pieces that a line falls into: a first one, and those behind the first separator. -/
def laterPieces : List Char → List (List Char)
  | [] => []
  | c :: line =>
    if isIdentifierChar c then laterPieces line else splitBy (fun c => !isIdentifierChar c) line

theorem splitBy_eq_cons (line : List Char) : splitBy (fun c => !isIdentifierChar c) line =
    line.takeWhile isIdentifierChar :: laterPieces line := by
  induction line with
  | nil => rfl
  | cons c line ih =>
    cases letter : isIdentifierChar c <;> simp [splitBy, laterPieces, letter, ih]

theorem count_splitBy (name line : List Char) :
    (splitBy (fun c => !isIdentifierChar c) (beforeComment line)).count name =
      (laterPieces (beforeComment line)).count name +
        if line.takeWhile isIdentifierChar = name then 1 else 0 := by
  rw [splitBy_eq_cons, List.count_cons, takeWhile_beforeComment]
  simp

/-- The words of a line are counted place by place. Behind the first separator are the words whose offset
is not zero. -/
theorem count_laterPieces (name line : List Char) :
    ((laterPieces (beforeComment line)).count name : ℕ∞) = {i | i + 1 ∈ offsets name line}.encard := by
  induction line with
  | nil =>
    have none : {i | i + 1 ∈ offsets name []} = ∅ := by
      ext i
      simp only [Set.mem_ofPred_eq, Set.mem_empty_iff_false, iff_false]
      rintro ⟨before, after, same, count, _⟩
      obtain rfl := (List.append_eq_nil_iff.mp same.symm).1
      contradiction
    rw [none]
    simp [beforeComment, laterPieces]
  | cons c line ih =>
    by_cases comment : ['/', '/'] <+: c :: line
    · rw [beforeComment_of_comment comment]
      simp [succ_mem_offsets, comment, laterPieces]
    · rw [beforeComment_cons comment]
      cases letter : isIdentifierChar c with
      | true =>
        have later : {i | i + 1 ∈ offsets name (c :: line)} =
            Nat.succ '' {i | i + 1 ∈ offsets name line} := by
          ext i
          cases i <;> simp [succ_mem_offsets, comment, letter]
        rw [later, Nat.succ_injective.encard_image, ← ih]
        simp [laterPieces, letter]
      | false =>
        have all : {i | i + 1 ∈ offsets name (c :: line)} = offsets name line := by
          ext i
          simp [succ_mem_offsets, comment, letter]
        rw [all, encard_offsets, ← ih]
        simp only [laterPieces, letter, Bool.false_eq_true, if_false, count_splitBy]
        push_cast
        rfl

/-- The scanner counts the places at which a line mentions the name. -/
theorem count_pieces (name line : List Char) :
    ((splitBy (fun c => !isIdentifierChar c) (beforeComment line)).count name : ℕ∞) =
      (offsets name line).encard := by
  rw [count_splitBy, encard_offsets, ← count_laterPieces]
  push_cast
  rfl

/-- A first line adds its offsets to the places in the others. -/
theorem encard_places (name : List Char) (all : List (List Char)) :
    {place : Nat × Nat | ∃ line ∈ all[place.1]?, place.2 ∈ offsets name line}.encard =
      (all.map fun line => (offsets name line).encard).sum := by
  induction all with
  | nil => simp
  | cons line more ih =>
    have parts : {place : Nat × Nat | ∃ l ∈ (line :: more)[place.1]?, place.2 ∈ offsets name l} =
        (fun i => (0, i)) '' offsets name line ∪ (fun place : Nat × Nat => (place.1 + 1, place.2)) ''
          {place : Nat × Nat | ∃ l ∈ more[place.1]?, place.2 ∈ offsets name l} := by
      ext ⟨k, i⟩
      cases k <;> simp
    have apart : Disjoint ((fun i => ((0 : Nat), i)) '' offsets name line)
        ((fun place : Nat × Nat => (place.1 + 1, place.2)) ''
          {place : Nat × Nat | ∃ l ∈ more[place.1]?, place.2 ∈ offsets name l}) := by
      rw [Set.disjoint_left]
      rintro _ ⟨i, _, rfl⟩ ⟨place, _, same⟩
      exact absurd (congrArg Prod.fst same) (Nat.succ_ne_zero _)
    have first : (fun i : Nat => ((0 : Nat), i)).Injective := fun i j same => congrArg Prod.snd same
    have later : (fun place : Nat × Nat => (place.1 + 1, place.2)).Injective := by
      rintro ⟨k, i⟩ ⟨l, j⟩ same
      simpa using same
    rw [parts, Set.encard_union_eq apart, first.encard_image, later.encard_image, ih, List.map_cons,
      List.sum_cons]

/-- The scanner counts the places at which a text mentions the name. -/
theorem references_eq_encard (source name : String) :
    (references source name : ℕ∞) = (mentions source name).encard := by
  unfold mentions references codeWords
  rw [encard_places, List.count_flatMap]
  have each (line : List Char) : ((((splitBy (fun c => !isIdentifierChar c) (beforeComment line)).map
      String.ofList).count name : ℕ) : ℕ∞) = (offsets name.toList line).encard := by
    have same := List.count_map_of_injective
      (splitBy (fun c => !isIdentifierChar c) (beforeComment line)) String.ofList
      (fun _ _ => String.ofList_injective) name.toList
    rw [String.ofList_toList] at same
    rw [same, count_pieces]
  induction lines source.toList with
  | nil => rfl
  | cons line more ih =>
    simp only [List.map_cons, List.sum_cons, Nat.cast_add, ih, Function.comp_apply, each]

/-- A text uses a name again if it mentions it at two places. -/
theorem one_lt_references {source name : String} :
    1 < references source name ↔ (mentions source name).Nontrivial := by
  rw [← Set.one_lt_encard_iff_nontrivial, ← references_eq_encard]
  exact Nat.one_lt_cast.symm

end Mentions

end Linkage
end ShaderStack

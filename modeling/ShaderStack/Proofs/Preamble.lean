import ShaderStack.Shader.Preamble
import Mathlib.Logic.Relation
import Mathlib.Data.List.Basic

/-! Where declarations go: behind the preamble of a text, and into no statement and no comment.

The preamble is the longest front of a text that consists of white space, line comments, directives and
whole precision statements. The scanner of whole lines finds its end, up to white space and comments, as
long as each precision statement keeps to a line and the rest of that line to itself. -/
namespace ShaderStack

namespace Text

/-- A line ends with its newline, and only the last line may lack one. -/
def Line (line : List Char) (more : List (List Char)) : Prop :=
  (∃ text, line = text ++ ['\n'] ∧ '\n' ∉ text) ∨ '\n' ∉ line ∧ more = []

/-- Cutting a text into lines loses nothing. -/
theorem flatten_linesInclusive (cs : List Char) : (linesInclusive cs).flatten = cs := by
  induction cs with
  | nil => rfl
  | cons c cs ih =>
    unfold linesInclusive
    by_cases newline : c = '\n'
    · simp [newline, ih]
    · rw [if_neg newline]
      cases more : linesInclusive cs with
      | nil =>
        rw [more] at ih
        simp [← ih]
      | cons line rest =>
        rw [more] at ih
        simp [← ih]

/-- The lines behind the first one are the lines of what is behind it. -/
theorem linesInclusive_cons {cs line : List Char} {more : List (List Char)}
    (cut : linesInclusive cs = line :: more) :
    Line line more ∧ more = linesInclusive more.flatten := by
  induction cs generalizing line more with
  | nil => contradiction
  | cons c cs ih =>
    unfold linesInclusive at cut
    by_cases newline : c = '\n'
    · rw [if_pos newline] at cut
      obtain ⟨rfl, rfl⟩ := List.cons.inj cut
      exact ⟨.inl ⟨[], rfl, List.not_mem_nil⟩, by rw [flatten_linesInclusive]⟩
    · rw [if_neg newline] at cut
      cases lines : linesInclusive cs with
      | nil =>
        rw [lines] at cut
        obtain ⟨rfl, rfl⟩ := List.cons.inj cut
        exact ⟨.inr ⟨by simpa using Ne.symm newline, rfl⟩, rfl⟩
      | cons line' more' =>
        rw [lines] at cut
        obtain ⟨rfl, rfl⟩ := List.cons.inj cut
        obtain ⟨whole, same⟩ := ih lines
        refine ⟨?_, same⟩
        rcases whole with ⟨text, rfl, free⟩ | ⟨free, last⟩
        · exact .inl ⟨c :: text, rfl, by simp [free, Ne.symm newline]⟩
        · exact .inr ⟨by simp [free, Ne.symm newline], last⟩

/-- What is left of a line is a line. -/
theorem Line.suffix {front text : List Char} {more : List (List Char)} (line : Line (front ++ text) more)
    (rest : '\n' ∉ front ∨ text ≠ []) : Line text more := by
  rcases line with ⟨whole, split, free⟩ | ⟨free, last⟩
  · rcases text.eq_nil_or_concat with rfl | ⟨kept, c, rfl⟩
    · rcases rest with clean | more
      · rw [List.append_nil] at split
        simp [split] at clean
      · exact absurd rfl more
    · rw [List.concat_eq_append, ← List.append_assoc] at split
      obtain ⟨rfl, same⟩ := List.append_inj' split rfl
      refine .inl ⟨kept, by rw [List.concat_eq_append, same], ?_⟩
      exact fun member => free (List.mem_append_right _ member)
  · exact .inr ⟨fun member => free (List.mem_append_right _ member), last⟩

/-- A word that a line begins with does not reach into the next one. -/
theorem Line.isPrefixOf {word line : List Char} {more : List (List Char)} (whole : Line line more)
    (short : '\n' ∉ word) : word.isPrefixOf (line ++ more.flatten) = word.isPrefixOf line := by
  rw [Bool.eq_iff_iff, List.isPrefixOf_iff_prefix, List.isPrefixOf_iff_prefix]
  refine ⟨fun front => ?_, fun front => front.trans (List.prefix_append _ _)⟩
  rcases whole with ⟨text, rfl, _⟩ | ⟨_, rfl⟩
  · rcases List.prefix_or_prefix_of_prefix front (List.prefix_append _ _) with here | beyond
    · exact here
    · exact absurd (beyond.mem (List.mem_append_right _ List.mem_cons_self)) short
  · rwa [List.flatten_nil, List.append_nil] at front

theorem trimLeft_eq (cs : List Char) : ∃ margin, cs = margin ++ trimLeft cs ∧
    (∀ c ∈ margin, isBlank c = true) ∧ ∀ c ∈ (trimLeft cs).head?, isBlank c = false := by
  refine ⟨cs.takeWhile isBlank, List.takeWhile_append_dropWhile.symm, ?_, ?_⟩
  · exact List.all_eq_true.mp List.all_takeWhile
  · intro c first
    have stops := List.head?_dropWhile_not isBlank cs
    unfold trimLeft at first
    rw [Option.mem_def.mp first] at stops
    exact stops

theorem trimRight_eq (cs : List Char) :
    ∃ margin, cs = trimRight cs ++ margin ∧ ∀ c ∈ margin, isBlank c = true := by
  refine ⟨(cs.reverse.takeWhile isBlank).reverse, ?_, ?_⟩
  · unfold trimRight
    rw [← List.reverse_append, List.takeWhile_append_dropWhile, List.reverse_reverse]
  · intro c member
    exact List.all_eq_true.mp List.all_takeWhile c (List.mem_reverse.mp member)

/-- A text begins with a word without white space whether it is trimmed at its end or not. -/
theorem isPrefixOf_trimRight {word cs : List Char} (solid : ∀ c ∈ word, isBlank c = false) :
    word.isPrefixOf (trimRight cs) = word.isPrefixOf cs := by
  obtain ⟨margin, split, blank⟩ := trimRight_eq cs
  rw [Bool.eq_iff_iff, List.isPrefixOf_iff_prefix, List.isPrefixOf_iff_prefix]
  generalize trimRight cs = kept at split ⊢
  subst split
  constructor
  · exact fun front => front.trans (List.prefix_append _ _)
  · intro front
    rcases List.prefix_or_prefix_of_prefix front (List.prefix_append _ margin) with
      short | ⟨more, rfl⟩
    · exact short
    · have white : more <+: margin := (List.prefix_append_right_inj _).mp front
      have empty : more = [] := by
        apply List.eq_nil_iff_forall_not_mem.mpr
        intro c member
        have solid := solid c (List.mem_append_right _ member)
        rw [blank c (white.mem member)] at solid
        contradiction
      simp [empty]

/-- What is trimmed away leaves a text that is not blank. -/
theorem isEmpty_trim {cs : List Char} : (trim cs).isEmpty = (trimLeft cs).isEmpty := by
  obtain ⟨margin, split, blank⟩ := trimRight_eq (trimLeft cs)
  obtain ⟨_, _, _, solid⟩ := trimLeft_eq cs
  unfold trim
  cases left : trimLeft cs with
  | nil => rfl
  | cons c rest =>
    rw [left] at split solid
    cases right : trimRight (c :: rest) with
    | nil =>
      rw [right, List.nil_append] at split
      have white := blank c (split ▸ List.mem_cons_self)
      rw [solid c rfl] at white
      contradiction
    | cons d more => rfl

end Text

namespace Preamble

section Cut

/-- The two parts of a text are the text. -/
theorem split_append (body : List Char) : (split body).1 ++ (split body).2 = body := by
  have lines (lines : List (List Char)) :
      (splitLines lines).1 ++ (splitLines lines).2 = lines.flatten := by
    induction lines with
    | nil => rfl
    | cons line more ih =>
      unfold splitLines
      cases extent line with
      | whole => simp [ih]
      | upTo count => simp [← List.append_assoc]
      | nothing => simp
  unfold split
  rw [lines, Text.flatten_linesInclusive]

theorem throughSemicolon_append {text rest : List Char} (free : ';' ∉ text) :
    throughSemicolon (text ++ ';' :: rest) = some (text.length + 1) := by
  have none : text.findIdx? (· == ';') = none := by
    rw [List.findIdx?_eq_none_iff]
    intro c member
    simpa using fun same : c = ';' => free (same ▸ member)
  simp [throughSemicolon, List.findIdx?_append, none, List.findIdx?_cons]

theorem exists_of_upTo {line : List Char} {count : Nat} (stops : extent line = .upTo count) :
    ∃ text rest, ';' ∉ text ∧ line = text ++ ';' :: rest ∧ count = text.length + 1 := by
  unfold extent at stops
  by_cases member : ';' ∈ line
  · obtain ⟨text, rest, rfl, free⟩ := List.eq_append_cons_of_mem member
    rw [throughSemicolon_append free] at stops
    refine ⟨text, rest, free, rfl, ?_⟩
    dsimp only at stops
    split at stops
    · split at stops
      · contradiction
      · exact (Extent.upTo.inj stops).symm
    · split at stops <;> contradiction
  · have none : throughSemicolon line = none := by
      rw [throughSemicolon, Option.map_eq_none_iff, List.findIdx?_eq_none_iff]
      intro c there
      simpa using fun same : c = ';' => member (same ▸ there)
    rw [none] at stops
    dsimp only at stops
    split at stops
    · contradiction
    · split at stops <;> contradiction

/-- Where the scanner stops, counted in bytes: whole lines count all of theirs, and a line that is cut
counts those before its semicolon and one more. -/
def byteOffset : List (List Char) → Nat
  | [] => 0
  | line :: more =>
    match extent line with
    | .whole => (String.ofList line).utf8ByteSize + byteOffset more
    | .upTo _ => (String.ofList (line.takeWhile (· ≠ ';'))).utf8ByteSize + 1
    | .nothing => 0

/-- A semicolon is one byte, so that the bytes end where a character does. -/
theorem byteOffset_eq (body : List Char) :
    byteOffset (Text.linesInclusive body) = (String.ofList (split body).1).utf8ByteSize := by
  unfold split
  induction Text.linesInclusive body with
  | nil => rfl
  | cons line more ih =>
    unfold byteOffset splitLines
    cases cut : extent line with
    | whole => simp [ih, String.ofList_append, String.utf8ByteSize_append]
    | upTo count =>
      obtain ⟨text, rest, free, rfl, rfl⟩ := exists_of_upTo cut
      have before : (text ++ ';' :: rest).takeWhile (· ≠ ';') = text := by
        rw [List.takeWhile_append_of_pos, List.takeWhile_cons_of_neg (by decide), List.append_nil]
        intro c member
        simpa using fun same : c = ';' => free (same ▸ member)
      have taken : (text ++ ';' :: rest).take (text.length + 1) = text ++ [';'] := by
        rw [List.take_append, List.take_of_length_le (Nat.le_succ _)]
        simp
      dsimp only
      rw [before, taken, String.ofList_append, String.utf8ByteSize_append]
      rfl
    | nothing => rfl

end Cut

/-- What a preamble is built from. -/
inductive Lexeme
  | space
  | comment
  | directive
  | statement
  deriving DecidableEq, Repr

/-- A place in a text: what is left of the text, and whether nothing but white space stands on the line
before it. -/
structure Place where
  fresh : Bool
  left : List Char

/-- What follows the first semicolon outside of a line comment. -/
def afterSemicolon (inComment : Bool) : List Char → Option (List Char)
  | [] => none
  | c :: rest =>
    if inComment then afterSemicolon (c ≠ '\n') rest
    else if c = ';' then some rest
    else afterSemicolon (c = '/' && rest.head? = some '/') rest

def untilLineEnd (text : List Char) : List Char := text.dropWhile (· ≠ '\n')

/-- Reading one lexeme. Comments and directives last to the end of their line; a directive has nothing
before it on the line; the keyword of a statement is a whole word. -/
inductive Reads : Lexeme → Place → Place → Prop
  | space {fresh : Bool} {c : Char} {left rest : List Char} (opened : left = c :: rest)
      (blank : Text.isBlank c = true) : Reads .space ⟨fresh, left⟩ ⟨fresh || c = '\n', rest⟩
  | comment {fresh : Bool} {left text : List Char} (opened : left = "//".toList ++ text) :
      Reads .comment ⟨fresh, left⟩ ⟨false, untilLineEnd text⟩
  | directive {left text : List Char} {keyword : String}
      (known : keyword = "#version" ∨ keyword = "#extension")
      (opened : left = keyword.toList ++ text) :
      Reads .directive ⟨true, left⟩ ⟨false, untilLineEnd text⟩
  | statement {fresh : Bool} {left rest : List Char} (text : List Char)
      (opened : left = "precision".toList ++ text)
      (word : ∀ c ∈ text.head?, Text.isIdentifierChar c = false)
      (ended : afterSemicolon false text = some rest) :
      Reads .statement ⟨fresh, left⟩ ⟨false, rest⟩

/-- Some lexemes later. -/
abbrev Reaches : Place → Place → Prop := Relation.ReflTransGen fun a b => ∃ k, Reads k a b

/-- Nothing but white space and comments later. -/
abbrev Skips : Place → Place → Prop :=
  Relation.ReflTransGen fun a b => Reads .space a b ∨ Reads .comment a b

/-- No lexeme begins here. -/
def Place.Stuck (p : Place) : Prop := ∀ k q, ¬ Reads k p q

/-- A preamble that was read up to here has nothing but white space and comments left. -/
def Place.Ends (p : Place) : Prop := ∃ last, Skips p last ∧ last.Stuck

theorem Reads.solid {k : Lexeme} {p q : Place} (reads : Reads k p q) (other : k ≠ .space) :
    ∃ c rest, p.left = c :: rest ∧ Text.isBlank c = false := by
  cases reads with
  | space _ _ => exact absurd rfl other
  | @comment fresh left text opened => exact ⟨'/', '/' :: text, by simpa using opened, by decide⟩
  | directive known opened =>
    rcases known with rfl | rfl
    all_goals exact ⟨'#', _, by simpa using opened, by decide⟩
  | statement _ opened _ _ => exact ⟨'p', _, by simpa using opened, by decide⟩

theorem Place.stuck_nil (fresh : Bool) : Place.Stuck ⟨fresh, []⟩ := by
  intro k q reads
  by_cases space : k = .space
  · subst space
    cases reads with
    | space opened _ => contradiction
  · obtain ⟨c, rest, left, _⟩ := reads.solid space
    contradiction

/-- A place does not leave open what is read next. -/
theorem Reads.unique {k k' : Lexeme} {p q q' : Place} (first : Reads k p q) (second : Reads k' p q') :
    k = k' ∧ q = q' := by
  have kinds : k = .space ↔ k' = .space := by
    constructor
    all_goals
      rintro rfl
      by_contra other
    · obtain ⟨c, rest, left, solid⟩ := second.solid other
      cases first with
      | space opened blank => simp_all
    · obtain ⟨c, rest, left, solid⟩ := first.solid other
      cases second with
      | space opened blank => simp_all
  cases first with
  | space opened _ =>
    cases kinds.mp rfl
    cases second with
    | space opened' _ =>
      obtain ⟨rfl, rfl⟩ := List.cons.inj (opened.symm.trans opened')
      exact ⟨rfl, rfl⟩
  | comment opened =>
    cases second with
    | space _ _ => exact absurd (kinds.mpr rfl) nofun
    | comment opened' =>
      rw [opened, List.append_cancel_left_eq] at opened'
      exact ⟨rfl, by rw [opened']⟩
    | directive known opened' => rcases known with rfl | rfl <;> simp [opened] at opened'
    | statement _ opened' _ _ => simp [opened] at opened'
  | directive known opened =>
    cases second with
    | space _ _ => exact absurd (kinds.mpr rfl) nofun
    | comment opened' => rcases known with rfl | rfl <;> simp [opened] at opened'
    | directive known' opened' =>
      rcases known with rfl | rfl <;> rcases known' with rfl | rfl <;> simp [opened] at opened'
      all_goals exact ⟨rfl, by rw [opened']⟩
    | statement _ opened' _ _ => rcases known with rfl | rfl <;> simp [opened] at opened'
  | statement _ opened _ ended =>
    cases second with
    | space _ _ => exact absurd (kinds.mpr rfl) nofun
    | comment opened' => simp [opened] at opened'
    | directive known opened' => rcases known with rfl | rfl <;> simp [opened] at opened'
    | statement _ opened' _ ended' =>
      rw [opened, List.append_cancel_left_eq] at opened'
      rw [← opened', ended] at ended'
      exact ⟨rfl, by rw [Option.some.inj ended']⟩

theorem length_afterSemicolon {inComment : Bool} {text rest : List Char}
    (ended : afterSemicolon inComment text = some rest) : rest.length ≤ text.length := by
  induction text generalizing inComment with
  | nil => contradiction
  | cons c text ih =>
    unfold afterSemicolon at ended
    split at ended
    · exact Nat.le_succ_of_le (ih ended)
    · split at ended
      · rw [← Option.some.inj ended]
        exact Nat.le_succ _
      · exact Nat.le_succ_of_le (ih ended)

/-- Nothing that is left was added. -/
theorem Reads.length_le {k : Lexeme} {p q : Place} (reads : Reads k p q) :
    q.left.length ≤ p.left.length := by
  have shorter (text : List Char) : (untilLineEnd text).length ≤ text.length :=
    (List.dropWhile_suffix _).length_le
  cases reads with
  | space opened _ =>
    rw [opened]
    exact Nat.le_succ _
  | comment opened =>
    rw [opened, List.length_append]
    exact Nat.le_add_left_of_le (shorter _)
  | directive _ opened =>
    rw [opened, List.length_append]
    exact Nat.le_add_left_of_le (shorter _)
  | statement _ opened _ ended =>
    rw [opened, List.length_append]
    exact Nat.le_add_left_of_le (length_afterSemicolon ended)

theorem Reaches.length_le {p q : Place} (reaches : Reaches p q) : q.left.length ≤ p.left.length := by
  induction reaches with
  | refl => exact Nat.le_refl _
  | tail _ step ih =>
    obtain ⟨k, reads⟩ := step
    exact Nat.le_trans reads.length_le ih

theorem Skips.reaches {p q : Place} (skips : Skips p q) : Reaches p q := by
  induction skips with
  | refl => exact .refl
  | tail _ step ih =>
    rcases step with reads | reads
    · exact ih.tail ⟨_, reads⟩
    · exact ih.tail ⟨_, reads⟩

/-- Whatever can be read stands before the place where nothing more can. -/
theorem Place.Stuck.farthest {p q last : Place} (stuck : last.Stuck) (all : Reaches p last)
    (some : Reaches p q) : Reaches q last := by
  induction some with
  | refl => exact all
  | tail _ step ih =>
    obtain ⟨k, reads⟩ := step
    rcases Relation.ReflTransGen.cases_head ih with rfl | ⟨other, ⟨k', reads'⟩, rest⟩
    · exact absurd reads (stuck k _)
    · rwa [(reads.unique reads').2]

section Lines

variable {line : List Char} {more : List (List Char)}

theorem skips_blank {margin : List Char} (blank : ∀ c ∈ margin, Text.isBlank c = true)
    (rest : List Char) (fresh : Bool) : ∃ fresh', Skips ⟨fresh, margin ++ rest⟩ ⟨fresh', rest⟩ ∧
      (fresh = true ∨ '\n' ∈ margin → fresh' = true) := by
  induction margin generalizing fresh with
  | nil => exact ⟨fresh, .refl, by simp⟩
  | cons c margin ih =>
    obtain ⟨fresh', skips, new⟩ := ih (fun d member => blank d (List.mem_cons_of_mem _ member))
      (fresh || c = '\n')
    refine ⟨fresh', .head (.inl (.space rfl (blank c List.mem_cons_self))) skips, fun cause => new ?_⟩
    rcases cause with old | newline
    · exact .inl (by simp [old])
    · rcases List.mem_cons.mp newline with rfl | later
      · exact .inl (by simp)
      · exact .inr later

/-- The end of a line leads to the next line. -/
theorem skips_lineEnd (whole : Text.Line line more) :
    ∃ fresh, Skips ⟨false, untilLineEnd (line ++ more.flatten)⟩ ⟨fresh, more.flatten⟩ ∧
      (fresh = true ∨ more = []) := by
  have until' (text : List Char) (free : '\n' ∉ text) (rest : List Char) :
      untilLineEnd (text ++ rest) = untilLineEnd rest :=
    List.dropWhile_append_of_pos fun c member => by
      simp only [decide_eq_true_eq]
      rintro rfl
      exact free member
  rcases whole with ⟨text, rfl, free⟩ | ⟨free, rfl⟩
  · refine ⟨true, ?_, .inl rfl⟩
    rw [List.append_assoc, until' text free]
    exact .single (.inl (.space (c := '\n') rfl (by decide)))
  · refine ⟨false, ?_, .inr rfl⟩
    rw [until' line free]
    exact .refl

theorem afterSemicolon_append {text rest : List Char} (free : ';' ∉ text)
    (code : Text.occurs "//".toList text = false) :
    afterSemicolon false (text ++ ';' :: rest) = some rest := by
  induction text with
  | nil => simp [afterSemicolon]
  | cons c text ih =>
    have other : c ≠ ';' := fun same => free (same ▸ List.mem_cons_self)
    have opens : (c = '/' && (text ++ ';' :: rest).head? = some '/') = false := by
      cases text with
      | nil => simp
      | cons d text =>
        have two : ¬ (c = '/' ∧ d = '/') := by
          rintro ⟨rfl, rfl⟩
          simp [Text.occurs, List.isPrefixOf] at code
        simpa using two
    unfold Text.occurs at code
    rw [List.cons_append, afterSemicolon, if_neg (by decide), if_neg other, opens]
    exact ih (fun member => free (List.mem_cons_of_mem _ member)) (by simp_all)

/-- A word without white space begins a trimmed line whether the line is trimmed at its end or not. -/
theorem startsWith_trim {word : String} (solid : word.toList.any Text.isBlank = false)
    (line : List Char) :
    startsWith word (Text.trim line) = startsWith word (Text.trimLeft line) :=
  Text.isPrefixOf_trimRight (by simpa using solid)

theorem extent_statement {count : Nat} (keyword : startsWith "precision" (Text.trimLeft line) = true)
    (through : throughSemicolon line = some count) :
    extent line = if Text.isAllBlank (line.drop count) then .whole else .upTo count := by
  rw [← startsWith_trim (by decide)] at keyword
  simp [extent, keyword, through]

/-- Whether a trimmed line begins like a blank line, a directive or a comment. -/
def isPlain (core : List Char) : Bool :=
  core.isEmpty || startsWith "#version" core || startsWith "#extension" core || startsWith "//" core

theorem extent_other (other : startsWith "precision" (Text.trimLeft line) = false) :
    extent line = if isPlain (Text.trimLeft line) then .whole else .nothing := by
  have trimmed : startsWith "precision" (Text.trim line) = false :=
    (startsWith_trim (by decide) line).trans other
  have plain : isPlain (Text.trimLeft line) = ((Text.trim line).isEmpty ||
      startsWith "#version" (Text.trim line) || startsWith "#extension" (Text.trim line) ||
      startsWith "//" (Text.trim line)) := by
    rw [Text.isEmpty_trim, startsWith_trim (by decide), startsWith_trim (by decide),
      startsWith_trim (by decide)]
    rfl
  simp [extent, trimmed, plain]

theorem exists_of_startsWith {word : String} {core : List Char} (start : startsWith word core = true) :
    ∃ text, core = word.toList ++ text := by
  obtain ⟨text, same⟩ := List.isPrefixOf_iff_prefix.mp start
  exact ⟨text, same.symm⟩

theorem reaches_plain (whole : Text.Line line more) (plain : isPlain (Text.trimLeft line) = true) :
    ∃ fresh, Reaches ⟨true, line ++ more.flatten⟩ ⟨fresh, more.flatten⟩ ∧
      (fresh = true ∨ more = []) := by
  obtain ⟨margin, split, blank, _⟩ := Text.trimLeft_eq line
  generalize Text.trimLeft line = core at split plain
  obtain ⟨fresh, skips, new⟩ := skips_blank blank (core ++ more.flatten) true
  obtain rfl : fresh = true := new (.inl rfl)
  rw [← List.append_assoc, ← split] at skips
  have after {k : Lexeme} {word : String} {text : List Char} (opened : core = word.toList ++ text)
      (short : '\n' ∉ word.toList) (solid : word.toList ≠ [])
      (reads : Reads k ⟨true, core ++ more.flatten⟩ ⟨false, untilLineEnd (text ++ more.flatten)⟩) :
      ∃ fresh, Reaches ⟨true, line ++ more.flatten⟩ ⟨fresh, more.flatten⟩ ∧
        (fresh = true ∨ more = []) := by
    rw [split] at whole
    have kept := whole.suffix (.inr (by simp [opened, solid]))
    rw [opened] at kept
    obtain ⟨fresh, rest, ends⟩ := skips_lineEnd (kept.suffix (.inl short))
    exact ⟨fresh, (skips.reaches.tail ⟨k, reads⟩).trans rest.reaches, ends⟩
  unfold isPlain at plain
  simp only [Bool.or_eq_true] at plain
  rcases plain with ((empty | version) | extension) | comment
  · obtain rfl : core = [] := List.isEmpty_iff.mp empty
    exact ⟨true, skips.reaches, .inl rfl⟩
  · obtain ⟨text, opened⟩ := exists_of_startsWith version
    refine after opened (by decide) (by decide) (.directive (.inl rfl) ?_)
    rw [opened, List.append_assoc]
  · obtain ⟨text, opened⟩ := exists_of_startsWith extension
    refine after opened (by decide) (by decide) (.directive (.inr rfl) ?_)
    rw [opened, List.append_assoc]
  · obtain ⟨text, opened⟩ := exists_of_startsWith comment
    refine after opened (by decide) (by decide) (.comment ?_)
    rw [opened, List.append_assoc]

/-- Where other text begins, the preamble ends. -/
theorem ends_code (whole : Text.Line line more) (free : startsWith "precision" (Text.trimLeft line) = false)
    (code : isPlain (Text.trimLeft line) = false) : Place.Ends ⟨true, line ++ more.flatten⟩ := by
  obtain ⟨margin, split, blank, solid⟩ := Text.trimLeft_eq line
  generalize Text.trimLeft line = core at split free code solid
  obtain ⟨fresh, skips, new⟩ := skips_blank blank (core ++ more.flatten) true
  rw [← List.append_assoc, ← split] at skips
  simp only [isPlain, Bool.or_eq_false_iff] at code
  obtain ⟨⟨⟨full, version⟩, extension⟩, comment⟩ := code
  have begins (word : String) (short : '\n' ∉ word.toList) {text : List Char}
      (opened : core ++ more.flatten = word.toList ++ text) : startsWith word core = true := by
    rw [split] at whole
    have kept := whole.suffix (.inr (by simpa using full))
    unfold startsWith
    rw [← kept.isPrefixOf short, opened]
    exact List.isPrefixOf_iff_prefix.mpr (List.prefix_append _ _)
  refine ⟨_, skips, ?_⟩
  intro k q reads
  generalize place : (⟨fresh, core ++ more.flatten⟩ : Place) = p at reads
  cases reads with
  | @space _ c _ rest opened white =>
    have left : core ++ more.flatten = c :: rest := (congrArg Place.left place).trans opened
    cases core with
    | nil => simp at full
    | cons d core =>
      obtain rfl : d = c := (List.cons.inj left).1
      rw [solid d rfl] at white
      contradiction
  | comment opened =>
    rw [begins "//" (by decide) ((congrArg Place.left place).trans opened)] at comment
    contradiction
  | directive known opened =>
    rcases known with rfl | rfl
    · rw [begins "#version" (by decide) ((congrArg Place.left place).trans opened)] at version
      contradiction
    · rw [begins "#extension" (by decide) ((congrArg Place.left place).trans opened)] at extension
      contradiction
  | statement _ opened _ _ =>
    rw [begins "precision" (by decide) ((congrArg Place.left place).trans opened)] at free
    contradiction

end Lines

/-- A precision statement that ends on its line and has the rest of the line to itself, unless nothing
of the preamble follows but white space and comments. -/
structure Single (line : List Char) (more : List (List Char)) (margin text rest : List Char) : Prop where
  line_eq : line = margin ++ ("precision".toList ++ (text ++ ';' :: rest))
  blank : ∀ c ∈ margin, Text.isBlank c = true
  word : ∀ c ∈ text.head?, Text.isIdentifierChar c = false
  free : ';' ∉ text
  code : Text.occurs "//".toList text = false
  alone : Text.isAllBlank rest = true ∨ Place.Ends ⟨false, rest ++ more.flatten⟩

/-- Each line up to the end of the preamble that begins with the keyword is such a statement. -/
def Tidy : List (List Char) → Prop
  | [] => True
  | line :: more =>
    (startsWith "precision" (Text.trimLeft line) = true →
        ∃ margin text rest, Single line more margin text rest) ∧
      (extent line = .whole → Tidy more)

namespace Single

variable {line margin text rest : List Char} {more : List (List Char)}

theorem reaches (single : Single line more margin text rest) :
    Reaches ⟨true, line ++ more.flatten⟩ ⟨false, rest ++ more.flatten⟩ := by
  obtain ⟨fresh, skips, new⟩ := skips_blank single.blank
    ("precision".toList ++ (text ++ ';' :: rest) ++ more.flatten) true
  rw [← List.append_assoc, ← single.line_eq] at skips
  refine skips.reaches.tail ⟨_, .statement (text ++ ';' :: (rest ++ more.flatten)) ?_ ?_ ?_⟩
  · simp
  · intro c first
    cases text with
    | nil =>
      obtain rfl : ';' = c := Option.some.inj first
      decide
    | cons d text => exact single.word c first
  · exact afterSemicolon_append single.free single.code

theorem extent_eq (single : Single line more margin text rest)
    (keyword : startsWith "precision" (Text.trimLeft line) = true) :
    (Text.isAllBlank rest = true ∧ extent line = .whole) ∨
      (Text.isAllBlank rest = false ∧ ∃ count, extent line = .upTo count ∧ line.drop count = rest) := by
  have free : ';' ∉ margin ++ ("precision".toList ++ text) := by
    simp only [List.mem_append, not_or]
    refine ⟨fun member => ?_, by decide, single.free⟩
    have blank := single.blank _ member
    contradiction
  have line_eq : line = (margin ++ ("precision".toList ++ text)) ++ ';' :: rest := by
    rw [single.line_eq]
    simp only [List.append_assoc]
  have through : throughSemicolon line = some ((margin ++ ("precision".toList ++ text)).length + 1) := by
    rw [line_eq]
    exact throughSemicolon_append free
  have behind : line.drop ((margin ++ ("precision".toList ++ text)).length + 1) = rest := by
    rw [line_eq, ← List.drop_drop, List.drop_left]
    rfl
  rw [extent_statement keyword through, behind]
  cases blank : Text.isAllBlank rest with
  | true => exact .inl ⟨rfl, rfl⟩
  | false => exact .inr ⟨rfl, _, rfl, behind⟩

theorem newline (single : Single line more margin text rest) (whole : Text.Line line more) :
    '\n' ∈ rest ∨ more = [] := by
  rcases whole with ⟨kept, same, _⟩ | ⟨_, last⟩
  · rw [single.line_eq] at same
    have ends := congrArg List.getLast? same
    simp only [List.getLast?_append, List.getLast?_cons, Option.some_or] at ends
    left
    cases tail : rest.getLast? with
    | none => simp [tail] at ends
    | some c =>
      obtain rfl : c = '\n' := by simpa [tail] using ends
      exact List.mem_of_getLast? tail
  · exact .inr last

end Single

/-- The scanner stops at a place that the preamble comes to, with nothing but white space and comments
between that and its end. -/
theorem reaches_split {lines : List (List Char)} (tidy : Tidy lines)
    (cut : lines = Text.linesInclusive lines.flatten) {fresh : Bool} (start : fresh = true ∨ lines = []) :
    ∃ fresh', Reaches ⟨fresh, lines.flatten⟩ ⟨fresh', (splitLines lines).2⟩ ∧
      Place.Ends ⟨fresh', (splitLines lines).2⟩ := by
  induction lines generalizing fresh with
  | nil =>
    exact ⟨fresh, .refl, _, .refl, Place.stuck_nil fresh⟩
  | cons line more ih =>
    obtain ⟨whole, cut'⟩ := Text.linesInclusive_cons cut.symm
    obtain rfl : fresh = true := start.resolve_right nofun
    obtain ⟨statement, rest⟩ := tidy
    rw [List.flatten_cons]
    have passed (passes : extent line = .whole) {fresh : Bool}
        (reaches : Reaches ⟨true, line ++ more.flatten⟩ ⟨fresh, more.flatten⟩)
        (next : fresh = true ∨ more = []) :
        ∃ fresh', Reaches ⟨true, line ++ more.flatten⟩ ⟨fresh', (splitLines (line :: more)).2⟩ ∧
          Place.Ends ⟨fresh', (splitLines (line :: more)).2⟩ := by
      obtain ⟨fresh', further, ends⟩ := ih (rest passes) cut' next
      have same : (splitLines (line :: more)).2 = (splitLines more).2 := by
        rw [splitLines, passes]
      rw [same]
      exact ⟨fresh', reaches.trans further, ends⟩
    by_cases keyword : startsWith "precision" (Text.trimLeft line) = true
    · obtain ⟨margin, text, tail, single⟩ := statement keyword
      rcases single.extent_eq keyword with ⟨blank, passes⟩ | ⟨blank, count, stops, behind⟩
      · obtain ⟨fresh, skips, new⟩ := skips_blank (List.all_eq_true.mp blank) more.flatten false
        refine passed passes (single.reaches.trans skips.reaches) ?_
        exact (single.newline whole).imp_left fun newline => new (.inr newline)
      · have same : (splitLines (line :: more)).2 = tail ++ more.flatten := by
          rw [splitLines, stops, ← behind]
        rw [same]
        refine ⟨false, single.reaches, single.alone.resolve_left ?_⟩
        simp [blank]
    · have other := Bool.eq_false_iff.mpr keyword
      cases plain : isPlain (Text.trimLeft line) with
      | true =>
        obtain ⟨fresh, reaches, next⟩ := reaches_plain whole plain
        refine passed ?_ reaches next
        rw [extent_other other, if_pos plain]
      | false =>
        have stops : extent line = .nothing := by
          rw [extent_other other, if_neg (by simp [plain])]
        have same : (splitLines (line :: more)).2 = line ++ more.flatten := by
          rw [splitLines, stops]
        rw [same]
        exact ⟨true, .refl, ends_code whole other plain⟩

/-- A cut of a text where its preamble ends: between two lexemes of the preamble, with nothing but white
space and comments between the cut and the farthest place that the preamble comes to. -/
def Placed (body after : List Char) : Prop :=
  ∃ fresh last, Reaches ⟨true, body⟩ ⟨fresh, after⟩ ∧ Skips ⟨fresh, after⟩ last ∧
    ∀ p, Reaches ⟨true, body⟩ p → last.left.length ≤ p.left.length

/-- Declarations go where the preamble ends, as long as each precision statement ends on its line and has
the rest of it to itself. They replace a margin of the text behind them and nothing else. -/
theorem declarations_follow_preamble {body : List Char} (tidy : Tidy (Text.linesInclusive body)) :
    ∃ before margin after, body = before ++ (margin ++ after) ∧
      byteOffset (Text.linesInclusive body) = (String.ofList before).utf8ByteSize ∧
      Placed body (margin ++ after) ∧ (∀ c ∈ margin, c = ' ' ∨ c = '\t') ∧
      ∀ declarations, ∃ lineBreak, (lineBreak = [] ∨ lineBreak = ['\n']) ∧
        insert declarations body =
          before ++ lineBreak ++ declarations.flatMap (· ++ ['\n']) ++ after := by
  have whole : (Text.linesInclusive body).flatten = body := Text.flatten_linesInclusive body
  obtain ⟨fresh, reaches, last, skips, stuck⟩ := reaches_split tidy (by rw [whole]) (.inl rfl)
  rw [whole] at reaches
  have parts : (split body).2.takeWhile isMargin ++ (split body).2.dropWhile isMargin =
      (split body).2 := List.takeWhile_append_dropWhile
  refine ⟨(split body).1, (split body).2.takeWhile isMargin, (split body).2.dropWhile isMargin,
    ?_, byteOffset_eq body, ?_, ?_, ?_⟩
  · rw [parts, split_append]
  · rw [parts]
    refine ⟨fresh, last, reaches, skips, fun p some => ?_⟩
    exact (stuck.farthest (reaches.trans skips.reaches) some).length_le
  · intro c member
    have margin := List.all_eq_true.mp List.all_takeWhile c member
    simpa [isMargin] using margin
  · intro declarations
    refine ⟨if (split body).1.isEmpty || (split body).1.getLast? = some '\n' then [] else ['\n'], ?_, rfl⟩
    split
    · exact .inl rfl
    · exact .inr rfl

section Runs

theorem Place.stuck_of_other {fresh : Bool} {c : Char} {rest : List Char}
    (solid : Text.isBlank c = false) (other : c ∉ ['/', '#', 'p']) :
    Place.Stuck ⟨fresh, c :: rest⟩ := by
  intro k q reads
  cases reads with
  | space opened blank =>
    obtain ⟨rfl, rfl⟩ := List.cons.inj opened
    rw [solid] at blank
    contradiction
  | comment opened => simp_all
  | directive known opened => rcases known with rfl | rfl <;> simp_all
  | statement _ opened _ _ => simp_all

/-- A directive, and a statement with other text behind it. -/
def mixed : List Char := "#version 300 es\nprecision mediump float; out vec4 c;\n".toList

theorem mixed_declarations_follow_preamble :
    Tidy (Text.linesInclusive mixed) ∧ ∃ before margin after, mixed = before ++ (margin ++ after) ∧
      Placed mixed (margin ++ after) := by
  have lines : Text.linesInclusive mixed =
      ["#version 300 es\n".toList, "precision mediump float; out vec4 c;\n".toList] := by decide
  have behind : Place.Ends ⟨false, " out vec4 c;\n".toList⟩ :=
    ⟨⟨false, "out vec4 c;\n".toList⟩, .single (.inl (.space (c := ' ') (by decide) (by decide))),
      Place.stuck_of_other (by decide) (by decide)⟩
  have tidy : Tidy (Text.linesInclusive mixed) := by
    rw [lines]
    refine ⟨fun keyword => absurd keyword (by decide), fun _ =>
      ⟨fun _ => ?_, fun passes => absurd passes (by decide)⟩⟩
    exact ⟨[], " mediump float".toList, " out vec4 c;\n".toList, by decide, nofun,
      by simp [Text.isIdentifierChar], by decide, by decide, .inr behind⟩
  obtain ⟨before, margin, after, split, _, placed, _⟩ := declarations_follow_preamble tidy
  exact ⟨tidy, before, margin, after, split, placed⟩

theorem Skips.next {k : Lexeme} {p q last : Place} (reads : Reads k p q) (skips : Skips p last) :
    last = p ∨ (k = .space ∨ k = .comment) ∧ Skips q last := by
  rcases Relation.ReflTransGen.cases_head skips with rfl | ⟨other, step, rest⟩
  · exact .inl rfl
  · rcases step with space | comment
    · obtain ⟨rfl, rfl⟩ := reads.unique space
      exact .inr ⟨.inl rfl, rest⟩
    · obtain ⟨rfl, rfl⟩ := reads.unique comment
      exact .inr ⟨.inr rfl, rest⟩

/-- Two statements on two lines, with a comment behind the first. -/
def annotated : List Char := "precision highp float; // colours\nprecision highp int;\n".toList

/-- The comment keeps the scanner from the second statement. -/
theorem annotated_cut_short : ¬ Placed annotated (split annotated).2 := by
  have cut : (split annotated).2 = " // colours\nprecision highp int;\n".toList := by decide
  have first : Reads .statement ⟨true, annotated⟩
      ⟨false, " // colours\nprecision highp int;\n".toList⟩ :=
    .statement " highp float; // colours\nprecision highp int;\n".toList (by decide)
      (by simp [Text.isIdentifierChar]) (by decide)
  have space (fresh : Bool) : Reads .space ⟨fresh, " // colours\nprecision highp int;\n".toList⟩
      ⟨fresh || (' ' = '\n' : Bool), "// colours\nprecision highp int;\n".toList⟩ :=
    .space (by decide) (by decide)
  have comment (fresh : Bool) : Reads .comment ⟨fresh, "// colours\nprecision highp int;\n".toList⟩
      ⟨false, untilLineEnd " colours\nprecision highp int;\n".toList⟩ := .comment (by decide)
  have newline : Reads .space ⟨false, untilLineEnd " colours\nprecision highp int;\n".toList⟩
      ⟨false || ('\n' = '\n' : Bool), "precision highp int;\n".toList⟩ :=
    .space (by decide) (by decide)
  have second (fresh : Bool) : Reads .statement ⟨fresh, "precision highp int;\n".toList⟩
      ⟨false, "\n".toList⟩ :=
    .statement " highp int;\n".toList (by decide) (by simp [Text.isIdentifierChar]) (by decide)
  have all : Reaches ⟨true, annotated⟩ ⟨false, "\n".toList⟩ :=
    .head ⟨_, first⟩ (.head ⟨_, space false⟩ (.head ⟨_, comment _⟩ (.head ⟨_, newline⟩
      (.single ⟨_, second _⟩))))
  rw [cut]
  rintro ⟨fresh, last, _, skips, far⟩
  have tooFar (text : List Char) (long : 1 < text.length) (near : text.length ≤ "\n".toList.length) :
      False :=
    absurd (Nat.lt_of_lt_of_le long near) (by decide)
  have far := far _ all
  rcases skips.next (space fresh) with rfl | ⟨_, skips⟩
  · exact tooFar " // colours\nprecision highp int;\n".toList (by decide) far
  · rcases skips.next (comment _) with rfl | ⟨_, skips⟩
    · exact tooFar "// colours\nprecision highp int;\n".toList (by decide) far
    · rcases skips.next newline with rfl | ⟨_, skips⟩
      · exact tooFar _ (by decide) far
      · rcases skips.next (second _) with rfl | ⟨skipped, _⟩
        · exact tooFar _ (by decide) far
        · exact absurd skipped (by decide)

end Runs

end Preamble
end ShaderStack

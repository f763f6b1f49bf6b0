import ShaderStack.Proofs.Occurrence
import Mathlib.Data.Nat.Nth

/-! Which name each token of a compilation gets. Scope references keep theirs, the first token to
ask for a name gets it, and the tokens left over are numbered by the free indices of their
namespace, each in turn. -/
namespace ShaderStack

def Token.isScope (t : Token) : Bool :=
  match t.kind with
  | .scope _ => true
  | _ => false

def Token.isVertexAttribute (t : Token) : Bool :=
  match t.kind with
  | .vertexAttribute _ => true
  | _ => false

/-- Uniforms and samplers. A source declares both with `uniform`. -/
def Token.isUniform (t : Token) : Bool :=
  match t.kind with
  | .uniform _ | .sampler _ => true
  | _ => false

/-- The name that a token asks for. A scope reference asks for nothing. -/
def Token.request? (t : Token) : Option String :=
  match t.kind with
  | .vertexAttribute a => a.options.name
  | .uniform u => u.name
  | .sampler s => s.options.name
  | .scope _ => none

theorem Token.isScope_of_kind {t : Token} {own : String} (scope : t.kind = .scope own) :
    t.isScope = true := by
  simp [Token.isScope, scope]

namespace Naming

/-- Whether one of the tokens asks for a name. -/
def requested (tokens : List NamedToken) (name : String) : Bool :=
  tokens.any fun n => n.token.request? = some name

/-- Whether a token is left over after `before`: it asks for no name, or not as the first. -/
def isLeftOver (before : List NamedToken) (t : Token) : Bool :=
  !t.isScope && t.request?.all (requested before)

/-- The tokens of a sort that are left over, in order. -/
def leftOver (sort : Token → Bool) (before : List NamedToken) : List NamedToken → List NamedToken
  | [] => []
  | n :: rest =>
    if isLeftOver before n.token && sort n.token then n :: leftOver sort (before ++ [n]) rest
    else leftOver sort (before ++ [n]) rest

/-- An index is free after a lead if no token asks for the name that they make. -/
def Free (tokens : List NamedToken) (lead : String) (i : Nat) : Prop :=
  requested tokens (lead ++ toString i) = false

/-- How the tokens of a sort are numbered after a lead. -/
structure Numbered (tokens : List NamedToken) (sort : Token → Bool) (lead : String) : Prop where
  /-- The tokens left over get the free indices in turn, from the first one on. -/
  names : (leftOver sort [] tokens).map NamedToken.name =
    (List.range (leftOver sort [] tokens).length).map fun k =>
      lead ++ toString (Nat.nth (Free tokens lead) k)
  /-- There are always further free indices. -/
  endless : {i | Free tokens lead i}.Infinite

/-- The tokens that a namespace numbers. -/
def Namespace.sort : Namespace → Token → Bool
  | .attributes => Token.isVertexAttribute
  | .uniforms => Token.isUniform

theorem Namespace.sort_iff {t : Token} (plain : t.isScope = false) {space : Namespace} :
    space.sort t = true ↔ Namespace.ofKind t.kind = space := by
  unfold Token.isScope at plain
  cases kind : t.kind <;> cases space <;>
    simp_all [Namespace.sort, Namespace.ofKind, Token.isVertexAttribute, Token.isUniform]

/-- The shape of a token, as far as naming looks at it. -/
theorem token_cases (t : Token) :
    (∃ name, t.kind = .scope name) ∨ (t.isScope = false ∧ ∃ name, t.request? = some name) ∨
      (t.isScope = false ∧ t.request? = none) := by
  by_cases scope : ∃ name, t.kind = .scope name
  · exact .inl scope
  · have plain : t.isScope = false := by
      unfold Token.isScope
      split
      · exact absurd ⟨_, ‹_›⟩ scope
      · rfl
    cases asks : t.request? with
    | some name => exact .inr (.inl ⟨plain, name, rfl⟩)
    | none => exact .inr (.inr ⟨plain, rfl⟩)

section Claim

variable {t : Token} {ts : List Token} {taken : List String} {name : String}

theorem claim_scope (scope : t.kind = .scope name) :
    claim taken (t :: ts) = (t, some name) :: claim taken ts := by
  simp [claim, scope]

theorem claim_won (asks : t.request? = some name) (new : name ∉ taken) :
    claim taken (t :: ts) = (t, some name) :: claim (name :: taken) ts := by
  unfold Token.request? at asks
  cases h : t.kind <;> simp_all [claim, Token.explicitName?, TokenKind.explicitName?]

theorem claim_lost (asks : t.request? = some name) (old : name ∈ taken) :
    claim taken (t :: ts) = (t, none) :: claim taken ts := by
  unfold Token.request? at asks
  cases h : t.kind <;> simp_all [claim, Token.explicitName?, TokenKind.explicitName?]

theorem claim_open (plain : t.isScope = false) (silent : t.request? = none) :
    claim taken (t :: ts) = (t, none) :: claim taken ts := by
  unfold Token.isScope at plain
  unfold Token.request? at silent
  cases h : t.kind <;> simp_all [claim, Token.explicitName?, TokenKind.explicitName?]

end Claim

/-- The claimed names are the names that are asked for, those in `taken` apart. -/
theorem mem_claimedNames {name : String} {taken : List String} {ts : List Token} :
    name ∈ claimedNames (claim taken ts) ↔
      name ∉ taken ∧ ∃ t ∈ ts, t.request? = some name := by
  induction ts generalizing taken with
  | nil => simp [claim, claimedNames]
  | cons t ts ih =>
    rcases token_cases t with ⟨own, scope⟩ | ⟨plain, asked, asks⟩ | ⟨plain, silent⟩
    · have silent : t.request? = none := by simp [Token.request?, scope]
      rw [claim_scope scope]
      simpa [claimedNames, scope, silent] using ih
    · by_cases old : asked ∈ taken
      · rw [claim_lost asks old]
        have skip : claimedNames ((t, none) :: claim taken ts) = claimedNames (claim taken ts) := by
          cases h : t.kind <;> simp [claimedNames, h]
        rw [skip, ih]
        grind
      · have head : claimedNames ((t, some asked) :: claim (asked :: taken) ts) =
            asked :: claimedNames (claim (asked :: taken) ts) := by
          cases h : t.kind <;> simp_all [claimedNames, Token.isScope]
        rw [claim_won asks old, head, List.mem_cons, ih]
        grind
    · rw [claim_open plain silent]
      have skip : claimedNames ((t, none) :: claim taken ts) = claimedNames (claim taken ts) := by
        cases h : t.kind <;> simp [claimedNames, h]
      rw [skip, ih]
      grind

theorem numbered_injective {space other : Namespace} {i j : Nat}
    (same : numbered space i = numbered other j) : space = other ∧ i = j := by
  have texts := congrArg String.toList same
  simp only [numbered, String.toList_append] at texts
  cases space <;> cases other
  all_goals simp [Namespace.lead] at texts
  all_goals
    have digits := congrArg (fun cs => Nat.ofDigitChars 10 cs 0) texts
    exact ⟨rfl, by simpa using digits⟩

/-- The search always ends at a free index, and passes none. -/
theorem freeNumber_spec (space : Namespace) (taken : List String) (start : Nat) :
    numbered space (freeNumber space taken start) ∉ taken ∧ start ≤ freeNumber space taken start ∧
      ∀ j, start ≤ j → j < freeNumber space taken start → numbered space j ∈ taken := by
  unfold freeNumber
  cases found : (List.range' start (taken.length + 1)).find? fun n => numbered space n ∉ taken with
  | some n =>
    obtain ⟨free, within, passed⟩ := List.find?_range'_eq_some.mp found
    refine ⟨by simpa using free, (List.mem_range'_1.mp within).1, fun j low high => ?_⟩
    simpa using passed j low high
  | none =>
    -- more candidates than taken names cannot all be taken
    have all : ∀ n ∈ List.range' start (taken.length + 1), numbered space n ∈ taken := by
      simpa using found
    have distinct : ((List.range' start (taken.length + 1)).map (numbered space)).Nodup :=
      List.Nodup.map (fun _ _ same => (numbered_injective same).2) (List.nodup_range' ..)
    have inside : (List.range' start (taken.length + 1)).map (numbered space) ⊆ taken := by
      intro name member
      obtain ⟨n, here, rfl⟩ := List.mem_map.mp member
      exact all n here
    have short := (distinct.subperm inside).length_le
    simp at short

/-- Counted among the free indices, the search goes to the next one. -/
theorem freeNumber_eq_nth (space : Namespace) (taken : List String) (start : Nat) :
    freeNumber space taken start = Nat.nth (fun i => numbered space i ∉ taken)
        (Nat.count (fun i => numbered space i ∉ taken) start) ∧
      Nat.count (fun i => numbered space i ∉ taken) (freeNumber space taken start + 1) =
        Nat.count (fun i => numbered space i ∉ taken) start + 1 := by
  obtain ⟨free, low, passed⟩ := freeNumber_spec space taken start
  obtain ⟨gap, reach⟩ := Nat.exists_eq_add_of_le low
  have still : Nat.count (fun i => numbered space i ∉ taken) (freeNumber space taken start) =
      Nat.count (fun i => numbered space i ∉ taken) start := by
    rw [reach, Nat.count_add, Nat.add_eq_left, Nat.count_iff_forall_not]
    intro k inside
    exact not_not.mpr (passed (start + k) (by omega) (by omega))
  constructor
  · rw [← still, Nat.nth_count free]
  · rw [Nat.count_succ, if_pos free, still]

/-- How names are given, one token after the other. `all` are the names that are claimed in the
whole list, `taken` those that were claimed so far. -/
inductive Assigned (all : List String) : List String → Counters → List NamedToken → Prop
  | nil {taken counters} : Assigned all taken counters []
  | scope {taken counters rest t name} : t.kind = .scope name →
      Assigned all taken counters rest → Assigned all taken counters (⟨name, t⟩ :: rest)
  | won {taken counters rest t name} : t.isScope = false → t.request? = some name →
      name ∉ taken → name ∈ all → Assigned all (name :: taken) counters rest →
      Assigned all taken counters (⟨name, t⟩ :: rest)
  | left {taken counters rest t n space} : t.isScope = false →
      (∀ name, t.request? = some name → name ∈ taken) → space = Namespace.ofKind t.kind →
      n = freeNumber space all (counters.get space) →
      Assigned all taken (counters.set (n + 1) space) rest →
      Assigned all taken counters (⟨numbered space n, t⟩ :: rest)

theorem fill_assigned {all taken : List String} {counters : Counters} {ts : List Token}
    (claimed : ∀ name ∈ claimedNames (claim taken ts), name ∈ all) :
    Assigned all taken counters (fill all counters (claim taken ts)) := by
  induction ts generalizing taken counters with
  | nil => exact .nil
  | cons t ts ih =>
    have later : ∀ name ∈ claimedNames (claim taken ts), name ∈ all := by
      intro name member
      obtain ⟨new, u, here, asks⟩ := mem_claimedNames.mp member
      exact claimed name (mem_claimedNames.mpr ⟨new, u, List.mem_cons_of_mem _ here, asks⟩)
    rcases token_cases t with ⟨own, scope⟩ | ⟨plain, asked, asks⟩ | ⟨plain, silent⟩
    · rw [claim_scope scope]
      exact .scope scope (ih later)
    · by_cases old : asked ∈ taken
      · rw [claim_lost asks old]
        exact .left plain (fun name same => by simp_all) rfl rfl (ih later)
      · rw [claim_won asks old]
        refine .won plain asks old ?_ (ih fun name member => ?_)
        · exact claimed asked (mem_claimedNames.mpr ⟨old, t, List.mem_cons_self, asks⟩)
        · obtain ⟨new, u, here, wants⟩ := mem_claimedNames.mp member
          exact claimed name (mem_claimedNames.mpr
            ⟨fun old => new (List.mem_cons_of_mem _ old), u, List.mem_cons_of_mem _ here, wants⟩)
    · rw [claim_open plain silent]
      exact .left plain (fun name same => by simp_all) rfl rfl (ih later)

theorem tokens_fill (all taken : List String) (counters : Counters) (ts : List Token) :
    (fill all counters (claim taken ts)).map NamedToken.token = ts := by
  induction ts generalizing taken counters with
  | nil => rfl
  | cons t ts ih =>
    rcases token_cases t with ⟨own, scope⟩ | ⟨plain, asked, asks⟩ | ⟨plain, silent⟩
    · simp [claim_scope scope, fill, ih]
    · by_cases old : asked ∈ taken
      · simp [claim_lost asks old, fill, ih]
      · simp [claim_won asks old, fill, ih]
    · simp [claim_open plain silent, fill, ih]

section Assigned

variable {all taken : List String} {counters : Counters} {ns : List NamedToken}

theorem Assigned.name_scope (given : Assigned all taken counters ns) {n : NamedToken}
    (member : n ∈ ns) {own : String} (scope : n.token.kind = .scope own) : n.name = own := by
  induction given with
  | nil => simp at member
  | scope kind _ ih =>
    rcases List.mem_cons.mp member with rfl | later
    · exact (TokenKind.scope.inj (kind.symm.trans scope))
    · exact ih later
  | won plain _ _ _ _ ih =>
    rcases List.mem_cons.mp member with rfl | later
    · exact absurd (Token.isScope_of_kind scope) (by simp [plain])
    · exact ih later
  | left plain _ _ _ _ ih =>
    rcases List.mem_cons.mp member with rfl | later
    · exact absurd (Token.isScope_of_kind scope) (by simp [plain])
    · exact ih later

/-- The first token that asks for a name gets it. -/
theorem Assigned.name_first (given : Assigned all taken counters ns)
    {before after : List NamedToken} {n : NamedToken} (split : ns = before ++ n :: after)
    {name : String} (asks : n.token.request? = some name) (new : name ∉ taken)
    (first : requested before name = false) : n.name = name := by
  induction given generalizing before with
  | nil => simp at split
  | scope kind _ ih =>
    rcases before with _ | ⟨m, before⟩
    · obtain ⟨rfl, _⟩ := List.cons.inj split
      simp [Token.request?, kind] at asks
    · obtain ⟨rfl, rest⟩ := List.cons.inj split
      exact ih rest new (by simp_all [requested])
  | won plain wants _ _ _ ih =>
    rcases before with _ | ⟨m, before⟩
    · obtain ⟨rfl, _⟩ := List.cons.inj split
      exact Option.some.inj (wants.symm.trans asks)
    · obtain ⟨rfl, rest⟩ := List.cons.inj split
      simp only [requested, List.any_cons, Bool.or_eq_false_iff, decide_eq_false_iff_not] at first
      refine ih rest ?_ first.2
      rintro (_ | ⟨_, old⟩)
      · exact first.1 wants
      · exact new old
  | left plain lost _ _ _ ih =>
    rcases before with _ | ⟨m, before⟩
    · obtain ⟨rfl, _⟩ := List.cons.inj split
      exact absurd (lost name asks) new
    · obtain ⟨rfl, rest⟩ := List.cons.inj split
      exact ih rest new (by simp_all [requested])

/-- A name that is not a scope reference's is a new claim or a free number not yet given. -/
theorem Assigned.name_cases (given : Assigned all taken counters ns) {n : NamedToken}
    (member : n ∈ ns) (plain : n.token.isScope = false) :
    (n.name ∈ all ∧ n.name ∉ taken) ∨
      ∃ space i, n.name = numbered space i ∧ numbered space i ∉ all ∧ counters.get space ≤ i := by
  induction given with
  | nil => simp at member
  | scope kind _ ih =>
    rcases List.mem_cons.mp member with rfl | later
    · exact absurd (Token.isScope_of_kind kind) (by simp [plain])
    · exact ih later
  | won _ _ new claimed _ ih =>
    rcases List.mem_cons.mp member with rfl | later
    · exact .inl ⟨claimed, new⟩
    · rcases ih later with ⟨inAll, apart⟩ | number
      · exact .inl ⟨inAll, fun old => apart (List.mem_cons_of_mem _ old)⟩
      · exact .inr number
  | @left taken counters _ t n space _ _ _ next _ ih =>
    obtain ⟨free, low, _⟩ := freeNumber_spec space all (counters.get space)
    rcases List.mem_cons.mp member with rfl | later
    · exact .inr ⟨space, n, rfl, next ▸ free, next ▸ low⟩
    · rcases ih later with claimed | ⟨other, i, name, free, high⟩
      · exact .inl claimed
      · refine .inr ⟨other, i, name, free, ?_⟩
        cases space <;> cases other <;> simp_all [Counters.get, Counters.set] <;> omega

theorem Assigned.names_nodup (given : Assigned all taken counters ns) :
    ((ns.filter fun n => !n.token.isScope).map NamedToken.name).Nodup := by
  induction given with
  | nil => exact List.nodup_nil
  | scope kind _ ih => simpa [Token.isScope, kind] using ih
  | @won taken counters rest t name plain _ _ claimed tail ih =>
    simp only [plain, Bool.not_false, List.filter_cons_of_pos, List.map_cons, List.nodup_cons]
    refine ⟨fun again => ?_, ih⟩
    obtain ⟨m, member, same⟩ := List.mem_map.mp again
    obtain ⟨here, other⟩ := List.mem_filter.mp member
    rcases tail.name_cases here (by simpa using other) with ⟨_, new⟩ | ⟨space, i, number, free, _⟩
    · exact new (same ▸ List.mem_cons_self)
    · exact free (number ▸ same.symm ▸ claimed)
  | @left taken counters rest t n space plain _ _ next tail ih =>
    obtain ⟨free, _, _⟩ := freeNumber_spec space all (counters.get space)
    simp only [plain, Bool.not_false, List.filter_cons_of_pos, List.map_cons, List.nodup_cons]
    refine ⟨fun again => ?_, ih⟩
    obtain ⟨m, member, same⟩ := List.mem_map.mp again
    obtain ⟨here, other⟩ := List.mem_filter.mp member
    rcases tail.name_cases here (by simpa using other) with ⟨claimed, _⟩ | ⟨_, i, number, _, high⟩
    · exact free (next ▸ same ▸ claimed)
    · obtain ⟨rfl, rfl⟩ := numbered_injective (same.symm.trans number)
      cases space <;> simp [Counters.get, Counters.set] at high

/-- The tokens left over in a namespace get its free indices one after the other, from the one
that its counter has come to. -/
theorem Assigned.names_leftOver (given : Assigned all taken counters ns)
    (before : List NamedToken) (known : ∀ name, name ∈ taken ↔ requested before name = true)
    (space : Namespace) :
    (leftOver space.sort before ns).map NamedToken.name =
      (List.range' (Nat.count (fun i => numbered space i ∉ all) (counters.get space))
        (leftOver space.sort before ns).length).map fun k =>
          numbered space (Nat.nth (fun i => numbered space i ∉ all) k) := by
  induction given generalizing before with
  | nil => rfl
  | @scope taken counters rest t own kind _ ih =>
    have skip : isLeftOver before t = false := by
      simp [isLeftOver, Token.isScope_of_kind kind]
    simp only [leftOver, skip, Bool.false_and]
    refine ih _ fun name => ?_
    simp [known, requested, Token.request?, kind]
  | @won taken counters rest t own plain asks new _ _ ih =>
    have skip : isLeftOver before t = false := by
      simpa [isLeftOver, asks, plain] using mt (known own).mpr new
    simp only [leftOver, skip, Bool.false_and]
    refine ih _ fun name => ?_
    have old := known name
    simp only [requested, List.mem_cons, List.any_append, List.any_cons, List.any_nil, asks] at old ⊢
    grind
  | @left taken counters rest t n own plain lost place next _ ih =>
    have extra : isLeftOver before t = true := by
      cases asks : t.request? with
      | none => simp [isLeftOver, plain, asks]
      | some name => simp [isLeftOver, plain, asks, ← known, lost name asks]
    have known' : ∀ name, name ∈ taken ↔ requested (before ++ [⟨numbered own n, t⟩]) name = true := by
      intro name
      have old := lost name
      simp only [known, requested, List.any_append, List.any_cons, List.any_nil] at old ⊢
      grind
    obtain ⟨nth, advance⟩ := freeNumber_eq_nth own all (counters.get own)
    have sorted : space.sort t = decide (own = space) := by
      rw [Bool.eq_iff_iff, Namespace.sort_iff plain, ← place, decide_eq_true_iff]
    by_cases here : own = space
    · subst here
      have counted : (counters.set (n + 1) own).get own = n + 1 := by cases own <;> rfl
      have tail := ih _ known'
      rw [counted, next, advance] at tail
      simp only [leftOver, extra, sorted, decide_true, Bool.and_self, if_true, List.map_cons,
        List.length_cons, List.range'_succ, List.cons.injEq]
      exact ⟨by rw [next, nth], by rw [← next] at tail; exact tail⟩
    · have counted : (counters.set (n + 1) own).get space = counters.get space := by
        cases own <;> cases space <;> simp_all [Counters.get, Counters.set]
      have tail := ih _ known'
      rw [counted] at tail
      simpa [leftOver, extra, sorted, here] using tail

end Assigned

end Naming

/-- How the tokens of a compilation are named. -/
structure NamedExactly (tokens : List NamedToken) : Prop where
  /-- Scope references keep their own name. -/
  scopes : ∀ n ∈ tokens, ∀ own, n.token.kind = .scope own → n.name = own
  /-- No two other tokens share a name. -/
  distinct : ((tokens.filter fun n => !n.token.isScope).map NamedToken.name).Nodup
  /-- The first token to ask for a name gets it. -/
  firsts : ∀ before n after name, tokens = before ++ n :: after →
    n.token.request? = some name → Naming.requested before name = false → n.name = name
  /-- The attributes that are left over are numbered after `a_`. -/
  attributes : Naming.Numbered tokens Token.isVertexAttribute "a_"
  /-- The uniforms and samplers that are left over are numbered together after `u_`. -/
  uniforms : Naming.Numbered tokens Token.isUniform "u_"

namespace Naming

theorem nameTokens_assigned (ts : List Token) :
    Assigned (claimedNames (claim [] ts)) [] {} (nameTokens ts) :=
  fill_assigned fun _ member => member

theorem nameTokens_numbered (ts : List Token) (space : Namespace) :
    Numbered (nameTokens ts) space.sort space.lead := by
  have tokens : (nameTokens ts).map NamedToken.token = ts := tokens_fill ..
  have same (p : Token → Prop) : (∃ t ∈ ts, p t) ↔ ∃ n ∈ nameTokens ts, p n.token := by
    conv_lhs => rw [← tokens]
    simp
  have free : Free (nameTokens ts) space.lead =
      fun i => numbered space i ∉ claimedNames (claim [] ts) := by
    funext i
    simp [Free, numbered, requested, mem_claimedNames, same]
  constructor
  · have names := (nameTokens_assigned ts).names_leftOver [] (by simp [requested]) space
    rw [free]
    cases space <;> simpa [numbered, Counters.get, List.range_eq_range'] using names
  · rw [free]
    refine Set.infinite_of_forall_exists_gt fun n => ?_
    obtain ⟨next, later, _⟩ := freeNumber_spec space (claimedNames (claim [] ts)) (n + 1)
    exact ⟨_, next, later⟩

end Naming

open Naming in
theorem nameTokens_exact (ts : List Token) : NamedExactly (nameTokens ts) := by
  have given := nameTokens_assigned ts
  refine ⟨fun n member own => given.name_scope member, given.names_nodup, ?_,
    nameTokens_numbered ts .attributes, nameTokens_numbered ts .uniforms⟩
  intro before n after name split asks first
  exact given.name_first split asks List.not_mem_nil first

/-- Compilation gives each distinct token one entry, at its first occurrence, and the name that is
its due. -/
theorem compile_names_exactly (t : Template) :
    t.compile.tokens.map (fun n => n.token.id) = (t.body.occurrences.map Token.id).eraseDups ∧
      (∀ n ∈ t.compile.tokens,
        t.body.occurrences.find? (fun u => u.id = n.token.id) = some n.token) ∧
      NamedExactly t.compile.tokens := by
  have tokens : t.compile.tokens.map NamedToken.token = distinctTokens t.body.occurrences := by
    simp only [Template.compile, TemplateBody.tokens_pieces]
    exact Naming.tokens_fill ..
  refine ⟨?_, fun n member => ?_, nameTokens_exact _⟩
  · rw [← ids_distinctTokens, ← tokens, List.map_map]
    rfl
  · exact find_distinctTokens (tokens ▸ List.mem_map_of_mem member)

end ShaderStack

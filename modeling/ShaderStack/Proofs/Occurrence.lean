import ShaderStack.Shader.Compiled
import Mathlib.Data.List.Basic

/-! The tokens of a template in reading order, and the distinct ones among them. An
occurrence counts wherever it stands: in the template itself or nested in it. -/
namespace ShaderStack

/-- Every occurrence of a token, nested ones in place. -/
def TemplateBody.occurrences : TemplateBody → List Token
  | .text _ => []
  | .token _ slot rest => slot :: rest.occurrences
  | .nested _ _ inner rest => inner.occurrences ++ rest.occurrences

theorem Piece.tokens_ofSegment (segment : String) :
    (Piece.ofSegment segment).filterMap Piece.token? = [] := by
  unfold Piece.ofSegment
  split <;> rfl

/-- Dropping empty texts and splicing nested templates loses no token. -/
theorem TemplateBody.tokens_pieces (body : TemplateBody) :
    body.pieces.filterMap Piece.token? = body.occurrences := by
  induction body with
  | text segment => exact Piece.tokens_ofSegment segment
  | token segment slot rest ih =>
    simp [pieces, occurrences, Piece.tokens_ofSegment, Piece.token?, ih]
  | nested segment id inner rest innerIh restIh =>
    simp [pieces, occurrences, Piece.tokens_ofSegment, innerIh, restIh]

theorem mem_distinctTokens {t : Token} {ts : List Token} (member : t ∈ distinctTokens ts) :
    t ∈ ts := by
  induction ts with
  | nil => exact member
  | cons u us ih =>
    rcases List.mem_cons.mp member with rfl | later
    · exact List.mem_cons_self
    · exact List.mem_cons_of_mem _ (ih (List.mem_of_mem_filter later))

theorem nodup_distinctTokens (ts : List Token) : ((distinctTokens ts).map Token.id).Nodup := by
  induction ts with
  | nil => exact List.nodup_nil
  | cons t ts ih =>
    refine List.nodup_cons.mpr ⟨?_, ih.sublist (List.filter_sublist.map _)⟩
    simp

/-- A token that is kept is the first of its identity. -/
theorem find_distinctTokens {t : Token} {ts : List Token} (member : t ∈ distinctTokens ts) :
    ts.find? (fun u => u.id = t.id) = some t := by
  induction ts with
  | nil => simp [distinctTokens] at member
  | cons u us ih =>
    rcases List.mem_cons.mp member with rfl | later
    · simp
    · obtain ⟨kept, other⟩ := List.mem_filter.mp later
      have apart : u.id ≠ t.id := fun same => of_decide_eq_true other same.symm
      simpa [List.find?_cons, apart] using ih kept

theorem eraseDups_filter {α : Type} [DecidableEq α] (p : α → Bool) (as : List α) :
    (as.filter p).eraseDups = as.eraseDups.filter p := by
  match as with
  | [] => rfl
  | a :: rest =>
    have ih := eraseDups_filter p (rest.filter fun b => !b == a)
    rw [List.eraseDups_cons]
    by_cases keep : p a
    · rw [List.filter_cons_of_pos keep, List.filter_cons_of_pos keep, List.eraseDups_cons, ← ih,
        List.filter_comm]
    · have same : rest.filter p = (rest.filter fun b => !b == a).filter p := by
        rw [List.filter_filter]
        apply List.filter_congr
        intro b _
        by_cases equal : b = a <;> simp_all
      rw [List.filter_cons_of_neg keep, List.filter_cons_of_neg keep, same, ih]
termination_by as.length
decreasing_by exact Nat.lt_succ_of_le (List.length_filter_le _ _)

/-- Identities are kept in the order of their first occurrence. -/
theorem ids_distinctTokens (ts : List Token) :
    (distinctTokens ts).map Token.id = (ts.map Token.id).eraseDups := by
  induction ts with
  | nil => rfl
  | cons t ts ih =>
    rw [distinctTokens, List.map_cons, List.map_cons, List.eraseDups_cons, eraseDups_filter, ← ih,
      List.filter_map]
    congr 2
    apply List.filter_congr
    intro u _
    by_cases same : u.id = t.id <;> simp [same]

end ShaderStack

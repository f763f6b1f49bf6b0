import ShaderStack.Shader.Host
import Mathlib.Data.List.Basic

/-! Lists of pairs as tables. Assigning keeps the place of a key, so a table splits at each of its
keys, as a list does at each position, into what stands before and after it. -/
namespace ShaderStack

variable {κ α β : Type} [DecidableEq κ] {key other : κ} {value : α} {entries : List (κ × α)}

theorem lookup_cons_other {k : κ} (apart : key ≠ k) :
    ((k, value) :: entries).lookup key = entries.lookup key := by
  rw [List.lookup_cons, beq_false_of_ne apart]

theorem lookup_assign_same : (assign key value entries).lookup key = some value := by
  induction entries with
  | nil => simp [assign]
  | cons entry rest ih =>
    obtain ⟨k, v⟩ := entry
    by_cases same : k = key
    · simp [assign, same]
    · rw [assign, if_neg same, lookup_cons_other (Ne.symm same), ih]

theorem lookup_assign_other (apart : other ≠ key) :
    (assign key value entries).lookup other = entries.lookup other := by
  induction entries with
  | nil => simp [assign, apart]
  | cons entry rest ih =>
    obtain ⟨k, v⟩ := entry
    by_cases same : k = key
    · subst same
      rw [assign, if_pos rfl, lookup_cons_other apart, lookup_cons_other apart]
    · rw [assign, if_neg same, List.lookup_cons, List.lookup_cons, ih]

theorem assign_of_lookup_none (missing : entries.lookup key = none) :
    assign key value entries = entries ++ [(key, value)] := by
  induction entries with
  | nil => rfl
  | cons entry rest ih =>
    obtain ⟨k, v⟩ := entry
    have apart : k ≠ key := by
      rintro rfl
      simp at missing
    rw [lookup_cons_other apart.symm] at missing
    simp [assign, apart, ih missing]

/-- The place of a key, and what assigning and removing do there. -/
theorem split_of_lookup (found : entries.lookup key = some value) :
    ∃ before after, entries = before ++ (key, value) :: after ∧ key ∉ before.map Prod.fst ∧
      ∀ v, assign key v entries = before ++ (key, v) :: after := by
  induction entries with
  | nil => simp at found
  | cons entry rest ih =>
    obtain ⟨k, v⟩ := entry
    by_cases same : k = key
    · subst same
      have here : v = value := by simpa using found
      exact ⟨[], rest, by simp [here], by simp, by simp [assign]⟩
    · rw [lookup_cons_other (Ne.symm same)] at found
      obtain ⟨before, after, split, first, assigned⟩ := ih found
      refine ⟨(k, v) :: before, after, by simp [split], ?_, ?_⟩
      · simpa [Ne.symm same] using first
      · intro u
        simp [assign, same, assigned u]

theorem map_assign {f : κ × α → β} {old : α} (found : entries.lookup key = some old)
    (same : f (key, value) = f (key, old)) :
    (assign key value entries).map f = entries.map f := by
  obtain ⟨before, after, split, _, assigned⟩ := split_of_lookup found
  rw [assigned, split]
  simp [same]

theorem assign_map {f : α → β} :
    (assign key value entries).map (Prod.map id f) =
      assign key (f value) (entries.map (Prod.map id f)) := by
  induction entries with
  | nil => rfl
  | cons entry rest ih =>
    obtain ⟨k, v⟩ := entry
    by_cases same : k = key
    · simp [assign, same]
    · simp [assign, same, ih]

theorem keys_assign : (assign key value entries).map Prod.fst =
    if key ∈ entries.map Prod.fst then entries.map Prod.fst else entries.map Prod.fst ++ [key] := by
  induction entries with
  | nil => simp [assign]
  | cons entry rest ih =>
    obtain ⟨k, v⟩ := entry
    by_cases same : k = key
    · simp [assign, same]
    · rw [assign, if_neg same, List.map_cons, ih]
      by_cases later : key ∈ rest.map Prod.fst
      · simp [later]
      · simp [later, Ne.symm same]

/-- An assignment brings in no other entry. -/
theorem eq_or_mem_of_mem_assign {entry : κ × α} (member : entry ∈ assign key value entries) :
    entry = (key, value) ∨ entry ∈ entries := by
  induction entries with
  | nil => exact .inl (List.mem_singleton.mp member)
  | cons head rest ih =>
    obtain ⟨k, v⟩ := head
    by_cases same : k = key
    · rw [assign, if_pos same] at member
      exact (List.mem_cons.mp member).imp_right (List.mem_cons_of_mem _)
    · rw [assign, if_neg same] at member
      rcases List.mem_cons.mp member with rfl | old
      · exact .inr List.mem_cons_self
      · exact (ih old).imp_right (List.mem_cons_of_mem _)

/-- What a table with distinct keys holds after an assignment. -/
theorem mem_assign (distinct : (entries.map Prod.fst).Nodup) {entry : κ × α}
    (member : entry ∈ assign key value entries) :
    entry = (key, value) ∨ entry ∈ entries ∧ entry.1 ≠ key := by
  induction entries with
  | nil => exact .inl (List.mem_singleton.mp member)
  | cons head rest ih =>
    obtain ⟨k, v⟩ := head
    obtain ⟨absent, distinct⟩ := List.nodup_cons.mp distinct
    by_cases same : k = key
    · rw [assign, if_pos same] at member
      rcases List.mem_cons.mp member with new | old
      · exact .inl new
      · refine .inr ⟨List.mem_cons_of_mem _ old, ?_⟩
        rintro rfl
        exact absent (List.mem_map.mpr ⟨entry, old, same.symm⟩)
    · rw [assign, if_neg same] at member
      rcases List.mem_cons.mp member with rfl | old
      · exact .inr ⟨List.mem_cons_self, same⟩
      · rcases ih distinct old with new | ⟨there, apart⟩
        · exact .inl new
        · exact .inr ⟨List.mem_cons_of_mem _ there, apart⟩

/-- Entries stay pairwise apart if the new one is apart from all others. -/
theorem pairwise_assign {apart : κ × α → κ × α → Prop} (symm : ∀ e f, apart e f → apart f e)
    (distinct : (entries.map Prod.fst).Nodup) (pairwise : entries.Pairwise apart)
    (new : ∀ e ∈ entries, e.1 ≠ key → apart (key, value) e) :
    (assign key value entries).Pairwise apart := by
  induction entries with
  | nil => simp [assign]
  | cons head rest ih =>
    obtain ⟨k, v⟩ := head
    obtain ⟨absent, distinct⟩ := List.nodup_cons.mp distinct
    obtain ⟨here, pairwise⟩ := List.pairwise_cons.mp pairwise
    by_cases same : k = key
    · rw [assign, if_pos same]
      refine List.pairwise_cons.mpr ⟨?_, pairwise⟩
      intro e member
      refine new e (List.mem_cons_of_mem _ member) ?_
      intro again
      exact absent (List.mem_map.mpr ⟨e, member, again.trans same.symm⟩)
    · rw [assign, if_neg same]
      refine List.pairwise_cons.mpr ⟨?_, ih distinct pairwise fun e member =>
        new e (List.mem_cons_of_mem _ member)⟩
      intro e member
      rcases mem_assign distinct member with rfl | ⟨there, _⟩
      · exact symm _ _ (new (k, v) List.mem_cons_self same)
      · exact here e there

theorem nodup_assign (distinct : (entries.map Prod.fst).Nodup) :
    ((assign key value entries).map Prod.fst).Nodup := by
  rw [keys_assign]
  split
  · exact distinct
  · next absent =>
    refine List.nodup_append.mpr ⟨distinct, by simp, ?_⟩
    intro k member other here
    rw [List.mem_singleton.mp here]
    rintro rfl
    exact absent member

theorem lookup_map {f : α → β} :
    (entries.map (Prod.map id f)).lookup key = (entries.lookup key).map f := by
  induction entries with
  | nil => rfl
  | cons entry rest ih =>
    obtain ⟨k, v⟩ := entry
    by_cases same : key = k
    · subst same
      simp
    · rw [List.map_cons, Prod.map_apply, id_eq, lookup_cons_other same, lookup_cons_other same, ih]

/-- A table that is computed from a list. -/
theorem lookup_map_pair {γ : Type} {xs : List γ} {k : γ → κ} {v : γ → α} :
    (xs.map fun x => (k x, v x)).lookup key = (xs.find? fun x => k x = key).map v := by
  induction xs with
  | nil => rfl
  | cons x xs ih =>
    by_cases same : k x = key
    · simp [same]
    · rw [List.map_cons, lookup_cons_other (Ne.symm same), ih]
      simp [same]

/-- A table without one of its keys. -/
theorem lookup_filter : (entries.filter (·.1 ≠ key)).lookup other =
    if other = key then none else entries.lookup other := by
  induction entries with
  | nil => simp
  | cons entry rest ih =>
    obtain ⟨k, v⟩ := entry
    by_cases gone : k = key
    · subst gone
      rw [List.filter_cons_of_neg (by simp), ih]
      by_cases same : other = k
      · rw [if_pos same, if_pos same]
      · rw [lookup_cons_other same]
    · rw [List.filter_cons_of_pos (by simpa using gone)]
      by_cases same : other = k
      · subst same
        simp [gone]
      · rw [lookup_cons_other same, lookup_cons_other same, ih]

theorem mem_of_lookup (found : entries.lookup key = some value) : (key, value) ∈ entries := by
  obtain ⟨before, after, split, _⟩ := split_of_lookup found
  simp [split]

theorem lookup_of_mem (distinct : (entries.map Prod.fst).Nodup) (member : (key, value) ∈ entries) :
    entries.lookup key = some value := by
  induction entries with
  | nil => simp at member
  | cons entry rest ih =>
    obtain ⟨k, v⟩ := entry
    rw [List.map_cons, List.nodup_cons] at distinct
    rcases List.mem_cons.mp member with here | later
    · cases here
      simp
    · have apart : key ≠ k := by
        rintro rfl
        exact distinct.1 (List.mem_map.mpr ⟨_, later, rfl⟩)
      rw [lookup_cons_other apart, ih distinct.2 later]

/-- Removing the key of a split table leaves the rest. -/
theorem filter_split {before after : List (κ × α)}
    (distinct : ((before ++ (key, value) :: after).map Prod.fst).Nodup) :
    (before ++ (key, value) :: after).filter (·.1 ≠ key) = before ++ after := by
  have apart : ∀ entry ∈ before ++ after, entry.1 ≠ key := by
    intro entry member same
    have perm : (before ++ (key, value) :: after).Perm ((key, value) :: (before ++ after)) :=
      List.perm_middle
    have nodup := (perm.map Prod.fst).nodup_iff.mp distinct
    rw [List.map_cons, List.nodup_cons] at nodup
    exact nodup.1 (List.mem_map.mpr ⟨entry, member, same⟩)
  rw [List.filter_append, List.filter_cons_of_neg (by simp)]
  rw [← List.filter_append, List.filter_eq_self.mpr]
  intro entry member
  simpa using apart entry member

/-- The place of a position, and what setting and erasing do there. -/
theorem split_of_getElem? {items : List α} {i : Nat} {a : α} (found : items[i]? = some a) :
    ∃ before after, items = before ++ a :: after ∧ (∀ b, items.set i b = before ++ b :: after) ∧
      items.eraseIdx i = before ++ after := by
  obtain ⟨bound, here⟩ := List.getElem?_eq_some_iff.mp found
  refine ⟨items.take i, items.drop (i + 1), ?_, ?_, List.eraseIdx_eq_take_drop_succ ..⟩
  · rw [← here, ← List.drop_eq_getElem_cons bound, List.take_append_drop]
  · intro b
    rw [List.set_eq_take_append_cons_drop, if_pos bound]

/-- Both are there, or neither. -/
theorem rel_cases {same : α → β → Prop} {a : Option α} {b : Option β} (rel : Option.Rel same a b) :
    (a = none ∧ b = none) ∨ ∃ x y, a = some x ∧ b = some y ∧ same x y := by
  cases rel with
  | some known => exact .inr ⟨_, _, rfl, rfl, known⟩
  | none => exact .inl ⟨rfl, rfl⟩

theorem rel_imp {same wider : α → β → Prop} {a : Option α} {b : Option β}
    (wide : ∀ a b, same a b → wider a b) (rel : Option.Rel same a b) : Option.Rel wider a b := by
  cases rel with
  | some known => exact .some (wide _ _ known)
  | none => exact .none

/-- If two lists look the same, each element of one has a counterpart in the other. -/
theorem exists_of_map_eq {f : α → β} {xs ys : List α} (same : xs.map f = ys.map f) {x : α}
    (member : x ∈ xs) : ∃ y ∈ ys, f x = f y := by
  have shown : f x ∈ ys.map f := by
    rw [← same]
    exact List.mem_map_of_mem member
  obtain ⟨y, there, equal⟩ := List.mem_map.mp shown
  exact ⟨y, there, equal.symm⟩

/-- Where an element of a list of two parts is. -/
theorem append_eq_append_cons {xs ys before after : List α} {a : α}
    (split : xs ++ ys = before ++ a :: after) :
    (∃ late, xs = before ++ a :: late) ∨ ∃ early, before = xs ++ early ∧ ys = early ++ a :: after := by
  rcases List.append_eq_append_iff.mp split with ⟨early, same, late⟩ | ⟨late, same, rest⟩
  · exact .inr ⟨early, same, late⟩
  · cases late with
    | nil => exact .inr ⟨[], by simpa using same.symm, by simpa using rest.symm⟩
    | cons b late =>
      obtain ⟨rfl, rfl⟩ := List.cons.inj rest
      exact .inl ⟨late, same⟩

end ShaderStack

import ScriptIndex.NameMap

/-!
# Maps of facts

Of several facts with one name the last one stays in the map, and of several maps the last one with a
name gives its value. A map is determined by what its names have as values.
-/
namespace ScriptIndex.NameMap

variable {α : Type}

theorem find?_foldl_insert (name : α → String) (facts : List α) (m : NameMap α) (k : String) :
    (facts.foldl (fun acc fact => acc.insert (name fact) fact) m).find? k =
      (facts.reverse.find? fun fact => name fact = k).or (m.find? k) := by
  induction facts generalizing m with
  | nil => rfl
  | cons fact facts ih =>
    rw [List.foldl_cons, ih, find?_insert, List.reverse_cons, List.find?_append, Option.or_assoc]
    congr 1
    by_cases h : k = name fact
    · simp [h]
    · simp [h, Ne.symm h]

/-- The last fact with a name is the one under that name. -/
theorem find?_ofFacts (name : α → String) (facts : List α) (k : String) :
    (ofFacts name facts).find? k = facts.reverse.find? fun fact => name fact = k := by
  rw [ofFacts, find?_foldl_insert, find?_empty, Option.or_none]

theorem mem_of_find?_ofFacts {name : α → String} {facts : List α} {k : String} {fact : α}
    (h : (ofFacts name facts).find? k = some fact) : fact ∈ facts := by
  rw [find?_ofFacts] at h
  exact List.mem_reverse.1 (List.mem_of_find?_eq_some h)

theorem name_of_find?_ofFacts {name : α → String} {facts : List α} {k : String} {fact : α}
    (h : (ofFacts name facts).find? k = some fact) : name fact = k := by
  rw [find?_ofFacts] at h
  simpa using List.find?_some h

theorem mem_of_findEntry {entries : List (String × α)} {k : String} {v : α}
    (h : findEntry k entries = some v) : (k, v) ∈ entries := by
  induction entries with
  | nil => cases h
  | cons entry entries ih =>
    obtain ⟨name, value⟩ := entry
    rw [findEntry] at h
    by_cases hk : k = name
    · rw [if_pos hk] at h
      cases h
      rw [hk]
      exact List.mem_cons_self
    · rw [if_neg hk] at h
      exact List.mem_cons_of_mem _ (ih h)

theorem findEntry_eq_none {k : String} {es : List (String × α)} (h : ∀ e ∈ es, e.1 ≠ k) :
    findEntry k es = none := by
  induction es with
  | nil => rfl
  | cons e es ih =>
    have hne : k ≠ e.1 := (h e List.mem_cons_self).symm
    rw [findEntry, if_neg hne]
    exact ih fun other ho => h other (List.mem_cons_of_mem _ ho)

theorem findEntry_of_mem {es : List (String × α)} (h : es.Pairwise fun a b => a.1 < b.1)
    {k : String} {v : α} (hmem : (k, v) ∈ es) : findEntry k es = some v := by
  induction es with
  | nil => cases hmem
  | cons e es ih =>
    rw [findEntry]
    rcases List.mem_cons.1 hmem with rfl | hlater
    · exact if_pos rfl
    · have hlt : e.1 < k := List.rel_of_pairwise_cons h hlater
      have hne : k ≠ e.1 := by
        rintro rfl
        exact String.lt_irrefl _ hlt
      rw [if_neg hne]
      exact ih h.of_cons hlater

theorem mem_entries_iff {m : NameMap α} {k : String} {v : α} :
    (k, v) ∈ m.entries ↔ m.find? k = some v :=
  ⟨findEntry_of_mem m.sorted, mem_of_findEntry⟩

theorem entries_inj {m n : NameMap α} (h : m.entries = n.entries) : m = n := by
  cases m
  cases n
  cases h
  rfl

/-- Maps with the same values are equal. -/
theorem eq_of_find? {m n : NameMap α} (h : ∀ k, m.find? k = n.find? k) : m = n := by
  have hnodup (m : NameMap α) : m.entries.Nodup := by
    apply m.sorted.imp
    rintro a b hlt rfl
    exact String.lt_irrefl _ hlt
  have hperm : m.entries.Perm n.entries := by
    rw [List.perm_ext_iff_of_nodup (hnodup m) (hnodup n)]
    rintro ⟨k, v⟩
    rw [mem_entries_iff, mem_entries_iff, h]
  apply entries_inj
  apply hperm.eq_of_pairwise _ m.sorted n.sorted
  intro a b _ _ hab hba
  exact absurd (String.lt_trans hab hba) (String.lt_irrefl _)

theorem find?_foldl_entries {es : List (String × α)} (h : es.Pairwise fun a b => a.1 < b.1)
    (m : NameMap α) (k : String) :
    (es.foldl (fun acc e => acc.insert e.1 e.2) m).find? k =
      (findEntry k es).or (m.find? k) := by
  induction es generalizing m with
  | nil => rfl
  | cons e es ih =>
    rw [List.foldl_cons, ih h.of_cons, find?_insert, findEntry]
    by_cases hk : k = e.1
    · -- a name stands in one entry only, so no later one takes its place
      have hlater : findEntry k es = none := by
        apply findEntry_eq_none
        intro other ho heq
        have hlt : e.1 < other.1 := List.rel_of_pairwise_cons h ho
        rw [heq, hk] at hlt
        exact String.lt_irrefl _ hlt
      rw [hlater, if_pos hk, if_pos hk]
      rfl
    · rw [if_neg hk, if_neg hk]

/-- A merged map has the values of the second map where there are any. -/
theorem find?_merge (m other : NameMap α) (k : String) :
    (m.merge other).find? k = (other.find? k).or (m.find? k) :=
  find?_foldl_entries other.sorted m k

theorem find?_foldl_merge (maps : List (NameMap α)) (m : NameMap α) (k : String) :
    (maps.foldl merge m).find? k = (maps.reverse.findSome? fun map => map.find? k).or (m.find? k) := by
  induction maps generalizing m with
  | nil => rfl
  | cons map maps ih =>
    rw [List.foldl_cons, ih, find?_merge, List.reverse_cons, List.findSome?_append, Option.or_assoc]
    simp

end ScriptIndex.NameMap

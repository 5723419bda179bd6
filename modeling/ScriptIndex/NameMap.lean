/-!
# Maps by name

A map keeps its entries in ascending order of their names, each name once. Two maps with the same
lookups are equal, and a later insertion under a name replaces the earlier one.
-/
namespace ScriptIndex

/-- A map from names to values, in the order of the names. -/
structure NameMap (α : Type) where
  entries : List (String × α)
  sorted : entries.Pairwise fun a b => a.1 < b.1

namespace NameMap

variable {α : Type}

def insertEntry (name : String) (value : α) : List (String × α) → List (String × α)
  | [] => [(name, value)]
  | (k, v) :: rest =>
    if name < k then (name, value) :: (k, v) :: rest
    else if name = k then (name, value) :: rest
    else (k, v) :: insertEntry name value rest

theorem mem_insertEntry {name : String} {value : α} {e : String × α} {es : List (String × α)}
    (h : e ∈ insertEntry name value es) : e = (name, value) ∨ e ∈ es := by
  induction es with
  | nil => simpa [insertEntry] using h
  | cons x rest ih =>
    obtain ⟨k, v⟩ := x
    rw [insertEntry] at h
    split at h
    · simpa using h
    · split at h
      · simp only [List.mem_cons] at h ⊢
        rcases h with h | h
        · exact Or.inl h
        · exact Or.inr (Or.inr h)
      · simp only [List.mem_cons] at h ⊢
        rcases h with h | h
        · exact Or.inr (Or.inl h)
        · rcases ih h with h | h
          · exact Or.inl h
          · exact Or.inr (Or.inr h)

theorem lt_of_not_lt_of_ne {a b : String} (h : ¬a < b) (hne : a ≠ b) : b < a :=
  Std.lt_of_le_of_ne (Std.not_lt.1 h) (Ne.symm hne)

theorem insertEntry_sorted (name : String) (value : α) {es : List (String × α)}
    (h : es.Pairwise fun a b => a.1 < b.1) :
    (insertEntry name value es).Pairwise fun a b => a.1 < b.1 := by
  induction es with
  | nil => simp [insertEntry]
  | cons x rest ih =>
    obtain ⟨k, v⟩ := x
    have hx : ∀ e ∈ rest, k < e.1 := fun e he => List.rel_of_pairwise_cons h he
    rw [insertEntry]
    split
    · rename_i hlt
      refine List.Pairwise.cons ?_ h
      intro e he
      rcases List.mem_cons.1 he with rfl | he
      · exact hlt
      · exact String.lt_trans hlt (hx e he)
    · rename_i hnot
      split
      · rename_i heq
        subst heq
        exact List.Pairwise.cons hx h.of_cons
      · rename_i hne
        refine List.Pairwise.cons ?_ (ih h.of_cons)
        intro e he
        rcases mem_insertEntry he with rfl | he
        · exact lt_of_not_lt_of_ne hnot hne
        · exact hx e he

def findEntry (name : String) : List (String × α) → Option α
  | [] => none
  | (k, v) :: rest => if name = k then some v else findEntry name rest

def empty : NameMap α := ⟨[], .nil⟩

instance : EmptyCollection (NameMap α) := ⟨empty⟩

instance : Inhabited (NameMap α) := ⟨empty⟩

def insert (m : NameMap α) (name : String) (value : α) : NameMap α :=
  ⟨insertEntry name value m.entries, insertEntry_sorted name value m.sorted⟩

def erase (m : NameMap α) (name : String) : NameMap α :=
  ⟨m.entries.filter fun e => e.1 != name, m.sorted.filter _⟩

def find? (m : NameMap α) (name : String) : Option α := findEntry name m.entries

def contains (m : NameMap α) (name : String) : Bool := (m.find? name).isSome

/-- The entries in the order of the names. -/
def toList (m : NameMap α) : List (String × α) := m.entries

def values (m : NameMap α) : List α := m.entries.map (·.2)

def size (m : NameMap α) : Nat := m.entries.length

def merge (m other : NameMap α) : NameMap α :=
  other.entries.foldl (fun acc e => acc.insert e.1 e.2) m

/-- Inserts facts one after the other, each under its name. -/
def ofFacts (name : α → String) (facts : List α) : NameMap α :=
  facts.foldl (fun acc fact => acc.insert (name fact) fact) ∅

theorem findEntry_insertEntry (name k : String) (value : α) (es : List (String × α)) :
    findEntry k (insertEntry name value es) = if k = name then some value else findEntry k es := by
  induction es with
  | nil => simp [insertEntry, findEntry]
  | cons x rest ih =>
    obtain ⟨k', v'⟩ := x
    rw [insertEntry]
    split
    · simp [findEntry]
    · split
      · rename_i heq
        subst heq
        simp only [findEntry]
        split <;> rfl
      · rename_i hne
        simp only [findEntry, ih]
        split
        · rename_i heq
          subst heq
          rw [if_neg (Ne.symm hne)]
        · rfl

theorem findEntry_filter (name k : String) (es : List (String × α)) :
    findEntry k (es.filter fun e => e.1 != name) = if k = name then none else findEntry k es := by
  induction es with
  | nil => simp [findEntry]
  | cons x rest ih =>
    obtain ⟨k', v'⟩ := x
    by_cases h : k' = name
    · subst h
      simp only [List.filter_cons, bne_self_eq_false, Bool.false_eq_true, if_false, ih, findEntry]
      split <;> rfl
    · have hb : (k' != name) = true := by simpa using h
      simp only [List.filter_cons, hb, if_true, findEntry, ih]
      split
      · rename_i heq
        subst heq
        rw [if_neg h]
      · rfl

@[simp] theorem find?_empty (k : String) : (∅ : NameMap α).find? k = none := rfl

theorem find?_insert (m : NameMap α) (name k : String) (value : α) :
    (m.insert name value).find? k = if k = name then some value else m.find? k :=
  findEntry_insertEntry name k value m.entries

theorem find?_erase (m : NameMap α) (name k : String) :
    (m.erase name).find? k = if k = name then none else m.find? k :=
  findEntry_filter name k m.entries

end NameMap
end ScriptIndex

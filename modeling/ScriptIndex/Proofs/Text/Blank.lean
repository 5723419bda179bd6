import ScriptIndex.Proofs.Text.Word

/-!
# Trimmed texts and fields

A text is trimmed by leaving out the blanks at its two ends, and this has one outcome. The fields of a
text are the runs without separators. Separators around and between fields may be of any number.
-/
namespace ScriptIndex.Text

/-- What is left of a text without the blanks at its two ends. -/
def Trimmed (cs core : List Char) : Prop :=
  ∃ left right, cs = left ++ (core ++ right) ∧ (∀ c ∈ left, isBlank c = true) ∧
    (∀ c ∈ right, isBlank c = true) ∧ (∀ c ∈ core.head?, isBlank c = false) ∧
    ∀ c ∈ core.getLast?, isBlank c = false

theorem trimEnd_append {core right : List Char} (hcore : ∀ c ∈ core.getLast?, isBlank c = false)
    (hright : ∀ c ∈ right, isBlank c = true) : trimEnd (core ++ right) = core := by
  have hlast : ∀ c ∈ core.reverse.head?, isBlank c = false := by simpa using hcore
  have hblanks : ∀ c ∈ right.reverse, isBlank c = true := by simpa using hright
  rw [trimEnd, List.reverse_append, dropWhile_append_rest hblanks hlast, List.reverse_reverse]

theorem exists_trimEnd_append (cs : List Char) :
    ∃ right, cs = trimEnd cs ++ right ∧ (∀ c ∈ right, isBlank c = true) ∧
      ∀ c ∈ (trimEnd cs).getLast?, isBlank c = false := by
  refine ⟨(cs.reverse.takeWhile isBlank).reverse, ?_, ?_, ?_⟩
  · rw [trimEnd, ← List.reverse_append, List.takeWhile_append_dropWhile, List.reverse_reverse]
  · intro c hc
    exact List.mem_takeWhile_imp (List.mem_reverse.1 hc)
  · simpa [trimEnd] using of_mem_head?_dropWhile

theorem trimEnd_eq_nil {cs : List Char} (h : cs.all isBlank = true) : trimEnd cs = [] :=
  @trimEnd_append [] cs (by simp) (List.all_eq_true.mp h)

theorem trimEnd_cons {c : Char} {cs : List Char} (h : (c :: cs).all isBlank = false) :
    trimEnd (c :: cs) = c :: trimEnd cs := by
  obtain ⟨right, hcs, hright, hlast⟩ := exists_trimEnd_append cs
  have hcore : ∀ d ∈ (c :: trimEnd cs).getLast?, isBlank d = false := by
    cases hnil : trimEnd cs with
    | nil =>
      rw [hnil, List.nil_append] at hcs
      subst hcs
      simpa [List.all_eq_true.mpr hright] using h
    | cons d ds => simpa [hnil] using hlast
  calc trimEnd (c :: cs) = trimEnd ((c :: trimEnd cs) ++ right) := by rw [List.cons_append, ← hcs]
    _ = c :: trimEnd cs := trimEnd_append hcore hright

theorem trimmed_trim (cs : List Char) : Trimmed cs (trim cs) := by
  obtain ⟨right, hrest, hright, hlast⟩ := exists_trimEnd_append (cs.dropWhile isBlank)
  refine ⟨cs.takeWhile isBlank, right, ?_, fun c hc => List.mem_takeWhile_imp hc, hright, ?_, hlast⟩
  · rw [trim, ← hrest, List.takeWhile_append_dropWhile]
  · intro c hc
    have hfirst : c ∈ (trimEnd (cs.dropWhile isBlank) ++ right).head? := by
      have hcore : (trimEnd (cs.dropWhile isBlank)).head? = some c := hc
      simp [hcore]
    rw [← hrest] at hfirst
    exact of_mem_head?_dropWhile c hfirst

theorem trim_eq_iff {cs core : List Char} : trim cs = core ↔ Trimmed cs core := by
  constructor
  · rintro rfl
    exact trimmed_trim cs
  · rintro ⟨left, right, rfl, hleft, hright, hhead, hlast⟩
    cases core with
    | nil =>
      have hall : ∀ c ∈ left ++ right, isBlank c = true := by
        intro c hc
        exact (List.mem_append.1 hc).elim (hleft c) (hright c)
      rw [trim, List.nil_append, List.dropWhile_eq_nil_iff.2 hall]
      rfl
    | cons c core =>
      rw [trim, dropWhile_append_rest hleft (by simpa using hhead), trimEnd_append hlast hright]

section Fields

variable {sep : Char → Bool}

@[simp] theorem fields_nil : fields sep [] = [] := rfl

theorem fields_cons_of_sep {c : Char} (hc : sep c = true) (cs : List Char) :
    fields sep (c :: cs) = fields sep cs := by
  simp [fields, fields.go, fields.emit, hc]

theorem fields_append_of_seps {seps : List Char} (h : ∀ c ∈ seps, sep c = true) (cs : List Char) :
    fields sep (seps ++ cs) = fields sep cs := by
  induction seps with
  | nil => rfl
  | cons c seps ih =>
    rw [List.forall_mem_cons] at h
    rw [List.cons_append, fields_cons_of_sep h.1, ih h.2]

theorem fields_of_seps {seps : List Char} (h : ∀ c ∈ seps, sep c = true) : fields sep seps = [] := by
  simpa using fields_append_of_seps h []

theorem fields_go_append {token : List Char} (h : ∀ c ∈ token, sep c = false) (word cs : List Char) :
    fields.go sep word (token ++ cs) = fields.go sep (token.reverse ++ word) cs := by
  induction token generalizing word with
  | nil => rfl
  | cons c token ih =>
    rw [List.forall_mem_cons] at h
    simp [fields.go, h.1, ih h.2]

/-- A run without separators that a separator or the end follows is a field. -/
theorem fields_append_of_token {token rest : List Char} (hne : token ≠ [])
    (htoken : ∀ c ∈ token, sep c = false) (hrest : ∀ c ∈ rest.head?, sep c = true) :
    fields sep (token ++ rest) = token :: fields sep rest := by
  rw [fields, fields_go_append htoken]
  cases rest with
  | nil => simp [fields, fields.go, fields.emit, hne]
  | cons c rest =>
    have hc : sep c = true := hrest c rfl
    rw [fields_cons_of_sep hc]
    simp [fields, fields.go, fields.emit, hc, hne]

theorem fields_append {token rest : List Char} (htoken : ∀ c ∈ token, sep c = false)
    (hrest : ∀ c ∈ rest.head?, sep c = true) :
    fields sep (token ++ rest) = [token].filter (!·.isEmpty) ++ fields sep rest := by
  by_cases hne : token = []
  · simp [hne]
  · simp [fields_append_of_token hne htoken hrest, hne]

theorem fields_go_concat {c : Char} (hc : sep c = true) (word cs : List Char) :
    fields.go sep word (cs ++ [c]) = fields.go sep word cs := by
  induction cs generalizing word with
  | nil => simp [fields.go, fields.emit, hc]
  | cons d cs ih => simp [fields.go, ih]

/-- A separator at the end makes no difference. -/
theorem fields_concat {c : Char} (hc : sep c = true) (cs : List Char) :
    fields sep (cs ++ [c]) = fields sep cs :=
  fields_go_concat hc [] cs

end Fields

end ScriptIndex.Text

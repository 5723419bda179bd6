import Mathlib.Data.Nat.Basic
import Mathlib.Order.Bounds.Defs
import Mathlib.Order.Monotone.Defs
import ScriptIndex.Proofs.Text.Columns

/-!
# The two kinds of columns of a line

An editor's column stands for the first place between characters that is not before it. A column between
characters therefore comes back, a column inside a surrogate pair moves behind the pair, and a column past
the end of the line keeps its distance to the end.
-/
namespace ScriptIndex.Text

/-- A character of the line starts at byte `b`, or the line ends there. -/
def IsBoundary (line : List Char) (b : Nat) : Prop :=
  ∃ before after, line = before ++ after ∧ byteLength before = b

/-- Column `u` falls between the two UTF-16 units of a character. -/
def SplitsPair (line : List Char) (u : Nat) : Prop :=
  ∃ before c after, line = before ++ c :: after ∧ units c = 2 ∧ u = unitLength before + 1

theorem units_le_two (c : Char) : units c ≤ 2 := by
  rw [units]
  split <;> omega

@[simp] theorem bytesOfUnits_zero (line : List Char) : bytesOfUnits line 0 = 0 := by
  cases line <;> rfl

theorem bytesOfUnits_cons (c : Char) (cs : List Char) {u : Nat} (h : 0 < u) :
    bytesOfUnits (c :: cs) u = c.utf8Size + bytesOfUnits cs (u - units c) := by
  obtain ⟨n, rfl⟩ := Nat.exists_eq_succ_of_ne_zero (Nat.ne_of_gt h)
  rw [bytesOfUnits]

/-- A column that the line reaches stands for a boundary at or behind it. -/
theorem exists_boundary_of_le {line : List Char} {u : Nat} (h : u ≤ unitLength line) :
    ∃ before after, line = before ++ after ∧ byteLength before = bytesOfUnits line u ∧
      u ≤ unitLength before := by
  induction line generalizing u with
  | nil => exact ⟨[], [], rfl, by rw [Nat.le_zero.1 h, bytesOfUnits_zero]; rfl, h⟩
  | cons c cs ih =>
    rcases Nat.eq_zero_or_pos u with rfl | hpos
    · exact ⟨[], c :: cs, rfl, by rw [bytesOfUnits_zero]; rfl, Nat.le_refl 0⟩
    · rw [unitLength_cons] at h
      obtain ⟨before, after, hline, hbytes, hunits⟩ := ih (Nat.sub_le_iff_le_add'.2 h)
      refine ⟨c :: before, after, by rw [hline, List.cons_append], ?_, ?_⟩
      · rw [byteLength_cons, hbytes, bytesOfUnits_cons c cs hpos]
      · rw [unitLength_cons]
        omega

/-- No boundary that is at or behind the column comes earlier. -/
theorem bytesOfUnits_le {cs ds : List Char} {u : Nat} (h : u ≤ unitLength cs) :
    bytesOfUnits (cs ++ ds) u ≤ byteLength cs := by
  induction cs generalizing u with
  | nil =>
    rw [Nat.le_zero.1 h, bytesOfUnits_zero]
    exact Nat.zero_le _
  | cons c cs ih =>
    rcases Nat.eq_zero_or_pos u with rfl | hpos
    · rw [bytesOfUnits_zero]
      exact Nat.zero_le _
    · rw [unitLength_cons] at h
      rw [List.cons_append, bytesOfUnits_cons c _ hpos, byteLength_cons]
      exact Nat.add_le_add_left (ih (Nat.sub_le_iff_le_add'.2 h)) _

theorem bytesOfUnits_of_le {line : List Char} {u : Nat} (h : unitLength line ≤ u) :
    bytesOfUnits line u = byteLength line + (u - unitLength line) := by
  induction line generalizing u with
  | nil => rw [bytesOfUnits, byteLength_nil, unitLength_nil, Nat.zero_add, Nat.sub_zero]
  | cons c cs ih =>
    rw [unitLength_cons] at h
    have hpos := units_pos c
    rw [bytesOfUnits_cons c cs (by omega), ih (by omega), byteLength_cons, unitLength_cons]
    omega

/-- A column that the line reaches lies between two characters or inside one. -/
theorem exists_split_or_splitsPair {line : List Char} {u : Nat} (h : u ≤ unitLength line) :
    (∃ before after, line = before ++ after ∧ unitLength before = u) ∨ SplitsPair line u := by
  induction line generalizing u with
  | nil => exact Or.inl ⟨[], [], rfl, (Nat.le_zero.1 h).symm⟩
  | cons c cs ih =>
    rcases Nat.eq_zero_or_pos u with rfl | hpos
    · exact Or.inl ⟨[], c :: cs, rfl, rfl⟩
    · rcases Nat.lt_or_ge u (units c) with hinside | hbehind
      · have htwo := units_le_two c
        refine Or.inr ⟨[], c, cs, rfl, by omega, ?_⟩
        rw [unitLength_nil]
        omega
      · rw [unitLength_cons] at h
        rcases ih (Nat.sub_le_iff_le_add'.2 h) with
          ⟨before, after, rfl, hunits⟩ | ⟨before, d, after, rfl, htwo, hunits⟩
        · refine Or.inl ⟨c :: before, after, rfl, ?_⟩
          rw [unitLength_cons]
          omega
        · refine Or.inr ⟨c :: before, d, after, rfl, htwo, ?_⟩
          rw [unitLength_cons]
          omega

theorem monotone_bytesOfUnits (line : List Char) : Monotone (bytesOfUnits line) := by
  induction line with
  | nil => exact fun _ _ h => h
  | cons c cs ih =>
    intro u v h
    rcases Nat.eq_zero_or_pos u with rfl | hpos
    · rw [bytesOfUnits_zero]
      exact Nat.zero_le _
    · rw [bytesOfUnits_cons c cs hpos, bytesOfUnits_cons c cs (Nat.lt_of_lt_of_le hpos h)]
      exact Nat.add_le_add_left (ih (Nat.sub_le_sub_right h _)) _

/-- The two conversions on a line of fewer than `2 ^ 32` UTF-16 units. Each is the other one's inverse
between characters, and an editor's column leads to the first boundary that is not before it. -/
theorem columns_are_best_fit (line : List Char) (hsize : unitLength line < 2 ^ 32) :
    (∀ u ≤ unitLength line,
        IsLeast {b | IsBoundary line b ∧ u ≤ unitsOfBytes line b} (bytesOfUnits line u)) ∧
      (∀ u, unitLength line < u →
        bytesOfUnits line u = byteLength line + (u - unitLength line)) ∧
      (∀ b, IsBoundary line b → bytesOfUnits line (unitsOfBytes line b) = b) ∧
      (∀ u ≤ unitLength line, ¬SplitsPair line u → unitsOfBytes line (bytesOfUnits line u) = u) ∧
      Monotone (bytesOfUnits line) ∧ MonotoneOn (unitsOfBytes line) {b | IsBoundary line b} := by
  have hunits : ∀ {before after}, line = before ++ after →
      unitsOfBytes line (byteLength before) = unitLength before := by
    rintro before after rfl
    rw [unitLength_append] at hsize
    exact unitsOfBytes_append (Nat.le_of_lt_succ (Nat.lt_of_le_of_lt (Nat.le_add_right _ _) hsize))
  refine ⟨fun u hu => ⟨?_, ?_⟩, fun u hu => bytesOfUnits_of_le (Nat.le_of_lt hu), ?_, ?_,
    monotone_bytesOfUnits line, ?_⟩
  · obtain ⟨before, after, hline, hbytes, hle⟩ := exists_boundary_of_le hu
    rw [Set.mem_ofPred_eq, ← hbytes, hunits hline]
    exact ⟨⟨before, after, hline, rfl⟩, hle⟩
  · rintro _ ⟨⟨before, after, hline, rfl⟩, hle⟩
    rw [hunits hline] at hle
    rw [hline]
    exact bytesOfUnits_le hle
  · rintro _ ⟨before, after, hline, rfl⟩
    rw [hunits hline, hline, bytesOfUnits_append]
  · intro u hu hwhole
    obtain ⟨before, after, hline, rfl⟩ := (exists_split_or_splitsPair hu).resolve_right hwhole
    have hbytes : bytesOfUnits line (unitLength before) = byteLength before := by
      rw [hline, bytesOfUnits_append]
    rw [hbytes, hunits hline]
  · rintro _ ⟨before, after, hline, rfl⟩ _ ⟨before', after', hline', rfl⟩ hle
    obtain ⟨middle, rfl⟩ := exists_append_of_byteLength_le (hline.symm.trans hline') hle
    rw [hunits hline, hunits hline', unitLength_append]
    exact Nat.le_add_right _ _

/-- A line of four UTF-16 units and seven bytes. Its second character takes two units, and the column
between them leads behind it. -/
theorem columns_of_emoji_line :
    let line := "a😀é".toList
    unitLength line < 2 ^ 32 ∧ SplitsPair line 2 ∧
      IsLeast {b | IsBoundary line b ∧ 2 ≤ unitsOfBytes line b} 5 ∧
      bytesOfUnits line 6 = 9 ∧ bytesOfUnits line (unitsOfBytes line 5) = 5 := by
  intro line
  have hsize : unitLength line < 2 ^ 32 := by decide
  obtain ⟨hleast, hpast, hback, -⟩ := columns_are_best_fit line hsize
  refine ⟨hsize, ⟨['a'], '😀', ['é'], by decide, by decide, by decide⟩, ?_, hpast 6 (by decide), ?_⟩
  · exact hleast 2 (by decide)
  · exact hback 5 ⟨['a', '😀'], ['é'], by decide, by decide⟩

end ScriptIndex.Text

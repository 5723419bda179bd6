import Mathlib.Algebra.Group.Nat.Defs
import ScriptIndex.Comment
import ScriptIndex.Proofs.Text.Bytes
import ScriptIndex.Text.Columns
import ScriptIndex.Text.Position

/-!
# Columns at character boundaries

The bytes before a character tell which characters stand before it, so a byte column between two
characters has the UTF-16 column of the same place. No line is longer than its text, and no text has
more lines than bytes, so in a text that can be counted every line and column can be.
-/
namespace ScriptIndex.Text

@[simp] theorem unitLength_nil : unitLength [] = 0 := rfl

@[simp] theorem unitLength_cons (c : Char) (cs : List Char) :
    unitLength (c :: cs) = units c + unitLength cs := rfl

@[simp] theorem unitLength_append (cs ds : List Char) :
    unitLength (cs ++ ds) = unitLength cs + unitLength ds := by
  induction cs with
  | nil => simp
  | cons c cs ih => rw [List.cons_append, unitLength_cons, unitLength_cons, ih, Nat.add_assoc]

theorem unitLength_replicate (n : Nat) (c : Char) :
    unitLength (List.replicate n c) = n * units c := by
  induction n with
  | zero => simp
  | succ n ih => rw [List.replicate_succ, unitLength_cons, ih, Nat.succ_mul, Nat.add_comm]

theorem units_le_utf8Size (c : Char) : units c ≤ c.utf8Size := by
  have hpos := c.utf8Size_pos
  rw [units]
  split
  · omega
  · next hlarge =>
    have hnot {n : UInt32} (hn : n.toNat < 0x10000) : ¬c.val ≤ n := fun hle =>
      hlarge (Nat.lt_of_le_of_lt (UInt32.le_iff_toNat_le.1 hle) hn)
    rw [Char.utf8Size, if_neg (hnot (by decide)), if_neg (hnot (by decide)),
      if_neg (hnot (by decide))]
    omega

theorem unitLength_le_byteLength (cs : List Char) : unitLength cs ≤ byteLength cs := by
  induction cs with
  | nil => exact Nat.le_refl 0
  | cons c cs ih => exact Nat.add_le_add (units_le_utf8Size c) ih

/-- Characters below 128 count one in every measure. -/
theorem measures_of_ascii {cs : List Char} (h : ∀ c ∈ cs, c.toNat < 128) :
    byteLength cs = cs.length ∧ unitLength cs = cs.length := by
  induction cs with
  | nil => exact ⟨rfl, rfl⟩
  | cons c cs ih =>
    rw [List.forall_mem_cons] at h
    obtain ⟨hbytes, hunits⟩ := ih h.2
    have hsize : c.utf8Size = 1 := by
      rw [← String.length_utf8EncodeChar, utf8EncodeChar_of_lt h.1, List.length_singleton]
    have hunit : units c = 1 := if_pos (by omega)
    rw [byteLength_cons, unitLength_cons, List.length_cons]
    omega

theorem charsBefore?_cons (c : Char) (cs : List Char) (b : Nat) :
    charsBefore? (c.utf8Size + b) (c :: cs) = (charsBefore? b cs).map (c :: ·) := by
  obtain ⟨n, hn⟩ := Nat.exists_eq_succ_of_ne_zero (Nat.ne_of_gt c.utf8Size_pos)
  rw [hn, Nat.succ_add, charsBefore?, if_pos (by omega)]
  congr 2
  omega

theorem charsBefore?_append (cs ds : List Char) :
    charsBefore? (byteLength cs) (cs ++ ds) = some cs := by
  induction cs with
  | nil => cases ds <;> rfl
  | cons c cs ih => rw [byteLength_cons, List.cons_append, charsBefore?_cons, ih, Option.map_some]

/-- The column of the place between two parts of a line that can be counted. -/
theorem unitsOfBytes_append {cs ds : List Char} (h : unitLength cs ≤ maxCount) :
    unitsOfBytes (cs ++ ds) (byteLength cs) = unitLength cs := by
  rw [unitsOfBytes, charsBefore?_append, Option.getD_some, clip_of_le h]

theorem units_pos (c : Char) : 0 < units c := by
  rw [units]
  split <;> omega

/-- An editor's column of the place between two parts of a line leads back to this place. -/
theorem bytesOfUnits_append (cs ds : List Char) :
    bytesOfUnits (cs ++ ds) (unitLength cs) = byteLength cs := by
  induction cs with
  | nil => cases ds <;> rfl
  | cons c cs ih =>
    obtain ⟨n, hn⟩ := Nat.exists_eq_succ_of_ne_zero (Nat.ne_of_gt (units_pos c))
    have hunits : units c + unitLength cs = n + unitLength cs + 1 := by omega
    have hrest : n + unitLength cs + 1 - units c = unitLength cs := by omega
    rw [unitLength_cons, hunits, List.cons_append, bytesOfUnits, hrest, ih, byteLength_cons]

/-- Of two beginnings of one text, the one with no more bytes is a beginning of the other. -/
theorem exists_append_of_byteLength_le {cs ds cs' ds' : List Char} (h : cs ++ cs' = ds ++ ds')
    (hle : byteLength cs ≤ byteLength ds) : ∃ middle, ds = cs ++ middle := by
  rcases List.append_eq_append_iff.1 h with ⟨middle, hds, -⟩ | ⟨middle, rfl, -⟩
  · exact ⟨middle, hds⟩
  · cases middle with
    | nil => exact ⟨[], by simp⟩
    | cons c middle =>
      have hpos := c.utf8Size_pos
      rw [byteLength_append, byteLength_cons] at hle
      omega

theorem byteLength_reverse (cs : List Char) : byteLength cs.reverse = byteLength cs := by
  induction cs with
  | nil => rfl
  | cons c cs ih =>
    rw [List.reverse_cons, byteLength_append, ih, byteLength_cons, byteLength_cons, byteLength_nil]
    omega

theorem byteLength_dropReturn_le (cs : List Char) : byteLength (dropReturn cs) ≤ byteLength cs := by
  fun_cases dropReturn cs with
  | case1 cs => simp
  | case2 => exact Nat.le_refl _

theorem byteLength_le_of_mem_go {line acc cs : List Char} (h : line ∈ lines.go acc cs) :
    byteLength line ≤ byteLength acc + byteLength cs := by
  fun_induction lines.go acc cs with
  | case1 acc hempty => simp at h
  | case2 acc hempty =>
    rw [List.mem_singleton] at h
    rw [h, byteLength_reverse]
    exact Nat.le_add_right _ _
  | case3 acc cs ih =>
    rw [byteLength_cons]
    rcases List.mem_cons.1 h with rfl | hlater
    · have := byteLength_dropReturn_le acc
      rw [byteLength_reverse]
      omega
    · have := ih hlater
      rw [byteLength_nil] at this
      omega
  | case4 acc c cs hc ih =>
    have := ih h
    rw [byteLength_cons] at this ⊢
    omega

theorem byteLength_le_of_mem_lines {line cs : List Char} (h : line ∈ lines cs) :
    byteLength line ≤ byteLength cs := by
  simpa using byteLength_le_of_mem_go h

theorem length_go_le (acc cs : List Char) :
    (lines.go acc cs).length ≤ byteLength acc + byteLength cs := by
  fun_induction lines.go acc cs with
  | case1 acc hempty => exact Nat.zero_le _
  | case2 acc hempty =>
    cases acc with
    | nil => exact absurd rfl hempty
    | cons c acc =>
      have := c.utf8Size_pos
      rw [List.length_singleton, byteLength_cons]
      omega
  | case3 acc cs ih =>
    have := Char.utf8Size_pos '\n'
    rw [byteLength_nil] at ih
    rw [List.length_cons, byteLength_cons]
    omega
  | case4 acc c cs hc ih =>
    rw [byteLength_cons] at ih ⊢
    omega

theorem length_lines_le (cs : List Char) : (lines cs).length ≤ byteLength cs := by
  simpa [lines] using length_go_le [] cs

/-- In a text that is not too long to count, no place in the code of a line is clipped. -/
theorem clipped_of_code {text : String} {row : List Char} {number offset : Nat}
    (hsize : text.utf8ByteSize < 2 ^ 32) (hrow : (lines text.toList)[number]? = some row)
    (hoffset : offset ≤ byteLength (Comment.before row)) :
    Position.clipped number offset = ⟨number, offset⟩ := by
  have hcount : byteLength text.toList ≤ maxCount := by
    rw [byteLength_toList]
    exact Nat.le_of_lt_succ hsize
  have hnumber : number < (lines text.toList).length := (List.getElem?_eq_some_iff.1 hrow).1
  have hlines := length_lines_le text.toList
  have hwhole := byteLength_le_of_mem_lines (List.mem_of_getElem? hrow)
  have hcode : byteLength (Comment.before row) ≤ byteLength row := byteLength_takeBytes_le _ _
  rw [Position.clipped, clip_of_le (by omega), clip_of_le (by omega)]

end ScriptIndex.Text

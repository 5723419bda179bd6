import Mathlib.Tactic.SplitIfs
import ScriptIndex.NameMap
import ScriptIndex.Proofs.Text.Bytes

/-!
# The order of texts

Texts are ordered by their characters. This is the order of their UTF-8 bytes: of two characters the
larger one has the larger first byte, or the same number of bytes and the larger one where they differ.
-/
namespace ScriptIndex.Text

theorem ofNat_lt_ofNat {m n : Nat} (hm : m < 256) (hn : n < 256) :
    UInt8.ofNat m < UInt8.ofNat n ↔ m < n := by
  rw [UInt8.lt_iff_toNat_lt, UInt8.toNat_ofNat', UInt8.toNat_ofNat']
  omega

theorem ofNat_eq_ofNat {m n : Nat} (hm : m < 256) (hn : n < 256) :
    UInt8.ofNat m = UInt8.ofNat n ↔ m = n := by
  rw [← UInt8.toNat_inj, UInt8.toNat_ofNat', UInt8.toNat_ofNat']
  omega

/-- Numbers are ordered by their digits to base 64, the first one that differs. -/
theorem digits_lt {m n : Nat} (h : m < n) :
    m / 262144 < n / 262144 ∨ m / 262144 = n / 262144 ∧
      (m / 4096 % 64 < n / 4096 % 64 ∨ m / 4096 % 64 = n / 4096 % 64 ∧
        (m / 64 % 64 < n / 64 % 64 ∨ m / 64 % 64 = n / 64 % 64 ∧ m % 64 < n % 64)) := by
  have hm : m = 262144 * (m / 262144) + 4096 * (m / 4096 % 64) + 64 * (m / 64 % 64) + m % 64 := by
    omega
  have hn : n = 262144 * (n / 262144) + 4096 * (n / 4096 % 64) + 64 * (n / 64 % 64) + n % 64 := by
    omega
  have hm₂ : m / 4096 % 64 < 64 := Nat.mod_lt _ (by decide)
  have hm₁ : m / 64 % 64 < 64 := Nat.mod_lt _ (by decide)
  have hm₀ : m % 64 < 64 := Nat.mod_lt _ (by decide)
  have hn₂ : n / 4096 % 64 < 64 := Nat.mod_lt _ (by decide)
  have hn₁ : n / 64 % 64 < 64 := Nat.mod_lt _ (by decide)
  have hn₀ : n % 64 < 64 := Nat.mod_lt _ (by decide)
  generalize m / 262144 = a, m / 4096 % 64 = b, m / 64 % 64 = c, m % 64 = d at *
  generalize n / 262144 = a', n / 4096 % 64 = b', n / 64 % 64 = c', n % 64 = d' at *
  omega

theorem utf8EncodeChar_append_lt {c d : Char} (h : c < d) (xs ys : List UInt8) :
    String.utf8EncodeChar c ++ xs < String.utf8EncodeChar d ++ ys := by
  have hlt : c.val.toNat < d.val.toNat := h
  have hd : d.val.toNat < 1114112 := by
    have := d.valid
    rcases this with h | h <;> omega
  simp only [String.utf8EncodeChar]
  generalize c.val.toNat = m at hlt ⊢
  generalize d.val.toNat = n at hlt hd ⊢
  have hdigits := digits_lt hlt
  have hm : m / 262144 % 8 = m / 262144 := Nat.mod_eq_of_lt (by omega)
  have hn : n / 262144 % 8 = n / 262144 := Nat.mod_eq_of_lt (by omega)
  split_ifs <;>
    simp (disch := omega) only [List.cons_append, List.nil_append, List.cons_lt_cons_iff,
      ofNat_lt_ofNat, ofNat_eq_ofNat, hm, hn] <;>
    omega

/-- Texts are in the order of their bytes. -/
theorem bytes_lt_of_lt {cs ds : List Char} (h : cs < ds) : bytes cs < bytes ds := by
  induction cs generalizing ds with
  | nil =>
    cases ds with
    | nil => exact absurd h (List.lt_irrefl _)
    | cons d ds =>
      have hne : String.utf8EncodeChar d ≠ [] := by
        intro hnil
        have := String.length_utf8EncodeChar d
        have hpos := d.utf8Size_pos
        rw [hnil, List.length_nil] at this
        omega
      obtain ⟨b, bs, hd⟩ := List.exists_cons_of_ne_nil hne
      rw [bytes_cons, hd]
      exact List.nil_lt_cons _ _
  | cons c cs ih =>
    cases ds with
    | nil => exact absurd h (List.not_lt_nil _)
    | cons d ds =>
      rw [bytes_cons, bytes_cons]
      rcases List.cons_lt_cons_iff.1 h with hlt | ⟨rfl, hlt⟩
      · exact utf8EncodeChar_append_lt hlt _ _
      · exact List.append_left_lt (ih hlt)

theorem bytes_lt_iff {s t : String} : bytes s.toList < bytes t.toList ↔ s < t := by
  constructor
  · intro h
    apply Decidable.byContradiction
    intro hnot
    by_cases heq : s = t
    · rw [heq] at h
      exact List.lt_irrefl _ h
    · have hlt : t < s := NameMap.lt_of_not_lt_of_ne hnot heq
      exact List.lt_asymm h (bytes_lt_of_lt (String.lt_iff.1 hlt))
  · intro h
    exact bytes_lt_of_lt (String.lt_iff.1 h)

end ScriptIndex.Text

import ScriptIndex.Proofs.Text.Bytes
import ScriptIndex.Url.Escape

/-!
# Escapes read back

A text that is written with escapes reads back as it was, as long as the percent sign is escaped too.
What is written for the name of a path segment is made of plain characters only, none of which means
anything to a reader of URLs.
-/
namespace ScriptIndex

namespace Url

open Text

theorem hexChar_toNat_lt {n : Nat} (h : n < 16) : (hexChar n).toNat < 128 := by
  revert n
  decide

theorem hexByte?_hexChar {n : Nat} (h : n < 16) :
    hexByte? (UInt8.ofNat (hexChar n).toNat) = some (UInt8.ofNat n) := by
  revert n
  decide

theorem unescape_cons_of_ne {b : UInt8} (h : b ≠ 0x25) (bs : List UInt8) :
    unescape (b :: bs) = b :: unescape bs := by
  match bs with
  | [] => rfl
  | [c] => rfl
  | c :: d :: rest => rw [unescape, if_neg h]

theorem unescape_escapeByte (b : UInt8) (bs : List UInt8) :
    unescape (bytes (escapeByte b) ++ bs) = b :: unescape bs := by
  have hb : b.toNat < 256 := b.toNat_lt
  have hhigh : b.toNat / 16 < 16 := by omega
  have hlow : b.toNat % 16 < 16 := by omega
  have hpercent : String.utf8EncodeChar '%' = [0x25] := by decide
  have hvalue : 16 * UInt8.ofNat (b.toNat / 16) + UInt8.ofNat (b.toNat % 16) = b := by
    apply UInt8.toNat_inj.1
    simp
    omega
  simp only [escapeByte, bytes_cons, bytes_nil, hpercent,
    utf8EncodeChar_of_lt (hexChar_toNat_lt hhigh), utf8EncodeChar_of_lt (hexChar_toNat_lt hlow),
    List.cons_append, List.nil_append]
  rw [unescape, if_pos rfl, hexByte?_hexChar hhigh, hexByte?_hexChar hlow]
  simp only [hvalue]

/-- Bytes that are written with escapes for the percent sign and for all bytes from 128 on. -/
theorem unescape_escapeBytes {set : UInt8 → Bool} (hpercent : set 0x25 = true)
    (hlow : ∀ b, set b = false → b.toNat < 128) (bs rest : List UInt8) :
    unescape (bytes (escapeBytes set bs) ++ rest) = bs ++ unescape rest := by
  induction bs with
  | nil => rfl
  | cons b bs ih =>
    rw [escapeBytes, List.flatMap_cons, bytes_append, List.append_assoc]
    change unescape (_ ++ (bytes (escapeBytes set bs) ++ rest)) = _
    by_cases hb : set b = true
    · rw [if_pos hb, unescape_escapeByte, ih]
      rfl
    · rw [Bool.not_eq_true] at hb
      have hne : b ≠ 0x25 := by
        rintro rfl
        rw [hpercent] at hb
        cases hb
      rw [hb, if_neg Bool.false_ne_true, bytes_cons, utf8EncodeChar_ofNat (hlow b hb),
        UInt8.ofNat_toNat]
      exact (unescape_cons_of_ne hne _).trans (congrArg (b :: ·) ih)

theorem toNat_lt_of_segmentSet {b : UInt8} (h : segmentSet b = false) : b.toNat < 128 := by
  simp only [segmentSet, pathSet, fragmentSet, controlSet, Bool.or_eq_false_iff,
    decide_eq_false_iff_not, ge_iff_le, UInt8.le_iff_toNat_le] at h
  have hhigh : ¬ (0x7F : UInt8).toNat ≤ b.toNat := h.1.1.1.2
  have hbound : (0x7F : UInt8).toNat = 127 := rfl
  omega

/-- The name of a path segment reads back. -/
theorem unescape_escape (cs : List Char) (rest : List UInt8) :
    unescape (bytes (escape segmentSet cs) ++ rest) = bytes cs ++ unescape rest :=
  unescape_escapeBytes (by decide) (fun _ => toNat_lt_of_segmentSet) (bytes cs) rest

/-- A character below 128 that is the percent sign or stands for itself in a path segment. -/
def isPlain (c : Char) : Bool :=
  c.toNat < 128 && (c == '%' || !segmentSet (UInt8.ofNat c.toNat))

theorem isPlain_hexChar {n : Nat} (h : n < 16) : isPlain (hexChar n) = true := by
  revert n
  decide

theorem isPlain_ofNat {n : Nat} (h : n < 128) (hset : segmentSet (UInt8.ofNat n) = false) :
    isPlain (Char.ofNat n) = true := by
  revert n
  decide

theorem isPlain_of_mem_escape {cs : List Char} {c : Char} (h : c ∈ escape segmentSet cs) :
    isPlain c = true := by
  rw [escape, escapeBytes, List.mem_flatMap] at h
  obtain ⟨b, -, hc⟩ := h
  have hb : b.toNat < 256 := b.toNat_lt
  by_cases hset : segmentSet b = true
  · rw [if_pos hset, escapeByte] at hc
    simp only [List.mem_cons, List.not_mem_nil, or_false] at hc
    rcases hc with rfl | rfl | rfl
    · decide
    · exact isPlain_hexChar (by omega)
    · exact isPlain_hexChar (by omega)
  · rw [if_neg hset, List.mem_singleton] at hc
    rw [Bool.not_eq_true] at hset
    subst hc
    apply isPlain_ofNat (toNat_lt_of_segmentSet hset)
    rw [UInt8.ofNat_toNat]
    exact hset

theorem toNat_lt_of_isPlain {c : Char} (h : isPlain c = true) : c.toNat < 128 := by
  rw [isPlain, Bool.and_eq_true, decide_eq_true_eq] at h
  exact h.1

/-- No character that means something in a file URL is plain. -/
theorem ne_of_isPlain {c d : Char} (h : isPlain c = true) (hd : isPlain d = false) : c ≠ d := by
  rintro rfl
  rw [hd] at h
  cases h

theorem pathSet_of_isPlain {c : Char} (h : isPlain c = true) :
    pathSet (UInt8.ofNat c.toNat) = false := by
  have hlt := toNat_lt_of_isPlain h
  have hall : ∀ n : Nat, n < 128 → isPlain (Char.ofNat n) = true →
      pathSet (UInt8.ofNat n) = false := by decide
  apply hall c.toNat hlt
  rw [Char.ofNat_toNat]
  exact h

theorem lt_toNat_of_isPlain {c : Char} (h : isPlain c = true) : 0x20 < c.toNat := by
  have hlt := toNat_lt_of_isPlain h
  have hall : ∀ n : Nat, n < 128 → isPlain (Char.ofNat n) = true → 0x20 < n := by decide
  apply hall c.toNat hlt
  rw [Char.ofNat_toNat]
  exact h

theorem escape_eq_self {set : UInt8 → Bool} {cs : List Char}
    (h : ∀ c ∈ cs, c.toNat < 128 ∧ set (UInt8.ofNat c.toNat) = false) : escape set cs = cs := by
  induction cs with
  | nil => rfl
  | cons c cs ih =>
    obtain ⟨hlt, hset⟩ := h c List.mem_cons_self
    have hcs := ih fun d hd => h d (List.mem_cons_of_mem _ hd)
    have hmod : c.toNat % 2 ^ 8 = c.toNat := Nat.mod_eq_of_lt (by omega)
    rw [escape, bytes_cons, utf8EncodeChar_of_lt hlt, escapeBytes, List.flatMap_append]
    change _ ++ escape set cs = _
    rw [hcs, List.flatMap_singleton, hset, if_neg Bool.false_ne_true, UInt8.toNat_ofNat', hmod,
      Char.ofNat_toNat]
    rfl

/-- Plain characters are written as they are when a path is read. -/
theorem escape_of_isPlain {cs : List Char} (h : ∀ c ∈ cs, isPlain c = true) :
    escape pathSet cs = cs :=
  escape_eq_self fun c hc => ⟨toNat_lt_of_isPlain (h c hc), pathSet_of_isPlain (h c hc)⟩

end Url
end ScriptIndex

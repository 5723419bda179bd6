import Mathlib.Data.List.TakeWhile
import ScriptIndex.Proofs.Text.Bytes
import ScriptIndex.Text.Blank
import ScriptIndex.Text.Word

/-!
# Runs of word bytes and of word characters

A run of word bytes is longest when no word byte stands before it or after it. Word bytes are ASCII
characters, and a character is a word character of this kind exactly when its byte is a word byte. So
a longest run of word characters whose characters are all ASCII is a longest run of word bytes. No
blank is a word character.
-/
namespace ScriptIndex.Text

theorem toNat_lt_of_isWordByte {b : UInt8} (h : isWordByte b = true) : b.toNat < 128 := by
  simp only [isWordByte, isWordStartByte, Bool.or_eq_true, Bool.and_eq_true, decide_eq_true_eq,
    UInt8.le_iff_toNat_le, beq_iff_eq] at h
  rcases h with ((⟨-, h⟩ | ⟨-, h⟩) | rfl) | ⟨-, h⟩
  · exact Nat.lt_of_le_of_lt h (by decide)
  · exact Nat.lt_of_le_of_lt h (by decide)
  · decide
  · exact Nat.lt_of_le_of_lt h (by decide)

/-- A word byte starts a word unless it is a digit. -/
theorem isWordStartByte_iff {b : UInt8} (h : isWordByte b = true) :
    isWordStartByte b = true ↔ ¬(0x30 ≤ b ∧ b ≤ 0x39) := by
  simp only [isWordByte, isWordStartByte, Bool.or_eq_true, Bool.and_eq_true, decide_eq_true_eq,
    beq_iff_eq, UInt8.le_iff_toNat_le, ← UInt8.toNat_inj, UInt8.reduceToNat] at h ⊢
  omega

/-- The text is a longest run of word bytes where it stands. -/
structure WordRun (front text rest : List UInt8) : Prop where
  word : ∀ b ∈ text, isWordByte b = true
  before : ∀ b ∈ front.getLast?, isWordByte b = false
  after : ∀ b ∈ rest.head?, isWordByte b = false

/-- A longest run stays one when the bytes behind it are cut off. -/
theorem WordRun.take {front text rest : List UInt8} (h : WordRun front text rest) (n : Nat) :
    WordRun front text (rest.take n) := by
  refine ⟨h.word, h.before, fun b hb => h.after b ?_⟩
  rw [List.head?_take] at hb
  split at hb
  · cases hb
  · exact hb

section Split

variable {α : Type} {p : α → Bool} {text rest : List α}

theorem takeWhile_append_rest (htext : ∀ a ∈ text, p a = true)
    (hrest : ∀ a ∈ rest.head?, p a = false) : (text ++ rest).takeWhile p = text := by
  rw [List.takeWhile_append_of_pos htext]
  cases rest with
  | nil => simp
  | cons a rest => simp [hrest a rfl]

theorem dropWhile_append_rest (htext : ∀ a ∈ text, p a = true)
    (hrest : ∀ a ∈ rest.head?, p a = false) : (text ++ rest).dropWhile p = rest := by
  have hsplit := List.takeWhile_append_dropWhile (p := p) (l := text ++ rest)
  rw [takeWhile_append_rest htext hrest] at hsplit
  exact List.append_cancel_left hsplit

theorem of_mem_head?_dropWhile {cs : List α} : ∀ a ∈ (cs.dropWhile p).head?, p a = false := by
  intro a ha
  have hhead := List.head?_dropWhile_not p cs
  rw [Option.mem_def.1 ha] at hhead
  simpa using hhead

theorem of_mem_head?_append {P : α → Prop} {xs : List α} (hne : xs ≠ []) (h : ∀ a ∈ xs, P a)
    (ys : List α) : ∀ a ∈ (xs ++ ys).head?, P a := by
  rw [List.head?_append, List.head?_eq_some_head hne, Option.some_or]
  simpa using h _ (List.head_mem hne)

theorem of_mem_getLast?_append {P : α → Prop} (xs : List α) {ys : List α} (hne : ys ≠ [])
    (h : ∀ a ∈ ys, P a) : ∀ a ∈ (xs ++ ys).getLast?, P a := by
  rw [List.getLast?_append, List.getLast?_eq_some_getLast hne, Option.some_or]
  simpa using h _ (List.getLast_mem hne)

end Split

theorem isWordByte_ofNat {n : Nat} (h : n < 128) :
    isWordByte (UInt8.ofNat n) = isAsciiWord (Char.ofNat n) := by
  revert n
  decide +kernel

theorem toNat_lt_of_isAsciiWord {c : Char} (h : isAsciiWord c = true) : c.toNat < 128 := by
  simp only [isAsciiWord, Bool.or_eq_true, Bool.and_eq_true, decide_eq_true_eq, beq_iff_eq] at h
  omega

theorem isWordByte_of_mem_bytes {cs : List Char} (h : ∀ c ∈ cs, isAsciiWord c = true) :
    ∀ b ∈ bytes cs, isWordByte b = true := by
  intro b hb
  obtain ⟨c, hc, hmem⟩ := List.mem_flatMap.1 hb
  have hsmall := toNat_lt_of_isAsciiWord (h c hc)
  rw [utf8EncodeChar_of_lt hsmall, List.mem_singleton] at hmem
  rw [hmem, isWordByte_ofNat hsmall, Char.ofNat_toNat, h c hc]

/-- A last byte is no word byte when the last character is no word character. -/
theorem isWordByte_of_getLast? {cs : List Char} (h : ∀ c ∈ cs.getLast?, isAsciiWord c = false) :
    ∀ b ∈ (bytes cs).getLast?, isWordByte b = false := by
  intro b hb
  cases hword : isWordByte b with
  | false => rfl
  | true =>
    have hsmall := toNat_lt_of_isWordByte hword
    obtain ⟨front, hfront⟩ := List.getLast?_eq_some_iff.1 hb
    obtain ⟨init, rfl, -⟩ := exists_last_char hfront hsmall
    have hlast := h (Char.ofNat b.toNat) (by simp)
    rwa [← isWordByte_ofNat hsmall, UInt8.ofNat_toNat, hword] at hlast

/-- A first byte is no word byte when the first character is no word character. -/
theorem isWordByte_of_head? {cs : List Char} (h : ∀ c ∈ cs.head?, isAsciiWord c = false) :
    ∀ b ∈ (bytes cs).head?, isWordByte b = false := by
  intro b hb
  cases hword : isWordByte b with
  | false => rfl
  | true =>
    have hsmall := toNat_lt_of_isWordByte hword
    obtain ⟨rest, hrest⟩ := List.head?_eq_some_iff.1 hb
    obtain ⟨after, rfl, -⟩ := exists_first_char hrest hsmall
    have hfirst := h (Char.ofNat b.toNat) (by simp)
    rwa [← isWordByte_ofNat hsmall, UInt8.ofNat_toNat, hword] at hfirst

/-- Every blank, by its code point. -/
theorem isWordChar_of_isBlank {c : Char} (h : isBlank c = true) : isWordChar c = false := by
  let blanks := List.range' 9 5 ++ List.range' 0x2000 11 ++
    [0x20, 0x85, 0xA0, 0x1680, 0x2028, 0x2029, 0x202F, 0x205F, 0x3000]
  have hword : ∀ n ∈ blanks, isWordChar (Char.ofNat n) = false := by decide +kernel
  have hmem : c.toNat ∈ blanks := by
    simp only [isBlank, Bool.or_eq_true, Bool.and_eq_true, decide_eq_true_eq, beq_iff_eq] at h
    simp only [blanks, List.mem_append, List.mem_range'_1, List.mem_cons, List.not_mem_nil]
    omega
  have hc := hword c.toNat hmem
  rwa [Char.ofNat_toNat] at hc

theorem isBlank_of_isWordChar {c : Char} (h : isWordChar c = true) : isBlank c = false := by
  cases hblank : isBlank c with
  | false => rfl
  | true => rw [← h, isWordChar_of_isBlank hblank]

/-- A name is a longest run of word characters where it stands. -/
structure NameRun (front name rest : List Char) : Prop where
  ne_nil : name ≠ []
  word : ∀ c ∈ name, isWordChar c = true
  before : ∀ c ∈ front.getLast?, isWordChar c = false
  after : ∀ c ∈ rest.head?, isWordChar c = false

/-- A name stands in a text after a number of bytes, as a longest run of word characters. -/
def NamedAt (cs : List Char) (offset : Nat) (name : List Char) : Prop :=
  ∃ front rest, cs = front ++ (name ++ rest) ∧ byteLength front = offset ∧ NameRun front name rest

theorem NamedAt.le_byteLength {cs name : List Char} {offset : Nat} (h : NamedAt cs offset name) :
    offset + byteLength name ≤ byteLength cs := by
  obtain ⟨front, rest, rfl, rfl, -⟩ := h
  simp only [byteLength_append]
  omega

theorem isAsciiWord_eq_false {c : Char} (h : isWordChar c = false) : isAsciiWord c = false := by
  cases hword : isAsciiWord c with
  | false => rfl
  | true => rwa [isWordChar, if_pos (toNat_lt_of_isAsciiWord hword), hword] at h

/-- A name in ASCII is a longest run for the bytes too, whatever characters stand around it. -/
theorem NameRun.wordRun {front name rest : List Char} (h : NameRun front name rest)
    (hascii : ∀ c ∈ name, c.toNat < 128) : WordRun (bytes front) (bytes name) (bytes rest) where
  word := by
    apply isWordByte_of_mem_bytes
    intro c hc
    have hword := h.word c hc
    rwa [isWordChar, if_pos (hascii c hc)] at hword
  before := isWordByte_of_getLast? fun c hc => isAsciiWord_eq_false (h.before c hc)
  after := isWordByte_of_head? fun c hc => isAsciiWord_eq_false (h.after c hc)

end ScriptIndex.Text

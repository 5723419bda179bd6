import ScriptIndex.Text.Bytes

/-!
# Bytes and characters

The bytes of a text determine its characters. A byte below 128 is always a character of its own, so a
run of such bytes is found between two characters of the text and never inside one.
-/
namespace ScriptIndex.Text

theorem decode?_bytes (cs : List Char) : decode? (bytes cs) = some (String.ofList cs) := by
  have hbytes : (⟨(bytes cs).toArray⟩ : ByteArray) = cs.utf8Encode := by
    apply ByteArray.ext
    simp [bytes, List.utf8Encode]
  rw [decode?, hbytes, String.fromUTF8?, dif_pos ByteArray.isValidUTF8_utf8Encode]
  congr 1

theorem bytes_of_decode? {bs : List UInt8} {text : String} (h : decode? bs = some text) :
    bytes text.toList = bs := by
  have hencoded : text.toList.utf8Encode = ⟨bs.toArray⟩ := by
    rw [decode?, String.fromUTF8?] at h
    split at h
    · rw [String.utf8Encode_toList, ← Option.some.inj h]
      rfl
    · cases h
  have hbytes := congrArg (fun array : ByteArray => array.data.toList) hencoded
  simpa [bytes, List.utf8Encode] using hbytes

theorem bytes_inj {cs ds : List Char} (h : bytes cs = bytes ds) : cs = ds := by
  have hdecoded := decode?_bytes cs
  rw [h, decode?_bytes ds] at hdecoded
  exact (String.ofList_injective (Option.some.inj hdecoded)).symm

theorem byteLength_pos {cs : List Char} (h : cs ≠ []) : 0 < byteLength cs := by
  obtain ⟨c, cs, rfl⟩ := List.exists_cons_of_ne_nil h
  have := c.utf8Size_pos
  rw [byteLength_cons]
  omega

theorem byteLength_toList (s : String) : byteLength s.toList = s.utf8ByteSize := by
  rw [← length_bytes, String.utf8ByteSize, ← String.utf8Encode_toList]
  simp [bytes, List.utf8Encode]

/-- Below the largest count that is reported, clipping a count makes no difference. -/
theorem clip_lt_iff {n : Nat} (h : n ≤ maxCount) (i : Nat) : clip i < n ↔ i < n := by
  rw [clip]
  omega

theorem toNat_ofNat {n : Nat} (h : n < 128) : (Char.ofNat n).toNat = n := by
  revert n
  decide

theorem utf8EncodeChar_ofNat {n : Nat} (h : n < 128) :
    String.utf8EncodeChar (Char.ofNat n) = [UInt8.ofNat n] := by
  revert n
  decide

theorem utf8EncodeChar_of_lt {c : Char} (h : c.toNat < 128) :
    String.utf8EncodeChar c = [UInt8.ofNat c.toNat] := by
  have hc := utf8EncodeChar_ofNat h
  rw [Char.ofNat_toNat] at hc
  exact hc

/-- No byte of a character from 128 on is a character on its own. -/
theorem le_of_mem_utf8EncodeChar {c : Char} (hc : 128 ≤ c.toNat) {b : UInt8}
    (hb : b ∈ String.utf8EncodeChar c) : 128 ≤ b.toNat := by
  have hmark {n : Nat} (hlow : 128 ≤ n) (hhigh : n < 256) : 128 ≤ (UInt8.ofNat n).toNat := by
    rw [UInt8.toNat_ofNat']
    omega
  have hascii : ¬c.val.toNat ≤ 127 := Nat.not_le.2 hc
  simp only [String.utf8EncodeChar, hascii, if_false] at hb
  split at hb
  · simp only [List.mem_cons, List.not_mem_nil, or_false] at hb
    rcases hb with rfl | rfl <;> exact hmark (by omega) (by omega)
  · split at hb
    · simp only [List.mem_cons, List.not_mem_nil, or_false] at hb
      rcases hb with rfl | rfl | rfl <;> exact hmark (by omega) (by omega)
    · simp only [List.mem_cons, List.not_mem_nil, or_false] at hb
      rcases hb with rfl | rfl | rfl | rfl <;> exact hmark (by omega) (by omega)

/-- The first byte of a character, and the others, which are no characters on their own. -/
theorem utf8EncodeChar_eq_cons (c : Char) : ∃ b others, String.utf8EncodeChar c = b :: others ∧
    (∀ a ∈ others, 128 ≤ a.toNat) ∧ others.length + 1 = c.utf8Size := by
  have hsize := String.length_utf8EncodeChar c
  have hne : String.utf8EncodeChar c ≠ [] := by
    rw [← List.length_pos_iff, hsize]
    exact c.utf8Size_pos
  obtain ⟨b, others, hbytes⟩ := List.exists_cons_of_ne_nil hne
  refine ⟨b, others, hbytes, ?_, by rw [← hsize, hbytes, List.length_cons]⟩
  intro a ha
  by_cases hc : c.toNat < 128
  · rw [utf8EncodeChar_of_lt hc, List.cons.injEq] at hbytes
    rw [← hbytes.2] at ha
    cases ha
  · apply le_of_mem_utf8EncodeChar (Nat.not_lt.1 hc)
    rw [hbytes]
    exact List.mem_cons_of_mem b ha

/-- A byte below 128 is a character of the text. -/
theorem exists_split_at_byte {cs : List Char} {front rest : List UInt8} {b : UInt8}
    (h : bytes cs = front ++ b :: rest) (hb : b.toNat < 128) : ∃ before after,
      cs = before ++ Char.ofNat b.toNat :: after ∧ bytes before = front ∧ bytes after = rest := by
  induction cs generalizing front with
  | nil => simp at h
  | cons c cs ih =>
    have later (gap : List UInt8) (hgap : front = String.utf8EncodeChar c ++ gap)
        (hcs : bytes cs = gap ++ b :: rest) : ∃ before after,
          c :: cs = before ++ Char.ofNat b.toNat :: after ∧ bytes before = front ∧
            bytes after = rest := by
      obtain ⟨before, after, rfl, rfl, hafter⟩ := ih hcs
      exact ⟨c :: before, after, rfl, hgap.symm, hafter⟩
    rw [bytes_cons, List.append_eq_append_iff] at h
    rcases h with ⟨gap, hfront, hcs⟩ | ⟨tail, hc, hrest⟩
    · exact later gap hfront hcs
    · cases tail with
      | nil =>
        rw [List.append_nil] at hc
        exact later [] (by rw [hc, List.append_nil]) hrest.symm
      | cons b' tail =>
        obtain ⟨rfl, rfl⟩ := List.cons.inj hrest
        have hmem : b ∈ String.utf8EncodeChar c := hc ▸ List.mem_append_right front List.mem_cons_self
        have hsmall : c.toNat < 128 := Nat.lt_of_not_le fun hlarge =>
          Nat.not_le.2 hb (le_of_mem_utf8EncodeChar hlarge hmem)
        rw [utf8EncodeChar_of_lt hsmall, List.singleton_eq_append_iff] at hc
        simp only [List.cons_ne_nil, and_false, or_false, List.cons.injEq] at hc
        obtain ⟨rfl, rfl, rfl⟩ := hc
        refine ⟨[], cs, ?_, rfl, rfl⟩
        rw [UInt8.toNat_ofNat', Nat.mod_eq_of_lt (by omega), Char.ofNat_toNat, List.nil_append]

/-- A byte below 128 occurs as often as its character. -/
theorem count_bytes {b : UInt8} (hb : b.toNat < 128) (cs : List Char) :
    (bytes cs).count b = cs.count (Char.ofNat b.toNat) := by
  induction cs with
  | nil => rfl
  | cons c cs ih =>
    have hchar : (String.utf8EncodeChar c).count b = if c = Char.ofNat b.toNat then 1 else 0 := by
      by_cases hc : c.toNat < 128
      · have hsame : UInt8.ofNat c.toNat = b ↔ c = Char.ofNat b.toNat := by
          constructor
          · rintro rfl
            rw [UInt8.toNat_ofNat', Nat.mod_eq_of_lt (by omega), Char.ofNat_toNat]
          · rintro rfl
            rw [toNat_ofNat hb, UInt8.ofNat_toNat]
        rw [utf8EncodeChar_of_lt hc, List.count_singleton]
        simp [hsame]
      · have hlarge : c ≠ Char.ofNat b.toNat := by
          rintro rfl
          rw [toNat_ofNat hb] at hc
          exact hc hb
        rw [if_neg hlarge, List.count_eq_zero]
        intro hmem
        have := le_of_mem_utf8EncodeChar (Nat.not_lt.1 hc) hmem
        omega
    rw [bytes_cons, List.count_append, hchar, ih, List.count_cons, Nat.add_comm]
    simp

/-- A first byte that is a character on its own is the first character. -/
theorem exists_first_char {cs : List Char} {bs : List UInt8} {b : UInt8} (h : bytes cs = b :: bs)
    (hb : b.toNat < 128) : ∃ rest, cs = Char.ofNat b.toNat :: rest ∧ bytes rest = bs := by
  have hsplit : bytes cs = [] ++ b :: bs := h
  obtain ⟨before, rest, hcs, hbefore, hrest⟩ := exists_split_at_byte hsplit hb
  cases bytes_inj (hbefore.trans bytes_nil.symm)
  exact ⟨rest, hcs, hrest⟩

/-- A last byte that is a character on its own is the last character. -/
theorem exists_last_char {cs : List Char} {bs : List UInt8} {b : UInt8} (h : bytes cs = bs ++ [b])
    (hb : b.toNat < 128) : ∃ init, cs = init ++ [Char.ofNat b.toNat] ∧ bytes init = bs := by
  obtain ⟨init, after, hcs, hinit, hafter⟩ := exists_split_at_byte h hb
  cases bytes_inj (hafter.trans bytes_nil.symm)
  exact ⟨init, hcs, hinit⟩

@[simp] theorem toList_ofAscii (bs : List UInt8) :
    (ofAscii bs).toList = bs.map fun b => Char.ofNat b.toNat := by
  rw [ofAscii, String.toList_ofList]

theorem ofAscii_eq_empty_iff (bs : List UInt8) : ofAscii bs = "" ↔ bs = [] := by
  rw [← String.toList_inj, toList_ofAscii]
  simp

theorem bytes_ofAscii {bs : List UInt8} (h : ∀ b ∈ bs, b.toNat < 128) :
    bytes (ofAscii bs).toList = bs := by
  rw [toList_ofAscii]
  induction bs with
  | nil => rfl
  | cons b bs ih =>
    rw [List.forall_mem_cons] at h
    rw [List.map_cons, bytes_cons, utf8EncodeChar_ofNat h.1, ih h.2, UInt8.ofNat_toNat]
    rfl

theorem ofAscii_bytes {s : String} (h : ∀ b ∈ bytes s.toList, b.toNat < 128) :
    ofAscii (bytes s.toList) = s :=
  String.toList_inj.1 (bytes_inj (bytes_ofAscii h))

theorem exists_split_after_ascii {cs : List Char} {text rest : List UInt8}
    (h : bytes cs = text ++ rest) (hascii : ∀ b ∈ text, b.toNat < 128) :
    ∃ after, cs = (ofAscii text).toList ++ after ∧ bytes after = rest := by
  induction text generalizing cs with
  | nil => exact ⟨cs, by simp, h⟩
  | cons b text ih =>
    rw [List.forall_mem_cons] at hascii
    obtain ⟨middle, rfl, hmiddle⟩ := exists_first_char h hascii.1
    obtain ⟨after, rfl, hafter⟩ := ih hmiddle hascii.2
    exact ⟨after, by simp, hafter⟩

/-- A run of bytes below 128 is a run of characters of the text. -/
theorem exists_split_at_ascii {cs : List Char} {front text rest : List UInt8}
    (h : bytes cs = front ++ (text ++ rest)) (htext : text ≠ [])
    (hascii : ∀ b ∈ text, b.toNat < 128) : ∃ before after,
      cs = before ++ (ofAscii text).toList ++ after ∧ bytes before = front ∧ bytes after = rest := by
  cases text with
  | nil => exact absurd rfl htext
  | cons b text =>
    rw [List.forall_mem_cons] at hascii
    obtain ⟨before, middle, rfl, hbefore, hmiddle⟩ := exists_split_at_byte h hascii.1
    obtain ⟨after, rfl, hafter⟩ := exists_split_after_ascii hmiddle hascii.2
    exact ⟨before, after, by simp, hbefore, hafter⟩

theorem takeBytes_isPrefix (n : Nat) (cs : List Char) : takeBytes n cs <+: cs := by
  fun_induction takeBytes n cs with
  | case1 => exact List.prefix_rfl
  | case2 n c cs hsize ih => exact (List.prefix_cons_inj c).2 ih
  | case3 => exact List.nil_prefix

theorem byteLength_takeBytes_le (n : Nat) (cs : List Char) :
    byteLength (takeBytes n cs) ≤ byteLength cs := by
  obtain ⟨rest, hrest⟩ := takeBytes_isPrefix n cs
  rw [← congrArg byteLength hrest, byteLength_append]
  exact Nat.le_add_right _ _

theorem byteLength_replicate (n : Nat) (c : Char) :
    byteLength (List.replicate n c) = n * c.utf8Size := by
  induction n with
  | zero => simp
  | succ n ih => rw [List.replicate_succ, byteLength_cons, ih, Nat.succ_mul, Nat.add_comm]

theorem takeBytes_append (cs ds : List Char) : takeBytes (byteLength cs) (cs ++ ds) =
    cs ++ takeBytes 0 ds := by
  induction cs with
  | nil => rfl
  | cons c cs ih => simp [takeBytes, ih]

theorem takeBytes_zero (cs : List Char) : takeBytes 0 cs = [] := by
  cases cs with
  | nil => rfl
  | cons c cs =>
    have hpos := c.utf8Size_pos
    simp only [takeBytes]
    rw [if_neg (by omega)]

theorem takeBytes_byteLength (cs ds : List Char) : takeBytes (byteLength cs) (cs ++ ds) = cs := by
  simp [takeBytes_append, takeBytes_zero]

/-- The bytes of a part of a text stand between its two ends. -/
theorem extract_bytes (front middle rest : List Char) :
    (bytes (front ++ (middle ++ rest))).extract (byteLength front)
      (byteLength front + byteLength middle) = bytes middle := by
  simp [List.extract_eq_take_drop, ← length_bytes]

/-- What is taken is followed by a character that has no place any more. -/
theorem eq_byteLength_of_takeBytes {n : Nat} {cs ds : List Char} {d : Char}
    (h : takeBytes n (cs ++ d :: ds) = cs) (hd : d.utf8Size = 1) : n = byteLength cs := by
  induction cs generalizing n with
  | nil =>
    by_cases hn : d.utf8Size ≤ n
    · simp [takeBytes, hn] at h
    · simp only [byteLength_nil]
      omega
  | cons c cs ih =>
    by_cases hn : c.utf8Size ≤ n
    · simp only [List.cons_append, takeBytes, hn, if_true, List.cons.injEq, true_and] at h
      have hrest := ih h
      simp only [byteLength_cons]
      omega
    · simp [takeBytes, hn] at h

end ScriptIndex.Text

import Mathlib.Order.Bounds.Basic
import ScriptIndex.Comment
import ScriptIndex.Proofs.Text.Bytes

/-!
# Escaped characters

A backslash escapes the character after it, unless it is escaped itself. The code of a line ends before
the first marker that is not escaped, or with the line. The comment is searched for by bytes, and behind a
backslash only the first byte of the escaped character is skipped. None of its other bytes can be taken
for a backslash or for a marker, and so the search stops where the rule on characters says.
-/
namespace ScriptIndex.Comment

open Text

/-- The two ways to start a comment. -/
inductive Marker where
  | hash
  | slashes
  deriving DecidableEq

def Marker.chars : Marker → List Char
  | hash => ['#']
  | slashes => ['/', '/']

def isEscaped (cs : List Char) : Nat → Bool
  | 0 => false
  | i + 1 => cs[i]? == some '\\' && !isEscaped cs i

/-- A marker that is not escaped starts at character `i` of a line. -/
def MarkerAt (line : List Char) (i : Nat) : Prop :=
  isEscaped line i = false ∧ ∃ marker : Marker, marker.chars <+: line.drop i

/-- Where the code of a line could end. -/
def codeEnds (line : List Char) : Set Nat := {i | i = line.length ∨ MarkerAt line i}

theorem isEscaped_append_of_le (front rest : List Char) {i : Nat} (h : i ≤ front.length) :
    isEscaped (front ++ rest) i = isEscaped front i := by
  induction i with
  | zero => rfl
  | succ i ih => rw [isEscaped, isEscaped, ih (Nat.le_of_lt h), List.getElem?_append_left h]

/-- Behind a part that ends with no escape, characters are escaped as if they stood alone. -/
theorem isEscaped_append {front : List Char} (h : isEscaped front front.length = false)
    (rest : List Char) (i : Nat) : isEscaped (front ++ rest) (front.length + i) = isEscaped rest i := by
  induction i with
  | zero => exact (isEscaped_append_of_le front rest (Nat.le_refl _)).trans h
  | succ i ih =>
    rw [← Nat.add_assoc, isEscaped, isEscaped, ih, List.getElem?_append_right (Nat.le_add_right _ _),
      Nat.add_sub_cancel_left]

theorem markerAt_append_iff {front : List Char} (h : isEscaped front front.length = false)
    (rest : List Char) (i : Nat) : MarkerAt (front ++ rest) (front.length + i) ↔ MarkerAt rest i := by
  have hdrop : (front ++ rest).drop (front.length + i) = rest.drop i := by
    rw [← List.drop_drop, List.drop_left]
  rw [MarkerAt, MarkerAt, isEscaped_append h, hdrop]

theorem exists_marker_iff (c : Char) (cs : List Char) :
    (∃ marker : Marker, marker.chars <+: c :: cs) ↔ c = '#' ∨ c = '/' ∧ cs.head? = some '/' := by
  constructor
  · rintro ⟨marker, rest, hline⟩
    cases marker with
    | hash => exact .inl (List.cons.inj hline).1.symm
    | slashes =>
      obtain ⟨rfl, rfl⟩ := List.cons.inj hline
      exact .inr ⟨rfl, rfl⟩
  · rintro (rfl | ⟨rfl, hslash⟩)
    · exact ⟨.hash, cs, rfl⟩
    · obtain ⟨rest, rfl⟩ := List.head?_eq_some_iff.1 hslash
      exact ⟨.slashes, rest, rfl⟩

/-- A marker that is there stays there when the line goes on. -/
theorem MarkerAt.append {front : List Char} {i : Nat} (h : MarkerAt front i) (rest : List Char) :
    MarkerAt (front ++ rest) i := by
  obtain ⟨hescape, marker, hmarker⟩ := h
  have hle : i ≤ front.length := by
    by_contra hlong
    rw [List.drop_eq_nil_of_le (by omega), List.prefix_nil] at hmarker
    cases marker <;> cases hmarker
  refine ⟨(isEscaped_append_of_le front rest hle).trans hescape, marker, ?_⟩
  rw [List.drop_append_of_le_length hle]
  exact hmarker.trans (List.prefix_append _ _)

def codeLength : List Char → Nat
  | [] => 0
  | [c] => if c = '#' then 0 else 1
  | c :: d :: cs =>
    if c = '\\' then codeLength cs + 2
    else if c = '#' then 0
    else if c = '/' ∧ d = '/' then 0
    else codeLength (d :: cs) + 1

theorem isLeast_codeEnds_zero {line : List Char} (h : ∃ marker : Marker, marker.chars <+: line) :
    IsLeast (codeEnds line) 0 :=
  ⟨.inr ⟨rfl, h⟩, fun _ _ => Nat.zero_le _⟩

theorem isLeast_codeEnds_length {line : List Char} (h : ∀ i < line.length, ¬MarkerAt line i) :
    IsLeast (codeEnds line) line.length := by
  refine ⟨.inl rfl, ?_⟩
  rintro i (rfl | hmarker)
  · exact Nat.le_refl _
  · exact Nat.le_of_not_lt fun hlt => h i hlt hmarker

/-- A part without a marker in it moves the end of the code by its length. -/
theorem isLeast_codeEnds_append {front rest : List Char} {n : Nat}
    (hescape : isEscaped front front.length = false)
    (hfront : ∀ i < front.length, ¬MarkerAt (front ++ rest) i) (h : IsLeast (codeEnds rest) n) :
    IsLeast (codeEnds (front ++ rest)) (front.length + n) := by
  constructor
  · rcases h.1 with rfl | hmarker
    · exact .inl List.length_append.symm
    · exact .inr ((markerAt_append_iff hescape rest n).2 hmarker)
  · rintro i (rfl | hmarker)
    · rw [List.length_append]
      exact Nat.add_le_add_left (h.2 (.inl rfl)) _
    · have hlong : front.length ≤ i := Nat.le_of_not_lt fun hlt => hfront i hlt hmarker
      obtain ⟨k, rfl⟩ := Nat.exists_eq_add_of_le hlong
      exact Nat.add_le_add_left (h.2 (.inr ((markerAt_append_iff hescape rest k).1 hmarker))) _

theorem not_markerAt_of_lt_one {c : Char} {cs : List Char} (hhash : c ≠ '#')
    (hslash : ¬(c = '/' ∧ cs.head? = some '/')) {i : Nat} (hi : i < 1) : ¬MarkerAt (c :: cs) i := by
  cases Nat.lt_one_iff.1 hi
  rintro ⟨-, hmarker⟩
  exact ((exists_marker_iff c cs).1 hmarker).elim hhash hslash

theorem not_markerAt_of_lt_two {c : Char} {cs : List Char} {i : Nat} (hi : i < 2) :
    ¬MarkerAt ('\\' :: c :: cs) i := by
  cases i with
  | zero => exact not_markerAt_of_lt_one (by decide) (by simp) Nat.one_pos
  | succ i =>
    cases Nat.lt_one_iff.1 (Nat.lt_of_succ_lt_succ hi)
    rintro ⟨hescape, -⟩
    simp [isEscaped] at hescape

theorem isLeast_codeLength (line : List Char) : IsLeast (codeEnds line) (codeLength line) := by
  fun_induction codeLength line with
  | case1 => exact isLeast_codeEnds_length (by simp)
  | case2 => exact isLeast_codeEnds_zero ⟨.hash, List.prefix_rfl⟩
  | case3 c hhash =>
    exact isLeast_codeEnds_length fun i hi => not_markerAt_of_lt_one hhash (by simp) hi
  | case4 d cs ih =>
    -- a backslash and what it escapes are passed over together, so no escape is open behind them
    rw [Nat.add_comm]
    exact @isLeast_codeEnds_append ['\\', d] cs _ (by simp [isEscaped])
      (fun i hi => not_markerAt_of_lt_two hi) ih
  | case5 d cs => exact isLeast_codeEnds_zero ⟨.hash, d :: cs, rfl⟩
  | case6 c d cs hescape hhash hslash =>
    obtain ⟨rfl, rfl⟩ := hslash
    exact isLeast_codeEnds_zero ⟨.slashes, cs, rfl⟩
  | case7 c d cs hescape hhash hslash ih =>
    rw [Nat.add_comm]
    exact @isLeast_codeEnds_append [c] (d :: cs) _ (by simp [isEscaped, hescape])
      (fun i hi => not_markerAt_of_lt_one hhash (by simpa using hslash) hi) ih

theorem start_marker (marker : Marker) (rest : List UInt8) :
    start (bytes marker.chars ++ rest) = 0 := by
  cases marker with
  | hash => cases rest <;> rfl
  | slashes => rfl

/-- A byte that neither hides the next one nor starts a marker belongs to the code. -/
theorem start_cons {b : UInt8} {bs : List UInt8} (hescape : b ≠ 0x5C) (hhash : b ≠ 0x23)
    (hslash : ¬(b = 0x2F ∧ bs.head? = some 0x2F)) : start (b :: bs) = start bs + 1 := by
  cases bs with
  | nil => simp [start, hhash]
  | cons c bs =>
    rw [List.head?_cons, Option.some.injEq] at hslash
    rw [start, if_neg hescape, if_neg hhash, if_neg hslash]

theorem start_append_of_le {front : List UInt8} (h : ∀ b ∈ front, 128 ≤ b.toNat) (bs : List UInt8) :
    start (front ++ bs) = start bs + front.length := by
  induction front with
  | nil => rfl
  | cons b front ih =>
    rw [List.forall_mem_cons] at h
    have hne {a : UInt8} (ha : a.toNat < 128) : b ≠ a := by
      rintro rfl
      exact Nat.not_le.2 ha h.1
    rw [List.cons_append, start_cons (hne (by decide)) (hne (by decide)) fun hb =>
      hne (by decide) hb.1, ih h.2, List.length_cons, Nat.add_assoc]

theorem start_escape (c : Char) (bs : List UInt8) :
    start (0x5C :: (String.utf8EncodeChar c ++ bs)) = start bs + (c.utf8Size + 1) := by
  obtain ⟨b, others, hbytes, hothers, hsize⟩ := utf8EncodeChar_eq_cons c
  rw [hbytes, List.cons_append, start, if_pos rfl, start_append_of_le hothers]
  omega

theorem start_char {c : Char} {cs : List Char} (hescape : c ≠ '\\') (hhash : c ≠ '#')
    (hslash : ¬(c = '/' ∧ cs.head? = some '/')) :
    start (bytes (c :: cs)) = start (bytes cs) + c.utf8Size := by
  obtain ⟨b, others, hbytes, hothers, hsize⟩ := utf8EncodeChar_eq_cons c
  have hline : bytes (c :: cs) = b :: (others ++ bytes cs) := by rw [bytes_cons, hbytes]; rfl
  have hne {a : UInt8} (ha : a.toNat < 128) (hchar : c ≠ Char.ofNat a.toNat) : b ≠ a := by
    rintro rfl
    obtain ⟨rest, hrest, -⟩ := exists_first_char hline ha
    exact hchar (List.cons.inj hrest).1
  have hnext : ¬(b = 0x2F ∧ (others ++ bytes cs).head? = some 0x2F) := by
    rintro ⟨rfl, hhead⟩
    -- a slash has no other byte, so the next one starts the next character
    obtain ⟨rest, hrest, hlater⟩ := exists_first_char hline (by decide)
    obtain ⟨rfl, rfl⟩ := List.cons.inj hrest
    obtain ⟨tail, htail⟩ := List.head?_eq_some_iff.1 hhead
    obtain ⟨later, rfl, -⟩ := exists_first_char (hlater.trans htail) (by decide)
    exact hslash ⟨rfl, rfl⟩
  rw [hline, start_cons (hne (by decide) hescape) (hne (by decide) hhash) hnext,
    start_append_of_le hothers, Nat.add_assoc, hsize]

/-- The search over bytes stops behind the characters before the comment. -/
theorem start_bytes (line : List Char) :
    start (bytes line) = byteLength (line.take (codeLength line)) := by
  fun_induction codeLength line with
  | case1 => rfl
  | case2 => exact start_marker .hash []
  | case3 c hhash =>
    -- a backslash at the end escapes nothing and is kept
    by_cases hescape : c = '\\'
    · rw [hescape]
      rfl
    · rw [start_char hescape hhash (by simp)]
      simp [start]
  | case4 d cs ih =>
    rw [bytes_cons, bytes_cons]
    refine (start_escape d (bytes cs)).trans ?_
    rw [ih, List.take_succ_cons, List.take_succ_cons, byteLength_cons, byteLength_cons]
    have : '\\'.utf8Size = 1 := rfl
    omega
  | case5 d cs => exact start_marker .hash (bytes (d :: cs))
  | case6 c d cs hescape hhash hslash =>
    obtain ⟨rfl, rfl⟩ := hslash
    exact start_marker .slashes (bytes cs)
  | case7 c d cs hescape hhash hslash ih =>
    rw [start_char hescape hhash (by simpa using hslash), ih, List.take_succ_cons, byteLength_cons,
      Nat.add_comm]

theorem before_eq_take (line : List Char) : before line = line.take (codeLength line) := by
  have htake := takeBytes_byteLength (line.take (codeLength line)) (line.drop (codeLength line))
  rw [List.take_append_drop] at htake
  rw [before, start_bytes, htake]

/-- A line without the characters of markers is all code. -/
theorem before_of_not_mem {line : List Char} (hhash : '#' ∉ line) (hslash : '/' ∉ line) :
    before line = line := by
  have hcode : codeLength line = line.length := by
    refine (isLeast_codeLength line).unique (isLeast_codeEnds_length fun i hi hmarker => ?_)
    obtain ⟨-, marker, hstart⟩ := hmarker
    cases marker with
    | hash => exact hhash (List.mem_of_mem_drop (hstart.subset List.mem_cons_self))
    | slashes => exact hslash (List.mem_of_mem_drop (hstart.subset List.mem_cons_self))
  rw [before_eq_take, hcode, List.take_length]

/-- The cut falls between two characters. -/
theorem bytes_before (line : List Char) :
    bytes (before line) = (bytes line).take (start (bytes line)) := by
  have hprefix : bytes (before line) <+: bytes line :=
    ⟨bytes (line.drop (codeLength line)), by
      rw [before_eq_take, ← bytes_append, List.take_append_drop]⟩
  rw [start_bytes, ← before_eq_take, ← length_bytes]
  exact List.prefix_iff_eq_take.1 hprefix

/-- What stands before the comment has none. -/
theorem codeLength_before (line : List Char) : codeLength (before line) = (before line).length := by
  rw [before_eq_take]
  refine (isLeast_codeLength _).unique (isLeast_codeEnds_length fun i hi hmarker => ?_)
  have hline := hmarker.append (line.drop (codeLength line))
  rw [List.take_append_drop] at hline
  have hle := (isLeast_codeLength line).2 (.inr hline)
  rw [List.length_take] at hi
  omega

/-- The code of a line is what stands before the first marker that is not escaped, and the whole line
when there is none. It is cut off between two characters, and cutting again changes nothing. -/
theorem before_ends_at_marker (line : List Char) :
    (∃ n, IsLeast {i | i = line.length ∨ MarkerAt line i} n ∧ before line = line.take n ∧
      start (bytes line) = byteLength (line.take n)) ∧
    before (before line) = before line := by
  refine ⟨⟨codeLength line, isLeast_codeLength line, before_eq_take line, start_bytes line⟩, ?_⟩
  rw [before_eq_take (before line), codeLength_before, List.take_length]

-- an escaped character of two bytes, an escaped marker, and a marker behind an escaped backslash
example : before "\\é \\// \\\\# note".toList = "\\é \\// \\\\".toList := by decide +kernel

end ScriptIndex.Comment

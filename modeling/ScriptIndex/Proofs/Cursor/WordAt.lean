import ScriptIndex.Proofs.Cursor.Token

/-!
# The word at a column

At a column where a word byte stands, the cursor finds the longest run of word bytes that this byte
belongs to. At any other column it finds the longest run that ends there, if a word byte stands before
the column, and otherwise nothing. Columns count bytes and may fall inside a character, but what is
found always stands between two characters of the line.
-/
namespace ScriptIndex.Cursor

open Text

def OnWord (code : List Char) (i : Nat) : Prop := ∃ b, (bytes code)[i]? = some b ∧ isWordByte b = true

instance (code : List Char) (i : Nat) : Decidable (OnWord code i) :=
  decidable_of_iff (((bytes code)[i]?).any isWordByte = true) (Option.any_eq_true _ _)

/-- From one byte column to another, both of them between two characters, a word stands in some code
as a longest run of word bytes. -/
structure RunBetween (code : List Char) (word : String) (start stop : Nat) : Prop where
  ne_empty : word ≠ ""
  stands : ∃ front rest, code = front ++ (word.toList ++ rest) ∧ byteLength front = start ∧
    start + word.utf8ByteSize = stop ∧ WordRun (bytes front) (bytes word.toList) (bytes rest)

theorem takeWhile_drop_eq_nil_iff (code : List Char) (i : Nat) :
    ((bytes code).drop i).takeWhile isWordByte = [] ↔ ¬OnWord code i := by
  rw [OnWord, ← List.head?_drop]
  cases (bytes code).drop i with
  | nil => simp
  | cons b bs => simp [List.takeWhile_cons]

theorem wordBefore_take_eq_nil_iff_not_onWord {code : List Char} {i : Nat} (h : i ≤ byteLength code) :
    wordBefore ((bytes code).take i) = [] ↔ ¬(i ≠ 0 ∧ OnWord code (i - 1)) := by
  rw [← length_bytes] at h
  rw [wordBefore_take_eq_nil_iff h]
  by_cases hzero : i = 0
  · simp [hzero]
  · have hbyte : (bytes code)[i - 1]? = some (bytes code)[i - 1] :=
      List.getElem?_eq_getElem (by omega)
    simp [OnWord, hzero, hbyte]

/-- What is found around a column is a longest run, and its two parts meet at the column. -/
theorem exists_wordRun_around {bs : List UInt8} {column : Nat} (h : column ≤ bs.length) :
    ∃ front rest, bs = front ++ (wordAround bs column ++ rest) ∧
      WordRun front (wordAround bs column) rest ∧
      front.length + (wordBefore (bs.take column)).length = column := by
  obtain ⟨front, hfront, hrun⟩ := exists_front_of_wordBefore (bs.take column)
  refine ⟨front, (bs.drop column).dropWhile isWordByte, ?_, ⟨?_, hrun.before, ?_⟩, ?_⟩
  · rw [wordAround, List.append_assoc, List.takeWhile_append_dropWhile, ← List.append_assoc,
      ← hfront, List.take_append_drop]
  · intro b hb
    rcases List.mem_append.1 hb with hbefore | hafter
    · exact hrun.word b hbefore
    · exact List.mem_takeWhile_imp hafter
  · exact of_mem_head?_dropWhile
  · rw [← List.length_append, ← hfront, List.length_take, Nat.min_eq_left h]

theorem runBetween_of_wordAround {code : List Char} {column : Nat} (h : column ≤ byteLength code)
    (hne : wordAround (bytes code) column ≠ []) : ∃ start ≤ column,
      RunBetween code (ofAscii (wordAround (bytes code) column)) start
        (column + (((bytes code).drop column).takeWhile isWordByte).length) := by
  rw [← length_bytes] at h
  obtain ⟨front, rest, hsplit, hrun, hmeet⟩ := exists_wordRun_around h
  have hascii (b : UInt8) (hb : b ∈ wordAround (bytes code) column) : b.toNat < 128 :=
    toNat_lt_of_isWordByte (hrun.word b hb)
  have hbytes := bytes_ofAscii hascii
  obtain ⟨before, after, hcode, hbefore, hafter⟩ := exists_split_at_ascii hsplit hne hascii
  refine ⟨front.length, by omega, ?_, before, after, ?_, ?_, ?_, ?_⟩
  · rwa [Ne, ofAscii_eq_empty_iff]
  · rwa [← List.append_assoc]
  · rw [← length_bytes, hbefore]
  · rw [← byteLength_toList, ← length_bytes, hbytes, wordAround, List.length_append]
    omega
  · rwa [hbefore, hafter, hbytes]

theorem wordAt_of_code {content : String} {line : Nat} {text : List Char}
    (h : (lines content.toList)[line]? = some text) (column : Nat) :
    wordAt content line column = if column ≤ byteLength (Comment.before text) then
      ofAscii (wordAround (bytes (Comment.before text)) column) else "" := by
  simp only [wordAt, codeBytes?, h, Option.map_some, length_bytes]

/-- The word at any line and column: nothing outside the code of the line; the longest run that holds
the column when a word byte stands there, otherwise the longest run that ends there when a word byte
stands before it, and otherwise nothing. -/
theorem wordAt_is_run (content : String) (line column : Nat) :
    ((lines content.toList)[line]? = none → wordAt content line column = "") ∧
    ∀ text, (lines content.toList)[line]? = some text →
      let code := Comment.before text
      let word := wordAt content line column
      let afterWord := column ≠ 0 ∧ OnWord code (column - 1)
      (byteLength code < column → word = "") ∧
      (column ≤ byteLength code →
        (OnWord code column →
          ∃ start stop, RunBetween code word start stop ∧ start ≤ column ∧ column < stop) ∧
        (¬OnWord code column → afterWord → ∃ start, RunBetween code word start column) ∧
        (¬OnWord code column → ¬afterWord → word = "")) := by
  constructor
  · intro hnone
    simp only [wordAt, codeBytes?, hnone, Option.map_none]
  · intro text hline code word afterWord
    have hword : word = if column ≤ byteLength code then
        ofAscii (wordAround (bytes code) column) else "" := wordAt_of_code hline column
    constructor
    · intro hlt
      rw [hword, if_neg (Nat.not_le.2 hlt)]
    · intro hle
      rw [if_pos hle] at hword
      have hbefore := wordBefore_take_eq_nil_iff_not_onWord hle
      have hfrom := takeWhile_drop_eq_nil_iff code column
      refine ⟨fun hon => ?_, fun hoff hafter => ?_, fun hoff hfree => ?_⟩
      · have hne : ((bytes code).drop column).takeWhile isWordByte ≠ [] :=
          fun hnil => hfrom.1 hnil hon
        obtain ⟨start, hstart, hrun⟩ := runBetween_of_wordAround hle (by simp [wordAround, hne])
        have hpos := List.length_pos_iff.2 hne
        exact ⟨start, _, hword ▸ hrun, hstart, by omega⟩
      · have hne : wordBefore ((bytes code).take column) ≠ [] := fun hnil => hbefore.1 hnil hafter
        obtain ⟨start, -, hrun⟩ := runBetween_of_wordAround hle (by simp [wordAround, hne])
        rw [hfrom.2 hoff, List.length_nil, Nat.add_zero] at hrun
        exact ⟨start, hword ▸ hrun⟩
      · rw [hword, wordAround, hbefore.2 hfree, hfrom.2 hoff, List.append_nil]
        rfl

/-- On the word `_b`, inside the character before it, and right behind the letter before that. -/
theorem wordAt_is_run_inside :
    let content := "é1,fö(_b) # c"
    let code := "é1,fö(_b) ".toList
    (∃ start stop, RunBetween code (wordAt content 0 8) start stop ∧ start ≤ 8 ∧ 8 < stop) ∧
      wordAt content 0 6 = "" ∧ ∃ start, RunBetween code (wordAt content 0 5) start 5 := by
  intro content code
  have hline : (lines content.toList)[0]? = some content.toList := by decide +kernel
  have hcode : Comment.before content.toList = code := by decide +kernel
  have hlength : byteLength code = 12 := by decide +kernel
  have hword (column : Nat) := (wordAt_is_run content 0 column).2 _ hline
  simp only [hcode, hlength] at hword
  refine ⟨?_, ?_, ?_⟩
  · exact ((hword 8).2 (by decide)).1 (by decide +kernel)
  · exact ((hword 6).2 (by decide)).2.2 (by decide +kernel) (by decide +kernel)
  · exact ((hword 5).2 (by decide)).2.1 (by decide +kernel) (by decide +kernel)

end ScriptIndex.Cursor

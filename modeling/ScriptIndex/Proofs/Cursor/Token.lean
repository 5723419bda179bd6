import ScriptIndex.Proofs.Comment
import ScriptIndex.Proofs.Highlight.Regions

/-!
# Words of the highlighter under the cursor

The highlighter knows strings and raw blocks, the cursor knows only comments, and for the cursor a
comment may start inside a string. Still they agree on words: a comment starts with a byte that is in no
word, so a word is kept as a whole or cut off as a whole, and a word that is kept is a longest run of
word bytes for both.
-/
namespace ScriptIndex

namespace Cursor

open Text

theorem wordBefore_append {front text : List UInt8} (hword : ∀ b ∈ text, isWordByte b = true)
    (hfront : ∀ b ∈ front.getLast?, isWordByte b = false) : wordBefore (front ++ text) = text := by
  have hrun : (text.reverse ++ front.reverse).takeWhile isWordByte = text.reverse :=
    takeWhile_append_rest (by simpa using hword) (by simpa using hfront)
  rw [wordBefore, List.reverse_append, hrun, List.reverse_reverse]

/-- The word bytes that end a sequence are a longest run at its end. -/
theorem exists_front_of_wordBefore (bs : List UInt8) :
    ∃ front, bs = front ++ wordBefore bs ∧ WordRun front (wordBefore bs) [] := by
  refine ⟨(bs.reverse.dropWhile isWordByte).reverse, ?_, ?_, ?_, by simp⟩
  · rw [wordBefore, ← List.reverse_append, List.takeWhile_append_dropWhile, List.reverse_reverse]
  · intro b hb
    rw [wordBefore, List.mem_reverse] at hb
    exact List.mem_takeWhile_imp hb
  · rw [List.getLast?_reverse]
    exact of_mem_head?_dropWhile

theorem wordBefore_eq_nil_iff (bs : List UInt8) :
    wordBefore bs = [] ↔ ∀ b ∈ bs.getLast?, isWordByte b = false := by
  constructor
  · intro hnil
    obtain ⟨front, hbs, hrun⟩ := exists_front_of_wordBefore bs
    rw [hnil, List.append_nil] at hbs
    rw [hbs]
    exact hrun.before
  · intro hlast
    have hnone := @wordBefore_append bs [] (by simp) hlast
    rwa [List.append_nil] at hnone

theorem wordBefore_take_eq_nil_iff {bs : List UInt8} {i : Nat} (hi : i ≤ bs.length) :
    wordBefore (bs.take i) = [] ↔ i = 0 ∨ ∃ b, bs[i - 1]? = some b ∧ isWordByte b = false := by
  rw [wordBefore_eq_nil_iff]
  cases i with
  | zero => simp
  | succ i => simp [List.getLast?_take, List.getElem?_eq_getElem (show i < bs.length by omega)]

/-- Around every column from the start of a longest run to its end there is this run. -/
theorem wordAround_of_run {front text rest : List UInt8} (h : WordRun front text rest) {i : Nat}
    (hi : i ≤ text.length) : wordAround (front ++ (text ++ rest)) (front.length + i) = text := by
  have hbefore : wordBefore (front ++ text.take i) = text.take i :=
    wordBefore_append (fun b hb => h.word b (List.mem_of_mem_take hb)) h.before
  have hafter : (text.drop i ++ rest).takeWhile isWordByte = text.drop i :=
    takeWhile_append_rest (fun b hb => h.word b (List.mem_of_mem_drop hb)) h.after
  have htake : (front ++ (text ++ rest)).take (front.length + i) = front ++ text.take i := by
    rw [List.take_length_add_append, List.take_append_of_le_length hi]
  have hdrop : (front ++ (text ++ rest)).drop (front.length + i) = text.drop i ++ rest := by
    rw [List.drop_length_add_append, List.drop_append_of_le_length hi]
  rw [wordAround, htake, hdrop, hbefore, hafter, List.take_append_drop]

theorem wordAt_of_line {content : String} {line : Nat} {text : List Char}
    (h : (lines content.toList)[line]? = some text) (column : Nat) :
    wordAt content line column = if column ≤ Comment.start (bytes text) then
      ofAscii (wordAround ((bytes text).take (Comment.start (bytes text))) column) else "" := by
  have hle := Comment.start_le (bytes text)
  simp only [wordAt, codeBytes?, h, Option.map_some, Comment.bytes_before, List.length_take,
    Nat.min_eq_left hle]

end Cursor

namespace Highlight

open Text

/-- A comment starts behind a word or before it. -/
theorem start_of_word (front rest : List UInt8) {text : List UInt8}
    (h : ∀ b ∈ text, isWordByte b = true) :
    front.length + text.length ≤ Comment.start (front ++ (text ++ rest)) ∨
      Comment.start (front ++ (text ++ rest)) < front.length := by
  by_contra hinside
  rw [not_or, Nat.not_le, Nat.not_lt] at hinside
  obtain ⟨hstop, hstart⟩ := hinside
  have hmarker := @Comment.getElem?_start (front ++ (text ++ rest)) (by simp; omega)
  generalize Comment.start (front ++ (text ++ rest)) = n at hstart hstop hmarker
  rw [List.getElem?_append_right hstart, List.getElem?_append_left (by omega)] at hmarker
  have hbyte (b : UInt8) (hb : text[n - front.length]? = some b) : isWordByte b = true :=
    h b (List.mem_of_getElem? hb)
  rcases hmarker with hb | hb
  · exact absurd (hbyte _ hb) (by decide)
  · exact absurd (hbyte _ hb) (by decide)

/-- A word that ends before the comment of its line, as the cursor sees it, is the word at each of its
columns. Every other word starts behind the beginning of the comment, and the cursor finds no word at
any of its columns. -/
theorem word_at_its_columns (content : String) (hcount : (lines content.toList).length < 2 ^ 32)
    {word : Word} (hword : word ∈ codeWords content) :
    ∃ line, (lines content.toList)[word.line]? = some line ∧
      let stop := word.start + word.text.utf8ByteSize
      let cut := byteLength (Comment.before line)
      (stop ≤ cut → ∀ column, word.start ≤ column → column ≤ stop →
        Cursor.wordAt content word.line column = word.text) ∧
      (¬stop ≤ cut → cut < word.start ∧ ∀ column, word.start ≤ column → column ≤ stop →
        Cursor.wordAt content word.line column = "") := by
  obtain ⟨hline, front, rest, hbytes, hstart, hrun⟩ :=
    (mem_codeWords_iff (Nat.le_of_lt_succ hcount) word).1 hword
  refine ⟨word.lineText, hline, ?_⟩
  intro stop cut
  have hcut : cut = Comment.start (bytes word.lineText) := by
    change byteLength (Comment.before word.lineText) = _
    rw [← length_bytes, Comment.bytes_before, List.length_take]
    exact Nat.min_eq_left (Comment.start_le _)
  have hstop : stop = front.length + (bytes word.text.toList).length := by
    rw [length_bytes, byteLength_toList, ← hstart]
  have hascii : ofAscii (bytes word.text.toList) = word.text :=
    ofAscii_bytes fun b hb => toNat_lt_of_isWordByte (hrun.word b hb)
  constructor
  · intro hkept column hfrom hto
    -- the code of the line ends behind the word, so that the word is a longest run in it
    have hcode : (bytes word.lineText).take cut =
        front ++ (bytes word.text.toList ++ rest.take (cut - stop)) := by
      rw [hbytes, List.take_append, List.take_append, List.take_of_length_le (by omega),
        List.take_of_length_le (by omega)]
      congr 3
      omega
    obtain ⟨i, rfl⟩ := Nat.exists_eq_add_of_le hfrom
    rw [Cursor.wordAt_of_line hline, ← hcut, if_pos (by omega), hcode, hstart,
      Cursor.wordAround_of_run (hrun.toWordRun.take _) (by omega), hascii]
  · intro hlost
    have hbehind : cut < word.start := by
      rcases start_of_word front rest hrun.word with hkept | hbehind
      · rw [← hbytes, ← hcut, ← hstop] at hkept
        exact absurd hkept hlost
      · rwa [← hbytes, ← hcut, ← hstart] at hbehind
    refine ⟨hbehind, fun column hfrom _ => ?_⟩
    rw [Cursor.wordAt_of_line hline, ← hcut, if_neg (by omega)]

/-- On a line whose string holds a hash, the words before it are found and the one after it is not. -/
theorem word_at_its_columns_hash :
    let content := "x\n  say(\"é #1\", _y2)"
    (lines content.toList).length < 2 ^ 32 ∧
      (∀ column, 2 ≤ column → column ≤ 5 → Cursor.wordAt content 1 column = "say") ∧
      ∀ column, 15 ≤ column → column ≤ 18 → Cursor.wordAt content 1 column = "" := by
  intro content
  have hcount : (lines content.toList).length < 2 ^ 32 := by decide +kernel
  let line := "  say(\"é #1\", _y2)".toList
  have hline : (lines content.toList)[1]? = some line := by decide +kernel
  have hcut : byteLength (Comment.before line) = 10 := by decide +kernel
  have hsay : (⟨1, 2, "say", line⟩ : Word) ∈ codeWords content := by decide +kernel
  have hlater : (⟨1, 15, "_y2", line⟩ : Word) ∈ codeWords content := by decide +kernel
  refine ⟨hcount, ?_, ?_⟩
  · obtain ⟨found, hfound, hkept, -⟩ := word_at_its_columns content hcount hsay
    cases hline.symm.trans hfound
    exact hkept (by rw [hcut]; decide)
  · obtain ⟨found, hfound, -, hlost⟩ := word_at_its_columns content hcount hlater
    cases hline.symm.trans hfound
    exact (hlost (by rw [hcut]; decide)).2

end Highlight
end ScriptIndex

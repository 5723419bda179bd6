import Mathlib.Algebra.Group.Nat.Defs
import Mathlib.Data.List.Induction
import ScriptIndex.Proofs.Highlight.Words

/-!
# Code and what is not code

Every byte of a line lies in code, in a string, in a raw block or in a comment. Which of these it is
follows byte by byte from the start of the text, and only a raw block goes on from one line to the next.
The words of a text are the longest runs of word bytes in its code, those that start with a digit left
out. No word byte leads into code or out of it, so a run that begins in code stays there.
-/
namespace ScriptIndex.Highlight

open Text

/-- What a byte lies in. -/
inductive Region where
  | code
  | string
  /-- In a string, after the backslash that hides the byte. -/
  | escaped
  | raw
  | comment
  deriving DecidableEq, Repr

namespace Region

/-- The region after a byte that `rest` follows on its line. -/
def next (b : UInt8) (rest : List UInt8) : Region → Region
  | code =>
    if b = 0x22 then string
    else if b = 0x60 then raw
    else if b = 0x23 ∨ b = 0x2F ∧ rest.head? = some 0x2F then comment
    else code
  | string => if b = 0x22 then code else if b = 0x5C then escaped else string
  | escaped => string
  | raw => if b = 0x60 then code else raw
  | comment => comment

/-- The region of byte `i` of a line that begins in the given region; the end of the line counts as
one byte more. -/
def along (region : Region) : List UInt8 → Nat → Region
  | b :: bs, i + 1 => (region.next b bs).along bs i
  | _, _ => region

/-- The region in which the line after this one begins. -/
def carried : Region → Region
  | raw => raw
  | code | string | escaped | comment => code

/-- The region in which a text goes on after lines of which the first one began in the given region. -/
def afterLines (region : Region) (ls : List (List Char)) : Region :=
  ls.foldl (fun region line => (region.along (bytes line) (bytes line).length).carried) region

@[simp] theorem along_zero (region : Region) (bs : List UInt8) : region.along bs 0 = region := by
  cases bs <;> rfl

@[simp] theorem along_cons (region : Region) (b : UInt8) (bs : List UInt8) (i : Nat) :
    region.along (b :: bs) (i + 1) = (region.next b bs).along bs i := rfl

theorem along_comment (bs : List UInt8) (i : Nat) : comment.along bs i = comment := by
  induction bs generalizing i with
  | nil => cases i <;> rfl
  | cons b bs ih =>
    cases i with
    | zero => rfl
    | succ i => exact ih i

theorem next_code_of_word {b : UInt8} (h : isWordByte b = true) (rest : List UInt8) :
    code.next b rest = code := by
  have hne {c : UInt8} (hc : isWordByte c = false) : b ≠ c := by
    rintro rfl
    simp [h] at hc
  simp [next, hne (c := 0x22) rfl, hne (c := 0x60) rfl, hne (c := 0x23) rfl, hne (c := 0x2F) rfl]

/-- Into code leads a byte of code or the closing mark of a string or raw block. -/
theorem of_next_eq_code {region : Region} {b : UInt8} {rest : List UInt8}
    (h : region.next b rest = code) : region = code ∨ isWordByte b = false := by
  cases region with
  | code => exact Or.inl rfl
  | string =>
    by_cases hb : b = 0x22
    · exact Or.inr (by rw [hb]; rfl)
    · by_cases hslash : b = 0x5C <;> simp [next, hb, hslash] at h
  | raw =>
    by_cases hb : b = 0x60
    · exact Or.inr (by rw [hb]; rfl)
    · simp [next, hb] at h
  | escaped => cases h
  | comment => cases h

/-- A run of word bytes in code leads to code. -/
theorem along_code_append {text : List UInt8} (h : ∀ b ∈ text, isWordByte b = true)
    (rest : List UInt8) (i : Nat) :
    code.along (text ++ rest) (text.length + i) = code.along rest i := by
  induction text with
  | nil => simp
  | cons b text ih =>
    rw [List.forall_mem_cons] at h
    rw [List.length_cons, Nat.add_right_comm, List.cons_append, along_cons, next_code_of_word h.1,
      ih h.2]

theorem along_code_of_le {text : List UInt8} (h : ∀ b ∈ text, isWordByte b = true)
    (rest : List UInt8) {i : Nat} (hi : i ≤ text.length) : code.along (text ++ rest) i = code := by
  have htake : ∀ b ∈ text.take i, isWordByte b = true := fun b hb => h b (List.mem_of_mem_take hb)
  have hrun := along_code_append htake (text.drop i ++ rest) 0
  rwa [← List.append_assoc, List.take_append_drop, List.length_take, Nat.min_eq_left hi,
    Nat.add_zero, along_zero] at hrun

end Region

/-- A longest run of word bytes between `front` and `rest` that lies in code and does not start with a
digit, on a line that begins in the given region. -/
structure CodeRun (region : Region) (front text rest : List UInt8) : Prop
    extends WordRun front text rest where
  code : ∀ i < text.length, region.along (front ++ (text ++ rest)) (front.length + i) = .code
  first : ∃ b ∈ text.head?, ¬(0x30 ≤ b ∧ b ≤ 0x39)

/-- There is a run of code in bytes whose first one is in the given column and region. -/
def Found (region : Region) (column : Nat) (bs : List UInt8) (start : Nat) (text : List UInt8) :
    Prop :=
  ∃ front rest, bs = front ++ (text ++ rest) ∧ start = column + front.length ∧
    CodeRun region front text rest

section Found

variable {region : Region} {column start : Nat} {b : UInt8} {bs text : List UInt8}

theorem CodeRun.ne_nil {front rest : List UInt8} (h : CodeRun region front text rest) :
    text ≠ [] := by
  obtain ⟨b, hb, -⟩ := h.first
  rintro rfl
  simp at hb

theorem not_found_nil : ¬Found region column [] start text := by
  rintro ⟨front, rest, hsplit, -, hrun⟩
  simp [hrun.ne_nil] at hsplit

/-- A byte that is no word byte of code is skipped. -/
theorem found_cons_iff (h : region = .code → isWordByte b = false) :
    Found region column (b :: bs) start text ↔
      Found (region.next b bs) (column + 1) bs start text := by
  constructor
  · rintro ⟨front, rest, hsplit, hstart, hrun⟩
    cases front with
    | nil =>
      -- the run would begin with the byte, as a word byte of code
      obtain ⟨c, later, rfl⟩ := List.exists_cons_of_ne_nil hrun.ne_nil
      have hcode := hrun.code 0 (by simp)
      have hword := hrun.word c (by simp)
      simp only [List.nil_append, List.cons_append, List.cons.injEq] at hsplit
      rw [← hsplit.1, h (by simpa using hcode)] at hword
      cases hword
    | cons c front =>
      simp only [List.cons_append, List.cons.injEq] at hsplit
      obtain ⟨rfl, rfl⟩ := hsplit
      refine ⟨front, rest, rfl, ?_, ⟨hrun.word, ?_, hrun.after⟩, ?_, hrun.first⟩
      · rw [hstart, List.length_cons]
        omega
      · intro c hc
        apply hrun.before c
        cases front with
        | nil => simp at hc
        | cons => simpa using hc
      · intro i hi
        have hcode := hrun.code i hi
        rwa [List.length_cons, Nat.add_right_comm, List.cons_append, Region.along_cons] at hcode
  · rintro ⟨front, rest, rfl, hstart, hrun⟩
    refine ⟨b :: front, rest, rfl, ?_, ⟨hrun.word, ?_, hrun.after⟩, ?_, hrun.first⟩
    · rw [hstart, List.length_cons]
      omega
    · intro c hc
      cases front with
      | nil =>
        have hcode := hrun.code 0 (List.length_pos_iff.2 hrun.ne_nil)
        simp only [List.getLast?_singleton, Option.mem_some_iff] at hc
        subst hc
        exact (Region.of_next_eq_code (by simpa using hcode)).elim h id
      | cons => exact hrun.before c (by simpa using hc)
    · intro i hi
      rw [List.length_cons, Nat.add_right_comm, List.cons_append, Region.along_cons]
      exact hrun.code i hi

theorem not_found_comment : ¬Found .comment column bs start text := by
  induction bs generalizing column with
  | nil => exact not_found_nil
  | cons b bs ih =>
    rw [found_cons_iff (by simp)]
    exact ih

/-- A run of word bytes at the start of code is found, unless it starts with a digit, and so is what is
found behind it. -/
theorem found_append_iff {run rest : List UInt8} (hword : ∀ b ∈ run, isWordByte b = true)
    (hrest : ∀ b ∈ rest.head?, isWordByte b = false) :
    Found .code column (run ++ rest) start text ↔
      (start = column ∧ text = run ∧ ∃ b ∈ run.head?, ¬(0x30 ≤ b ∧ b ≤ 0x39)) ∨
        Found .code (column + run.length) rest start text := by
  constructor
  · rintro ⟨front, tail, hsplit, hstart, hrun⟩
    rcases List.append_eq_append_iff.1 hsplit with ⟨gap, rfl, rfl⟩ | ⟨gap, rfl, hgap⟩
    · refine Or.inr ⟨gap, tail, rfl, ?_, ⟨hrun.word, ?_, hrun.after⟩, ?_, hrun.first⟩
      · rw [hstart, List.length_append, Nat.add_assoc]
      · intro b hb
        exact hrun.before b (by simp [List.getLast?_append, Option.mem_def.1 hb])
      · intro i hi
        have hcode := hrun.code i hi
        rwa [List.append_assoc, List.length_append, Nat.add_assoc,
          Region.along_code_append hword] at hcode
    · cases front using List.reverseRecOn with
      | nil =>
        have hsame : text = gap := by
          rw [← takeWhile_append_rest hrun.word hrun.after, hgap]
          exact takeWhile_append_rest hword hrest
        subst hsame
        exact Or.inl ⟨hstart, rfl, hrun.first⟩
      | append_singleton front b =>
        -- the byte before a run would be a word byte
        have hb := hrun.before b (by simp)
        rw [hword b (by simp)] at hb
        cases hb
  · rintro (⟨rfl, rfl, hfirst⟩ | ⟨front, tail, rfl, hstart, hrun⟩)
    · refine ⟨[], rest, rfl, rfl, ⟨hword, by simp, hrest⟩, ?_, hfirst⟩
      intro i hi
      exact Region.along_code_of_le hword rest (by simpa using Nat.le_of_lt hi)
    · refine ⟨run ++ front, tail, by simp, ?_, ⟨hrun.word, ?_, hrun.after⟩, ?_, hrun.first⟩
      · rw [hstart, List.length_append, Nat.add_assoc]
      · intro b hb
        cases front using List.reverseRecOn with
        | nil =>
          -- the run would go on
          obtain ⟨c, later, rfl⟩ := List.exists_cons_of_ne_nil hrun.ne_nil
          have hc := hrest c (by simp)
          rw [hrun.word c (by simp)] at hc
          cases hc
        | append_singleton front c =>
          exact hrun.before b (by simpa [← List.append_assoc] using hb)
      · intro i hi
        rw [List.append_assoc, List.length_append, Nat.add_assoc, Region.along_code_append hword]
        exact hrun.code i hi

end Found

/-- What the scan has got to. -/
def Mode.region : Mode → Region
  | .code | .word _ => .code
  | .string => .string
  | .escaped => .escaped
  | .raw => .raw

theorem startsComment_cons (b : UInt8) (bs : List UInt8) :
    startsComment (b :: bs) = true ↔ b = 0x23 ∨ b = 0x2F ∧ bs.head? = some 0x2F := by
  cases bs <;> simp [startsComment]

theorem next_code_of_comment {b : UInt8} {bs : List UInt8} (h : startsComment (b :: bs) = true) :
    Region.code.next b bs = .comment := by
  rw [startsComment_cons] at h
  have hquote : b ≠ 0x22 := by rcases h with rfl | ⟨rfl, -⟩ <;> decide
  have hraw : b ≠ 0x60 := by rcases h with rfl | ⟨rfl, -⟩ <;> decide
  simp [Region.next, hquote, hraw, h]

theorem region_codeStep {b : UInt8} {bs : List UInt8} (h : ¬startsComment (b :: bs) = true) :
    (codeStep b).region = Region.code.next b bs := by
  rw [startsComment_cons] at h
  by_cases hquote : b = 0x22
  · subst hquote
    rfl
  · by_cases hraw : b = 0x60
    · subst hraw
      rfl
    · simp [codeStep, Region.next, Mode.region, hquote, hraw, h]

theorem mem_finishWord_iff (column start : Nat) (text : List UInt8) {run : List UInt8}
    (hword : ∀ b ∈ run.reverse, isWordByte b = true) :
    (start, text) ∈ finishWord (column + run.reverse.length) run ↔
      start = column ∧ text = run.reverse ∧
        ∃ b ∈ run.reverse.head?, ¬(0x30 ≤ b ∧ b ≤ 0x39) := by
  rw [finishWord]
  generalize run.reverse = word at hword
  cases word with
  | nil => simp
  | cons b word =>
    have hfirst : (∃ c ∈ (b :: word).head?, ¬(0x30 ≤ c ∧ c ≤ 0x39)) ↔ isWordStartByte b = true := by
      simp [isWordStartByte_iff (hword b (by simp))]
    rw [hfirst]
    by_cases hb : isWordStartByte b = true <;> simp [hb]

/-- The scan of a line finds the runs of code. A word that was begun before the bytes counts as the
beginning of them. -/
theorem mem_scanLine_iff (mode : Mode) (column start : Nat) (bs text : List UInt8)
    (hpending : ∀ b ∈ mode.pending, isWordByte b = true) :
    (start, text) ∈ (scanLine mode (column + mode.pending.length) bs).1 ↔
      Found mode.region column (mode.pending ++ bs) start text := by
  induction bs generalizing mode column with
  | nil =>
    cases mode with
    | word run =>
      rw [Mode.region, found_append_iff hpending (by simp), or_iff_left not_found_nil]
      exact mem_finishWord_iff column start text hpending
    | code | string | escaped | raw => simp [Mode.pending, scanLine, not_found_nil]
  | cons b bs ih =>
    -- a byte that belongs to no word is skipped, whatever the mode after it
    have skipped (region : Region) (next : Mode) (hnext : next.pending = [])
        (hregion : next.region = region.next b bs) (hb : region = .code → isWordByte b = false)
        (column : Nat) : (start, text) ∈ (scanLine next (column + 1) bs).1 ↔
          Found region column (b :: bs) start text := by
      have hlater := ih next (column + 1) (by simp [hnext])
      rw [found_cons_iff hb, ← hregion]
      simpa [hnext] using hlater
    cases mode with
    | raw =>
      rw [scanLine]
      apply skipped .raw
      · split <;> rfl
      · by_cases hb : b = 0x60 <;> simp [Region.next, Mode.region, hb]
      · simp
    | string =>
      rw [scanLine]
      apply skipped .string
      · split_ifs <;> rfl
      · by_cases hb : b = 0x22
        · simp [Region.next, Mode.region, hb]
        · by_cases hslash : b = 0x5C <;> simp [Region.next, Mode.region, hb, hslash]
      · simp
    | escaped => exact skipped .escaped .string rfl rfl (by simp) column
    | code =>
      rw [scanLine]
      by_cases hb : isWordByte b = true
      · rw [if_pos hb]
        exact ih (.word [b]) column (by simpa [Mode.pending] using hb)
      · have hskip : Region.code = .code → isWordByte b = false := by simpa using hb
        rw [if_neg hb]
        by_cases hcomment : startsComment (b :: bs) = true
        · have hnone : ¬Found .code column (b :: bs) start text := by
            rw [found_cons_iff hskip, next_code_of_comment hcomment]
            exact not_found_comment
          simpa [hcomment, Mode.region, Mode.pending] using hnone
        · rw [if_neg hcomment]
          exact skipped .code _ (pending_codeStep b) (region_codeStep hcomment) hskip column
    | word run =>
      rw [scanLine]
      by_cases hb : isWordByte b = true
      · have hword := ih (.word (b :: run)) column
          (by simpa [Mode.pending, or_imp, forall_and, hb] using hpending)
        simpa [Mode.pending, Mode.region, Nat.add_assoc, hb] using hword
      · have hskip : Region.code = .code → isWordByte b = false := by simpa using hb
        have hfinish := mem_finishWord_iff column start text hpending
        rw [if_neg hb, Mode.region, found_append_iff hpending (by simpa using hb)]
        by_cases hcomment : startsComment (b :: bs) = true
        · rw [if_pos hcomment, found_cons_iff hskip, next_code_of_comment hcomment,
            or_iff_left not_found_comment]
          exact hfinish
        · rw [if_neg hcomment]
          simp only [List.mem_append]
          exact or_congr hfinish
            (skipped .code _ (pending_codeStep b) (region_codeStep hcomment) hskip _)

/-- The scan of a line ends in a raw block when the line does. -/
theorem scanLine_snd (mode : Mode) (column : Nat) (bs : List UInt8) :
    (scanLine mode column bs).2 = true ↔ mode.region.along bs bs.length = .raw := by
  induction bs generalizing mode column with
  | nil => cases mode <;> simp [scanLine, Mode.region]
  | cons b bs ih =>
    cases mode with
    | raw => by_cases hb : b = 0x60 <;> simp [scanLine, Mode.region, Region.next, hb, ih]
    | string =>
      by_cases hb : b = 0x22
      · simp [scanLine, Mode.region, Region.next, hb, ih]
      · by_cases hslash : b = 0x5C <;> simp [scanLine, Mode.region, Region.next, hb, hslash, ih]
    | escaped => simp [scanLine, Mode.region, Region.next, ih]
    | code | word run =>
      by_cases hb : isWordByte b = true
      · simp [scanLine, Mode.region, Region.next_code_of_word hb, hb, ih]
      · by_cases hcomment : startsComment (b :: bs) = true
        · simp [scanLine, Mode.region, next_code_of_comment hcomment, Region.along_comment, hb,
            hcomment]
        · simp [scanLine, Mode.region, ← region_codeStep hcomment, hb, hcomment, ih]

def Region.ofFlag (inRaw : Bool) : Region := if inRaw then .raw else .code

/-- The words of one line, with its number and its text. -/
theorem mem_map_scanLine_iff (inRaw : Bool) {number : Nat} (hnumber : number ≤ maxCount)
    (line : List Char) (word : Word) :
    word ∈ (scanLine (if inRaw then .raw else .code) 0 (bytes line)).1.map
        (fun (start, text) => (⟨clip number, start, ofAscii text, line⟩ : Word)) ↔
      word.line = number ∧ word.lineText = line ∧
        Found (.ofFlag inRaw) 0 (bytes line) word.start (bytes word.text.toList) := by
  have hscan (start : Nat) (text : List UInt8) :
      (start, text) ∈ (scanLine (if inRaw then .raw else .code) 0 (bytes line)).1 ↔
        Found (.ofFlag inRaw) 0 (bytes line) start text := by
    cases inRaw with
    | false => exact mem_scanLine_iff .code 0 start (bytes line) text (by simp [Mode.pending])
    | true => exact mem_scanLine_iff .raw 0 start (bytes line) text (by simp [Mode.pending])
  have hascii {start : Nat} {text : List UInt8}
      (h : Found (.ofFlag inRaw) 0 (bytes line) start text) : ∀ b ∈ text, b.toNat < 128 := by
    obtain ⟨front, rest, -, -, hrun⟩ := h
    exact fun b hb => toNat_lt_of_isWordByte (hrun.word b hb)
  rw [List.mem_map]
  constructor
  · rintro ⟨⟨start, text⟩, hmem, rfl⟩
    have hfound := (hscan start text).1 hmem
    refine ⟨clip_of_le hnumber, rfl, ?_⟩
    rwa [bytes_ofAscii (hascii hfound)]
  · rintro ⟨rfl, rfl, hfound⟩
    refine ⟨(word.start, bytes word.text.toList), (hscan _ _).2 hfound, ?_⟩
    simp [clip_of_le hnumber, ofAscii_bytes (hascii hfound)]

theorem carried_ofFlag (inRaw : Bool) (line : List Char) :
    ((Region.ofFlag inRaw).along (bytes line) (bytes line).length).carried =
      .ofFlag (scanLine (if inRaw then .raw else .code) 0 (bytes line)).2 := by
  have hraw := scanLine_snd (if inRaw then .raw else .code) 0 (bytes line)
  have hregion : (if inRaw then Mode.raw else .code).region = Region.ofFlag inRaw := by
    cases inRaw <;> rfl
  rw [hregion] at hraw
  cases hflag : (scanLine (if inRaw then .raw else .code) 0 (bytes line)).2 with
  | true => rw [hraw.1 hflag]; rfl
  | false =>
    rw [hflag] at hraw
    cases hend : (Region.ofFlag inRaw).along (bytes line) (bytes line).length with
    | raw => simp [hend] at hraw
    | code | string | escaped | comment => rfl

theorem mem_scanLines_iff (inRaw : Bool) {number : Nat} {ls : List (List Char)}
    (hcount : number + ls.length ≤ maxCount) (word : Word) :
    word ∈ scanLines inRaw number ls ↔ ∃ i, word.line = number + i ∧
      ls[i]? = some word.lineText ∧
        Found ((Region.ofFlag inRaw).afterLines (ls.take i)) 0 (bytes word.lineText) word.start
          (bytes word.text.toList) := by
  induction ls generalizing inRaw number with
  | nil => simp [scanLines]
  | cons line rest ih =>
    rw [List.length_cons] at hcount
    simp only [scanLines, List.mem_append]
    rw [mem_map_scanLine_iff inRaw (by omega), ih _ (by omega), ← carried_ofFlag]
    constructor
    · rintro (⟨hnumber, rfl, hfound⟩ | ⟨i, hnumber, hline, hfound⟩)
      · exact ⟨0, hnumber, rfl, hfound⟩
      · exact ⟨i + 1, by omega, hline, hfound⟩
    · rintro ⟨i, hnumber, hline, hfound⟩
      cases i with
      | zero =>
        cases hline
        exact Or.inl ⟨hnumber, rfl, hfound⟩
      | succ i => exact Or.inr ⟨i, by omega, hline, hfound⟩

/-- The word is a longest run of word bytes in the code of its line, one that starts with no digit. -/
structure Word.InCode (ls : List (List Char)) (word : Word) : Prop where
  line : ls[word.line]? = some word.lineText
  run : ∃ front rest, bytes word.lineText = front ++ (bytes word.text.toList ++ rest) ∧
    word.start = front.length ∧
      CodeRun (Region.code.afterLines (ls.take word.line)) front (bytes word.text.toList) rest

theorem mem_codeWords_iff {content : String} (hcount : (lines content.toList).length ≤ maxCount)
    (word : Word) : word ∈ codeWords content ↔ word.InCode (lines content.toList) := by
  rw [codeWords, mem_scanLines_iff false (by omega)]
  constructor
  · rintro ⟨i, hi, hline, front, rest, hbytes, hstart, hrun⟩
    rw [Nat.zero_add] at hi hstart
    subst hi
    exact ⟨hline, front, rest, hbytes, hstart, hrun⟩
  · rintro ⟨hline, front, rest, hbytes, hstart, hrun⟩
    exact ⟨word.line, by omega, hline, front, rest, hbytes, by omega, hrun⟩

/-- The words of a text of fewer than `2 ^ 32` lines are all longest runs of word bytes in its code that
start with no digit, in the order of the text. -/
theorem codeWords_are_runs (content : String) (hcount : (lines content.toList).length < 2 ^ 32) :
    (∀ word, word ∈ codeWords content ↔ word.InCode (lines content.toList)) ∧
      (codeWords content).Pairwise fun v w =>
        v.line < w.line ∨ v.line = w.line ∧ v.start < w.start := by
  have hmax : (lines content.toList).length ≤ maxCount := Nat.le_of_lt_succ hcount
  refine ⟨mem_codeWords_iff hmax, (pairwise_codeWords hmax).imp_of_mem ?_⟩
  rintro v w hv - (hline | ⟨hline, hend⟩)
  · exact Or.inl hline
  · have hpos : 0 < byteLength v.text.toList := by
      obtain ⟨-, front, rest, -, -, hrun⟩ := (mem_codeWords_iff hmax v).1 hv
      rw [← length_bytes]
      exact List.length_pos_iff.2 hrun.ne_nil
    exact Or.inr ⟨hline, by omega⟩

/-- A raw block over two lines, a string with a quote in it, a number, a comment and a string that
nothing ends. -/
theorem codeWords_are_runs_mixed :
    let content := "a `b\nc` \"d\\\"e\" f1 2g // h\n\"i\nj"
    let line := "c` \"d\\\"e\" f1 2g // h".toList
    (lines content.toList).length < 2 ^ 32 ∧
      (codeWords content).map (fun word => (word.line, word.start, word.text)) =
        [(0, 0, "a"), (1, 10, "f1"), (3, 0, "j")] ∧
      Word.InCode (lines content.toList) ⟨1, 10, "f1", line⟩ ∧
      ¬Word.InCode (lines content.toList) ⟨1, 4, "d", line⟩ := by
  intro content line
  have hcount : (lines content.toList).length < 2 ^ 32 := by decide +kernel
  have hruns := (codeWords_are_runs content hcount).1
  refine ⟨hcount, by decide +kernel, (hruns _).1 ?_, fun hrun => ?_⟩
  · decide +kernel
  · have hmem := (hruns _).2 hrun
    revert hmem
    decide +kernel

end ScriptIndex.Highlight

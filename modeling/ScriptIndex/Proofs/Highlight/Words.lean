import ScriptIndex.Highlight.Words
import ScriptIndex.Proofs.Text.Columns
import ScriptIndex.Proofs.Text.Word

/-!
# Where the words of a document stand

The scan of a line reports runs of word bytes of the line, one after the other, each with its column.
Word bytes are characters of their own, so a word is a run of characters of its line, and the words
of a document come in the order in which they are read.
-/
namespace ScriptIndex.Highlight

open Text

/-- The words stand one after the other in bytes whose first one is in the given column. -/
inductive Placed : Nat → List UInt8 → List (Nat × List UInt8) → Prop
  | nil {column : Nat} {bs : List UInt8} : Placed column bs []
  | cons {column start : Nat} {gap text rest : List UInt8} {words : List (Nat × List UInt8)}
      (hstart : start = column + gap.length) (htext : text ≠ [])
      (hbytes : ∀ b ∈ text, isWordByte b = true)
      (later : Placed (start + text.length) rest words) :
      Placed column (gap ++ (text ++ rest)) ((start, text) :: words)

namespace Placed

variable {column : Nat} {bs : List UInt8} {words : List (Nat × List UInt8)}

theorem skip (gap : List UInt8) (h : Placed (column + gap.length) bs words) :
    Placed column (gap ++ bs) words := by
  cases h with
  | nil => exact nil
  | @cons _ start gap' text rest _ hstart htext hbytes later =>
    rw [← List.append_assoc]
    refine cons ?_ htext hbytes later
    rw [hstart, List.length_append, Nat.add_assoc]

theorem exists_split (h : Placed column bs words) {start : Nat} {text : List UInt8}
    (hword : (start, text) ∈ words) : ∃ front rest, bs = front ++ (text ++ rest) ∧
      start = column + front.length ∧ text ≠ [] ∧ ∀ b ∈ text, isWordByte b = true := by
  induction h with
  | nil => cases hword
  | @cons column first gap run rest words hfirst hrun hbytes later ih =>
    rcases List.mem_cons.1 hword with hhere | hlater
    · cases hhere
      exact ⟨gap, rest, rfl, hfirst, hrun, hbytes⟩
    · obtain ⟨front, rest, rfl, hstart, hrest⟩ := ih hlater
      refine ⟨gap ++ (run ++ front), rest, by simp, ?_, hrest⟩
      rw [hstart, hfirst, List.length_append, List.length_append]
      omega

theorem pairwise (h : Placed column bs words) :
    words.Pairwise fun v w => v.1 + v.2.length ≤ w.1 := by
  induction h with
  | nil => exact List.Pairwise.nil
  | cons hstart htext hbytes later ih =>
    refine List.Pairwise.cons (fun w hw => ?_) ih
    obtain ⟨front, rest, -, hcolumn, -⟩ := later.exists_split hw
    rw [hcolumn]
    exact Nat.le_add_right _ _

end Placed

def Mode.pending : Mode → List UInt8
  | .word run => run.reverse
  | _ => []

theorem pending_codeStep (b : UInt8) : (codeStep b).pending = [] := by
  rw [codeStep]
  split
  · rfl
  · split <;> rfl

theorem placed_finishWord (start : Nat) (rest : List UInt8) {run : List UInt8}
    {words : List (Nat × List UInt8)} (hrun : ∀ b ∈ run.reverse, isWordByte b = true)
    (later : Placed (start + run.reverse.length) rest words) :
    Placed start (run.reverse ++ rest) (finishWord (start + run.reverse.length) run ++ words) := by
  rw [finishWord]
  split
  · next hfirst =>
    have htext : run.reverse ≠ [] := by
      intro hempty
      rw [hempty] at hfirst
      cases hfirst
    rw [Nat.add_sub_cancel]
    change Placed start ([] ++ (run.reverse ++ rest)) _
    exact Placed.cons rfl htext hrun later
  · exact later.skip run.reverse

/-- The scan of a line: a word that was begun before the bytes counts as the beginning of them. -/
theorem placed_scanLine (mode : Mode) (start : Nat) (bs : List UInt8)
    (hpending : ∀ b ∈ mode.pending, isWordByte b = true) :
    Placed start (mode.pending ++ bs) (scanLine mode (start + mode.pending.length) bs).1 := by
  induction bs generalizing mode start with
  | nil =>
    cases mode with
    | word run =>
      have h := placed_finishWord start [] hpending Placed.nil
      rwa [List.append_nil (finishWord _ run)] at h
    | code | string | escaped | raw => exact Placed.nil
  | cons b bs ih =>
    -- a byte that belongs to no word is skipped, whatever the mode after it
    have skipped (next : Mode) (hnext : next.pending = []) (start : Nat) :
        Placed start (b :: bs) (scanLine next (start + 1) bs).1 := by
      have h := ih next (start + 1) (by rw [hnext]; exact fun _ h => absurd h List.not_mem_nil)
      rw [hnext] at h
      exact h.skip [b]
    cases mode with
    | raw =>
      rw [scanLine]
      exact skipped _ (by split <;> rfl) start
    | string =>
      rw [scanLine]
      refine skipped _ ?_ start
      split
      · rfl
      · split <;> rfl
    | escaped => exact skipped .string rfl start
    | code =>
      rw [scanLine]
      split
      · next hb => exact ih (.word [b]) start (by simpa [Mode.pending] using hb)
      · split
        · exact Placed.nil
        · exact skipped (codeStep b) (pending_codeStep b) start
    | word run =>
      rw [scanLine]
      split
      · next hb =>
        have h := ih (.word (b :: run)) start
          (by simpa [Mode.pending, or_imp, forall_and, hb] using hpending)
        simpa [Mode.pending, Nat.add_assoc] using h
      · split
        · have h := placed_finishWord start (b :: bs) hpending Placed.nil
          rwa [List.append_nil (finishWord _ run)] at h
        · exact placed_finishWord start (b :: bs) hpending (skipped (codeStep b) (pending_codeStep b) _)

/-- The words of a line, which starts in code or in a raw block. -/
theorem placed_words (inRaw : Bool) (line : List Char) :
    Placed 0 (bytes line) (scanLine (if inRaw then .raw else .code) 0 (bytes line)).1 := by
  cases inRaw with
  | false => exact placed_scanLine .code 0 (bytes line) fun _ h => absurd h List.not_mem_nil
  | true => exact placed_scanLine .raw 0 (bytes line) fun _ h => absurd h List.not_mem_nil

/-- What is found on a line is reported with the number and the text of the line. -/
theorem exists_of_mem_scanLines {inRaw : Bool} {number : Nat} {ls : List (List Char)} {word : Word}
    (h : word ∈ scanLines inRaw number ls) : ∃ i line, ∃ begunRaw : Bool, ∃ start text,
      ls[i]? = some line ∧
        (start, text) ∈ (scanLine (if begunRaw then .raw else .code) 0 (bytes line)).1 ∧
        word = ⟨clip (number + i), start, ofAscii text, line⟩ := by
  induction ls generalizing inRaw number with
  | nil => cases h
  | cons line rest ih =>
    rw [scanLines] at h
    rcases List.mem_append.1 h with hhere | hlater
    · obtain ⟨⟨start, text⟩, hmem, rfl⟩ := List.mem_map.1 hhere
      exact ⟨0, line, inRaw, start, text, rfl, hmem, rfl⟩
    · obtain ⟨i, found, begunRaw, start, text, hline, hmem, rfl⟩ := ih hlater
      refine ⟨i + 1, found, begunRaw, start, text, hline, hmem, ?_⟩
      rw [Nat.add_assoc, Nat.add_comm 1]

namespace Word

/-- The word is a run of characters of its line and stands after `start` bytes of it. -/
structure StandsIn (ls : List (List Char)) (word : Word) : Prop where
  line : ls[word.line]? = some word.lineText
  place : ∃ before after, word.lineText = before ++ word.text.toList ++ after ∧
    byteLength before = word.start
  nonempty : word.text.toList ≠ []
  ascii : ∀ c ∈ word.text.toList, c.toNat < 128

/-- The first word ends on an earlier line, or at the latest where the second one starts. -/
def EndsBefore (v w : Word) : Prop :=
  v.line < w.line ∨ v.line = w.line ∧ v.start + byteLength v.text.toList ≤ w.start

end Word

theorem ascii_ofAscii {text : List UInt8} (h : ∀ b ∈ text, isWordByte b = true) :
    ∀ c ∈ (ofAscii text).toList, c.toNat < 128 := by
  intro c hc
  rw [toList_ofAscii] at hc
  obtain ⟨b, hb, rfl⟩ := List.mem_map.1 hc
  have hsmall := toNat_lt_of_isWordByte (h b hb)
  rwa [toNat_ofNat hsmall]

theorem standsIn_of_mem_codeWords {content : String}
    (hcount : (lines content.toList).length ≤ maxCount) {word : Word}
    (h : word ∈ codeWords content) : word.StandsIn (lines content.toList) := by
  obtain ⟨i, line, inRaw, start, text, hline, hmem, rfl⟩ := exists_of_mem_scanLines h
  obtain ⟨front, rest, hbytes, hstart, htext, hword⟩ := (placed_words inRaw line).exists_split hmem
  obtain ⟨before, after, hsplit, hbefore, -⟩ :=
    exists_split_at_ascii hbytes htext fun b hb => toNat_lt_of_isWordByte (hword b hb)
  have hi : i < (lines content.toList).length := (List.getElem?_eq_some_iff.1 hline).1
  refine ⟨?_, ⟨before, after, hsplit, ?_⟩, ?_, ascii_ofAscii hword⟩
  · change (lines content.toList)[clip (0 + i)]? = some line
    rw [Nat.zero_add, clip_of_le (by omega), hline]
  · change byteLength before = start
    rw [← length_bytes, hbefore, hstart, Nat.zero_add]
  · simpa using htext

theorem pairwise_scanLines {inRaw : Bool} {number : Nat} {ls : List (List Char)}
    (hcount : number + ls.length ≤ maxCount) :
    (scanLines inRaw number ls).Pairwise Word.EndsBefore := by
  induction ls generalizing inRaw number with
  | nil => exact List.Pairwise.nil
  | cons line rest ih =>
    rw [List.length_cons] at hcount
    have hplaced := placed_words inRaw line
    rw [scanLines, List.pairwise_append, List.pairwise_map]
    refine ⟨hplaced.pairwise.imp_of_mem fun {v w} hv _ hle => Or.inr ⟨rfl, ?_⟩,
      ih (by omega), fun v hv w hw => Or.inl ?_⟩
    · obtain ⟨-, -, -, -, -, hword⟩ := hplaced.exists_split hv
      change v.1 + byteLength (ofAscii v.2).toList ≤ w.1
      rwa [(measures_of_ascii (ascii_ofAscii hword)).1, toList_ofAscii, List.length_map]
    · obtain ⟨-, -, rfl⟩ := List.mem_map.1 hv
      obtain ⟨i, _, _, _, _, hline, -, rfl⟩ := exists_of_mem_scanLines hw
      have hi := (List.getElem?_eq_some_iff.1 hline).1
      change clip number < clip (number + 1 + i)
      rw [clip_of_le (by omega), clip_of_le (by omega)]
      omega

theorem pairwise_codeWords {content : String} (hcount : (lines content.toList).length ≤ maxCount) :
    (codeWords content).Pairwise Word.EndsBefore :=
  pairwise_scanLines (by rwa [Nat.zero_add])

end ScriptIndex.Highlight

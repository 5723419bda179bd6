import Mathlib.Data.List.Forall2
import Mathlib.Order.Bounds.Defs
import ScriptIndex.Proofs.Command.Macros

/-!
# The documentation of a macro

The lines with the mark `@` directly above a macro are its documentation. The search goes up from the
macro and stops at the first line without the mark, so it reads the longest such block that ends at the
macro, and no line above the block makes a difference.
-/
namespace ScriptIndex.Command

open Text

/-- A line starts with the mark after spaces and tabs, and `rest` follows the mark. -/
def MarkedLine (line rest : List Char) : Prop :=
  ∃ indent, line = indent ++ '@' :: rest ∧ ∀ c ∈ indent, c = ' ' ∨ c = '\t'

def HasMark (content : String) (n : Nat) : Prop :=
  ∃ line rest, lineAt? content n = some line ∧ MarkedLine line rest

/-- What line `n` of a text says behind the mark, without the blanks around it. -/
def DocText (content : String) (n : Nat) (text : List Char) : Prop :=
  ∃ line rest, lineAt? content n = some line ∧ MarkedLine line rest ∧ Trimmed rest text

theorem docText?_eq_some_iff {line text : List Char} :
    docText? line = some text ↔ ∃ rest, MarkedLine line rest ∧ Trimmed rest text := by
  constructor
  · intro h
    rw [docText?] at h
    split at h
    · next rest hrest =>
      refine ⟨rest, ⟨line.takeWhile fun c => c == ' ' || c == '\t', ?_, ?_⟩,
        trim_eq_iff.1 (Option.some.inj h)⟩
      · rw [← hrest, List.takeWhile_append_dropWhile]
      · intro c hc
        simpa using List.mem_takeWhile_imp hc
    · cases h
  · rintro ⟨rest, ⟨indent, rfl, hindent⟩, htrim⟩
    have hspaces : ∀ c ∈ indent, (c == ' ' || c == '\t') = true := by simpa using hindent
    have hmark : ∀ c ∈ ('@' :: rest).head?, (c == ' ' || c == '\t') = false := by simp
    rw [docText?, dropWhile_append_rest hspaces hmark]
    exact congrArg some (trim_eq_iff.2 htrim)

section Block

variable {content : String}

theorem DocText.lineAt?_bind {n : Nat} {text : List Char} (h : DocText content n text) :
    (lineAt? content n).bind docText? = some text := by
  obtain ⟨line, rest, hline, hmarked, htrim⟩ := h
  rw [hline, Option.bind_some, docText?_eq_some_iff]
  exact ⟨rest, hmarked, htrim⟩

theorem HasMark.exists_docText {n : Nat} (h : HasMark content n) : ∃ text, DocText content n text := by
  obtain ⟨line, rest, hline, hmarked⟩ := h
  exact ⟨trim rest, line, rest, hline, hmarked, trimmed_trim rest⟩

theorem lineAt?_bind_of_not_hasMark {n : Nat} (h : ¬HasMark content n) :
    (lineAt? content n).bind docText? = none := by
  rw [Option.eq_none_iff_forall_ne_some]
  intro text htext
  obtain ⟨line, hline, hdoc⟩ := Option.bind_eq_some_iff.1 htext
  obtain ⟨rest, hmarked, -⟩ := docText?_eq_some_iff.1 hdoc
  exact h ⟨line, rest, hline, hmarked⟩

/-- The search stops where no mark is above. -/
theorem docBlock_eq_nil {n : Nat} (h : ∀ i, i + 1 = n → ¬HasMark content i) :
    docBlock (.ofText content.toList) n = [] := by
  cases n with
  | zero => rfl
  | succ n =>
    have hnone : ((NumberedLines.ofText content.toList).line? n).bind docText? = none :=
      lineAt?_bind_of_not_hasMark (h n rfl)
    rw [docBlock, hnone]

/-- The search passes over marked lines and keeps their texts, the nearest first. -/
theorem docBlock_add {b k : Nat} (h : ∀ i, b ≤ i → i < b + k → HasMark content i) :
    ∃ texts, List.Forall₂ (DocText content) (List.range' b k) texts ∧
      docBlock (.ofText content.toList) (b + k) =
        texts.reverse ++ docBlock (.ofText content.toList) b := by
  induction k with
  | zero => exact ⟨[], .nil, rfl⟩
  | succ k ih =>
    obtain ⟨texts, htexts, hblock⟩ := ih fun i hle hlt => h i hle (by omega)
    obtain ⟨text, htext⟩ := (h (b + k) (by omega) (by omega)).exists_docText
    have hbind : ((NumberedLines.ofText content.toList).line? (b + k)).bind docText? = some text :=
      htext.lineAt?_bind
    refine ⟨texts ++ [text], ?_, ?_⟩
    · rw [List.range'_1_concat]
      exact List.rel_append htexts (.cons htext .nil)
    · rw [← Nat.add_assoc, docBlock, hbind]
      simp [hblock]

/-- The marked lines that end at a line have a first one. -/
theorem exists_blockStart (content : String) (d : Nat) :
    ∃ b, b ≤ d ∧ (∀ i, b ≤ i → i < d → HasMark content i) ∧ ∀ i, i + 1 = b → ¬HasMark content i := by
  induction d with
  | zero => exact ⟨0, Nat.le_refl 0, by omega, by omega⟩
  | succ d ih =>
    by_cases hmark : HasMark content d
    · obtain ⟨b, hle, hmarks, hfirst⟩ := ih
      refine ⟨b, by omega, fun i hbi hid => ?_, hfirst⟩
      rcases Nat.lt_succ_iff_lt_or_eq.1 hid with hlt | rfl
      · exact hmarks i hbi hlt
      · exact hmark
    · refine ⟨d + 1, Nat.le_refl _, by omega, fun i hi => ?_⟩
      cases hi
      exact hmark

end Block

/-- Where two texts have the same lines, the search goes the same way in both. -/
theorem docBlock_congr {content edited : String} {b b' k : Nat}
    (hlines : ∀ i, i < k → lineAt? edited (b' + i) = lineAt? content (b + i))
    (hstart : docBlock (.ofText edited.toList) b' = docBlock (.ofText content.toList) b) :
    docBlock (.ofText edited.toList) (b' + k) = docBlock (.ofText content.toList) (b + k) := by
  induction k with
  | zero => exact hstart
  | succ k ih =>
    have hline : (NumberedLines.ofText edited.toList).line? (b' + k) =
        (NumberedLines.ofText content.toList).line? (b + k) := hlines k (by omega)
    rw [← Nat.add_assoc, ← Nat.add_assoc, docBlock, docBlock, hline,
      ih fun i hi => hlines i (by omega)]

theorem documentationAt_eq {index : NumberedLines} {n : Nat} {texts : List (List Char)}
    (h : docBlock index n = texts.reverse) :
    documentationAt index n = " ".intercalate ((texts.filter (!·.isEmpty)).map String.ofList) := by
  rw [documentationAt, h, List.reverse_reverse]

/-- The documentation of a macro on line `d` is what the lines from `b` on say, where `b` is the first line
of the marked block that ends at the macro. It joins the texts that are not empty, from top to bottom. The
lines above the block make no difference as long as they do not lengthen it, and without a mark directly
above the macro there is no documentation. -/
theorem documentation_is_marked_block {content : String} {numbered : List (Nat × Command)} {d : Nat}
    {c : Command} (hnumbered : MacrosByLine content numbered) (hc : (d, c) ∈ numbered) :
    ∃ b, IsLeast {b | b ≤ d ∧ ∀ i, b ≤ i → i < d → HasMark content i} b ∧
      (∃ texts, List.Forall₂ (DocText content) (List.range' b (d - b)) texts ∧
        c.documentation = " ".intercalate ((texts.filter (!·.isEmpty)).map String.ofList)) ∧
      (∀ (edited : String) (renumbered : List (Nat × Command)) (b' : Nat),
        MacrosByLine edited renumbered →
        (∀ i, i ≤ d - b → lineAt? edited (b' + i) = lineAt? content (b + i)) →
        (∀ i, i + 1 = b' → ¬HasMark edited i) → (b' + (d - b), c) ∈ renumbered) ∧
      ((∀ i, i + 1 = d → ¬HasMark content i) → c.documentation = "") := by
  rw [hnumbered.eq_numberedMacros, mem_numberedMacros_iff] at hc
  obtain ⟨line, name, rest, hline, hdeclares, rfl⟩ := hc
  obtain ⟨b, hle, hmarks, hfirst⟩ := exists_blockStart content d
  obtain ⟨k, rfl⟩ := Nat.exists_eq_add_of_le hle
  have hstart := docBlock_eq_nil hfirst
  obtain ⟨texts, htexts, hblock⟩ := docBlock_add hmarks
  rw [hstart, List.append_nil] at hblock
  refine ⟨b, ?_⟩
  rw [Nat.add_sub_cancel_left]
  refine ⟨⟨⟨hle, hmarks⟩, ?_⟩, ⟨texts, htexts, documentationAt_eq hblock⟩, ?_, ?_⟩
  · -- a smaller start would need a mark on the line above the block
    rintro lower ⟨-, hlower⟩
    by_contra hlt
    exact hfirst (b - 1) (by omega) (hlower (b - 1) (by omega) (by omega))
  · intro edited renumbered b' hrenumbered hlines habove
    have hedited : lineAt? edited (b' + k) = some line := (hlines k (Nat.le_refl k)).trans hline
    have hsame := docBlock_congr (fun i hi => hlines i (Nat.le_of_lt hi))
      ((docBlock_eq_nil habove).trans hstart.symm)
    rw [hrenumbered.eq_numberedMacros, mem_numberedMacros_iff]
    refine ⟨line, name, rest, hedited, hdeclares, ?_⟩
    rw [macroOn, macroOn, documentationAt_eq hblock, documentationAt_eq (hsame.trans hblock)]
  · intro habove
    exact documentationAt_eq ((docBlock_eq_nil habove).trans List.reverse_nil.symm)

/-- A block of three lines, one of them with the mark only, below a block that a blank line detaches. -/
theorem documentation_is_marked_block_detached :
    let content := "@ far\r\n\r\n\t@ One \r\n@\r\n \t@\u00a0two\r\n.macro m a\r\n.macro n\r"
    let c : Command :=
      { name := "m", kind := .macroCall, documentation := "One two", parameters := [⟨"a", .optional⟩] }
    MacrosByLine content (numberedMacros content) ∧ (5, c) ∈ numberedMacros content ∧
      ∃ b, IsLeast {b | b ≤ 5 ∧ ∀ i, b ≤ i → i < 5 → HasMark content i} b ∧
        ∃ texts, List.Forall₂ (DocText content) (List.range' b (5 - b)) texts ∧
          c.documentation = " ".intercalate ((texts.filter (!·.isEmpty)).map String.ofList) := by
  intro content c
  have hnumbered := macrosByLine_numberedMacros content
  have hc : (5, c) ∈ numberedMacros content := by decide +kernel
  obtain ⟨b, hleast, htexts, -⟩ := documentation_is_marked_block hnumbered hc
  exact ⟨hnumbered, hc, b, hleast, htexts⟩

end ScriptIndex.Command

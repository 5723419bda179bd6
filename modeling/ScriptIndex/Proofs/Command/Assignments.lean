import Mathlib.Data.List.Forall2
import ScriptIndex.Command.Assignments
import ScriptIndex.Proofs.Text.Blank

/-!
# Assembler constants split their lines

A line declares an assembler constant by what stands on the two sides of its first equals sign. Without
the blanks around them, the left side is a name and the right side is not empty. The constants of a
text are those of its lines, in order.
-/
namespace ScriptIndex.Command

open Text

/-- Name and value are what stands before and after the first equals sign of a line, trimmed. -/
def Assigns (line name value : List Char) : Prop :=
  ∃ before after, line = before ++ '=' :: after ∧ '=' ∉ before ∧
    Trimmed before name ∧ name ≠ [] ∧ (∀ c ∈ name, isWordChar c = true) ∧
    Trimmed after value ∧ value ≠ []

theorem assignment?_of_assigns {line name value : List Char} (h : Assigns line name value) :
    assignment? line = some (name, value) := by
  obtain ⟨before, after, rfl, -, ⟨left, right, rfl, hleft, hright, -, -⟩, hname, hword, htrim, hvalue⟩ := h
  have hline : left ++ (name ++ right) ++ '=' :: after = left ++ (name ++ (right ++ '=' :: after)) := by
    simp
  have hstart : ∀ c ∈ (name ++ (right ++ '=' :: after)).head?, isBlank c = false :=
    of_mem_head?_append hname (fun c hc => isBlank_of_isWordChar (hword c hc)) _
  have hafter : ∀ c ∈ (right ++ '=' :: after).head?, isWordChar c = false := by
    cases right with
    | nil => simp; decide
    | cons c right => simpa using isWordChar_of_isBlank (hright c List.mem_cons_self)
  have hmark : ∀ c ∈ ('=' :: after).head?, isBlank c = false := by
    simp
    decide
  rw [assignment?, hline, dropWhile_append_rest hleft hstart, takeWhile_append_rest hword hafter,
    dropWhile_append_rest hword hafter, dropWhile_append_rest hright hmark]
  simp [trim_eq_iff.2 htrim, hname, hvalue]

theorem assigns_of_assignment? {line name value : List Char}
    (h : assignment? line = some (name, value)) : Assigns line name value := by
  let blanks := line.takeWhile isBlank
  let afterName := (line.dropWhile isBlank).dropWhile isWordChar
  let gap := afterName.takeWhile isBlank
  rw [assignment?] at h
  split at h
  · next after hmark =>
    dsimp only at h
    split at h
    · cases h
    · next hne =>
      simp only [Bool.or_eq_true, List.isEmpty_iff, not_or] at hne
      simp only [Option.some.injEq, Prod.mk.injEq] at h
      obtain ⟨hname, hvalue⟩ := h
      rw [hname, hvalue] at hne
      have hblanks : ∀ c ∈ blanks, isBlank c = true := fun c hc => List.mem_takeWhile_imp hc
      have hgap : ∀ c ∈ gap, isBlank c = true := fun c hc => List.mem_takeWhile_imp hc
      have hword : ∀ c ∈ name, isWordChar c = true := by
        rw [← hname]
        exact fun c hc => List.mem_takeWhile_imp hc
      have hline : line = blanks ++ (name ++ gap) ++ '=' :: after := by
        rw [List.append_assoc, List.append_assoc, ← hmark, List.takeWhile_append_dropWhile, ← hname,
          List.takeWhile_append_dropWhile, List.takeWhile_append_dropWhile]
      refine ⟨blanks ++ (name ++ gap), after, hline, ?_, ⟨blanks, gap, rfl, hblanks, hgap, ?_, ?_⟩,
        hne.1, hword, trim_eq_iff.1 hvalue, hne.2⟩
      · intro hmem
        simp only [List.mem_append] at hmem
        rcases hmem with hleft | hmid | hright
        · exact absurd (hblanks _ hleft) (by decide)
        · exact absurd (hword _ hmid) (by decide)
        · exact absurd (hgap _ hright) (by decide)
      · exact fun c hc => isBlank_of_isWordChar (hword c (List.mem_of_mem_head? hc))
      · exact fun c hc => isBlank_of_isWordChar (hword c (List.mem_of_getLast? hc))
  · cases h

theorem assignment?_eq_some_iff {line name value : List Char} :
    assignment? line = some (name, value) ↔ Assigns line name value :=
  ⟨assigns_of_assignment?, assignment?_of_assigns⟩

def assemblerConstant (pair : List Char × List Char) : Command where
  name := String.ofList pair.1
  kind := .assemblerConstant
  detail := String.ofList pair.2

/-- The assembler constants of a text are those of its lines, in order: one for each line that assigns a
value to a name, and no other. -/
theorem extractAssemblerConstants_splits_lines (content : String) :
    ∃ found : List (Option (List Char × List Char)),
      List.Forall₂ (fun line pair => ∀ name value, pair = some (name, value) ↔ Assigns line name value)
        (lines content.toList) found ∧
      extractAssemblerConstants content = (found.filterMap id).map assemblerConstant := by
  refine ⟨(lines content.toList).map assignment?, ?_, ?_⟩
  · rw [List.forall₂_map_right_iff, List.forall₂_same]
    intro line _ name value
    exact assignment?_eq_some_iff
  · rw [extractAssemblerConstants, List.filterMap_map, List.map_filterMap]
    rfl

-- no value, a word too many, a mark inside the value, and other blanks than spaces
example :
    let content := "A = \n B C = 1\n\tD = x = \u2003\r\n\u00a0É\u3000=#é # no comment\r"
    (extractAssemblerConstants content).map (fun c => (c.name, c.detail)) =
      [("D", "x ="), ("É", "#é # no comment")] := by
  decide +kernel

end ScriptIndex.Command

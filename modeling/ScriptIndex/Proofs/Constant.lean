import Mathlib.Algebra.Group.Nat.Defs
import Mathlib.Data.List.FinRange
import ScriptIndex.Proofs.Declaration

/-!
# Every constant of a text

A site of a constant is a line of a text with the parts of one declaration in its code. The constants of
a text that is not too long to count are the names at its sites, each site once and in text order.
-/
namespace ScriptIndex.Constant

open Text Declaration

/-- A place where a text declares a constant. -/
structure Site (content : String) where
  number : Fin (lines content.toList).length
  parts : Parts "const".toList '=' (Comment.before (lines content.toList)[number])

namespace Site

variable {content : String}

/-- Text order: by line, then by the offset of the keyword. -/
def Before (x y : Site content) : Prop :=
  x.number < y.number ∨ x.number = y.number ∧ x.parts.start < y.parts.start

def constant (resource : String) (x : Site content) : Constant where
  name := String.ofList x.parts.name
  position := ⟨x.number, x.parts.offset⟩
  resource := resource

/-- In a text that is not too long to count, the place of a name is reported as it is. -/
theorem clipped_offset (hsize : content.utf8ByteSize < 2 ^ 32) (x : Site content) :
    Position.clipped x.number x.parts.offset = ⟨x.number, x.parts.offset⟩ := by
  have hend := x.parts.namedAt.le_byteLength
  have hrow : (lines content.toList)[x.number.val]? = some (lines content.toList)[x.number] := by simp
  exact clipped_of_code hsize hrow (by omega)

end Site

/-- The constants of a text by the numbers of its lines. -/
theorem extract_eq_finRange (content resource : String) :
    extract content resource =
      (List.finRange (lines content.toList).length).flatMap fun number =>
        (inLine (lines content.toList)[number]).map fun found =>
          ⟨String.ofList found.2, Position.clipped number found.1, resource⟩ := by
  have hnumbers : (lines content.toList).zipIdx =
      (List.finRange (lines content.toList).length).map fun number =>
        ((lines content.toList)[number], number.val) := by
    apply List.ext_getElem <;> simp
  rw [extract, hnumbers, List.flatMap_map]

/-- The constants of a text that is not too long to count are those at its sites: every declaration
gives one, line by line and from left to right, and there is no other. -/
theorem extract_lists_all_sites (content resource : String) (hsize : content.utf8ByteSize < 2 ^ 32) :
    ∃ sites : List (Site content), sites.Pairwise Site.Before ∧ (∀ x, x ∈ sites) ∧
      extract content resource = sites.map (Site.constant resource) := by
  choose parts hsorted hmem hfound using
    fun number : Fin (lines content.toList).length =>
      listsAll_findAll isRule (Comment.before (lines content.toList)[number])
  refine ⟨(List.finRange _).flatMap fun number => (parts number).map (Site.mk number), ?_, ?_, ?_⟩
  · rw [List.pairwise_flatMap]
    constructor
    · intro number _
      rw [List.pairwise_map]
      exact (hsorted number).imp fun hlt => .inr ⟨rfl, hlt⟩
    · apply (List.pairwise_lt_finRange _).imp
      intro number later hlt x hx y hy
      obtain ⟨p, -, rfl⟩ := List.mem_map.1 hx
      obtain ⟨q, -, rfl⟩ := List.mem_map.1 hy
      exact .inl hlt
  · rintro ⟨number, p⟩
    simp only [List.mem_flatMap, List.mem_map]
    exact ⟨number, List.mem_finRange number, p, hmem number p, rfl⟩
  · rw [extract_eq_finRange, List.map_flatMap]
    apply List.flatMap_congr
    intro number _
    rw [inLine, hfound number, List.map_map, List.map_map]
    apply List.map_congr_left
    intro p _
    have hplace := Site.clipped_offset hsize ⟨number, p⟩
    simp [Site.constant, hplace]

/-- A constant named by the keyword, one behind a declaration that has no mark, one behind another one, a
keyword inside a longer word, and one in a comment. -/
theorem extract_lists_all_sites_keywords :
    let content := "const const=const A const É  =1 äconst B=\n\tconst C = # const D =\n"
    content.utf8ByteSize < 2 ^ 32 ∧
      extract content "r" = [⟨"const", ⟨0, 6⟩, "r"⟩, ⟨"É", ⟨0, 26⟩, "r"⟩, ⟨"C", ⟨1, 7⟩, "r"⟩] ∧
      ∃ sites : List (Site content), sites.Pairwise Site.Before ∧ (∀ x, x ∈ sites) ∧
        extract content "r" = sites.map (Site.constant "r") := by
  intro content
  have hsize : content.utf8ByteSize < 2 ^ 32 := by decide +kernel
  exact ⟨hsize, by decide +kernel, extract_lists_all_sites content "r" hsize⟩

end ScriptIndex.Constant

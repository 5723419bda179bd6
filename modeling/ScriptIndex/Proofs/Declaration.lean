import Mathlib.Algebra.Group.Nat.Defs
import ScriptIndex.Constant
import ScriptIndex.Proofs.Symbol

/-!
# Where declared names stand

The search for declarations reports a name with the number of bytes before it. This says that the name
stands there, in the part of its line before the comment, as a longest run of word characters, for
constants, blocks and labels alike. In a text that is not too long to count, the position and the length
of a name then cut it out of its line.
-/
namespace ScriptIndex

open Text

namespace Declaration

/-- A name stands in a run of characters after a number of bytes. -/
def StandsAt (cs : List Char) (offset : Nat) (name : List Char) : Prop :=
  name ≠ [] ∧ ∃ front rest, cs = front ++ name ++ rest ∧ byteLength front = offset

end Declaration

/-- A name stands outside the comments of a text, and this is where, as far as it can be counted. -/
def Declared (text name : String) (position : Position) : Prop :=
  ∃ number row offset, (lines text.toList)[number]? = some row ∧
    Declaration.StandsAt (Comment.before row) offset name.toList ∧
    position = Position.clipped number offset

/-- A name is declared at a position, and it is a longest run of word characters there. -/
def Named (text name : String) (position : Position) : Prop :=
  ∃ number row offset, (lines text.toList)[number]? = some row ∧
    NamedAt (Comment.before row) offset name.toList ∧ position = Position.clipped number offset

theorem Named.declared {text name : String} {position : Position} (h : Named text name position) :
    Declared text name position := by
  obtain ⟨number, row, offset, hrow, ⟨front, rest, hcode, hfront, hrun⟩, hposition⟩ := h
  exact ⟨number, row, offset, hrow, ⟨hrun.ne_nil, front, rest, by simpa using hcode, hfront⟩, hposition⟩

theorem Constant.isRule : Declaration.IsRule "const".toList '=' :=
  ⟨by decide, by decide, by decide, by decide⟩

theorem Constant.named_of_mem_extract {text resource : String} {c : Constant}
    (h : c ∈ extract text resource) : c.resource = resource ∧ Named text c.name c.position := by
  simp only [extract, List.mem_flatMap, List.mem_map, Prod.exists] at h
  obtain ⟨row, number, hrow, offset, name, hname, rfl⟩ := h
  refine ⟨rfl, number, row, offset, List.mk_mem_zipIdx_iff_getElem?.1 hrow, ?_, rfl⟩
  rw [String.toList_ofList]
  exact (Declaration.listsAll_findAll isRule _).namedAt hname

theorem Symbol.named_of_mem_extract {text resource : String} {x : Symbol}
    (h : x ∈ extract text resource) : x.resource = resource ∧ Named text x.name x.position := by
  simp only [extract, List.mem_flatMap, List.mem_map, Prod.exists] at h
  obtain ⟨row, number, hrow, kind, offset, name, hname, rfl⟩ := h
  refine ⟨rfl, number, row, offset, List.mk_mem_zipIdx_iff_getElem?.1 hrow, ?_, rfl⟩
  rw [String.toList_ofList]
  exact (lineSymbols_inLine row).namedAt hname

theorem Constant.declared_of_mem_extract {text resource : String} {c : Constant}
    (h : c ∈ extract text resource) : c.resource = resource ∧ Declared text c.name c.position :=
  ⟨(named_of_mem_extract h).1, (named_of_mem_extract h).2.declared⟩

theorem Symbol.declared_of_mem_extract {text resource : String} {x : Symbol}
    (h : x ∈ extract text resource) : x.resource = resource ∧ Declared text x.name x.position :=
  ⟨(named_of_mem_extract h).1, (named_of_mem_extract h).2.declared⟩

/-- Two positions cut a word out of a line of a text, before the comment of the line. -/
structure CutOut (text word : String) (start stop : Position) : Prop where
  sameLine : stop.line = start.line
  cut : ∃ row, (lines text.toList)[start.line]? = some row ∧
    (bytes row).extract start.character stop.character = bytes word.toList ∧
    stop.character ≤ byteLength (Comment.before row)

theorem Declaration.StandsAt.extract_bytes {cs name : List Char} {offset : Nat}
    (h : StandsAt cs offset name) (rest : List Char) :
    (bytes (cs ++ rest)).extract offset (offset + byteLength name) = bytes name ∧
      offset + byteLength name ≤ byteLength cs := by
  obtain ⟨-, front, back, rfl, rfl⟩ := h
  constructor
  · rw [List.append_assoc, List.append_assoc]
    exact Text.extract_bytes front name (back ++ rest)
  · simp only [byteLength_append]
    omega

theorem Declared.ne_empty {text name : String} {position : Position}
    (h : Declared text name position) : name ≠ "" := by
  obtain ⟨number, row, offset, -, ⟨hname, -⟩, -⟩ := h
  rintro rfl
  exact hname rfl

/-- In a text that is not too long to count, a declared name is cut out by its position and length. -/
theorem Declared.cutOut {text name : String} {position : Position}
    (h : Declared text name position) (hsize : text.utf8ByteSize < 2 ^ 32) :
    CutOut text name position (position.shift name.utf8ByteSize) := by
  obtain ⟨number, row, offset, hrow, hstands, rfl⟩ := h
  obtain ⟨rest, hbefore⟩ : Comment.before row <+: row := takeBytes_isPrefix _ _
  have hextract := hstands.extract_bytes rest
  rw [hbefore, byteLength_toList] at hextract
  have hstart : Position.clipped number offset = ⟨number, offset⟩ :=
    clipped_of_code hsize hrow (by omega)
  have hstop : (Position.clipped number offset).shift name.utf8ByteSize =
      ⟨number, offset + name.utf8ByteSize⟩ := by
    have hend : Position.clipped number (offset + name.utf8ByteSize) =
        ⟨number, offset + name.utf8ByteSize⟩ := clipped_of_code hsize hrow (by omega)
    rw [hstart]
    exact congrArg (Position.mk number) (congrArg Position.character hend)
  rw [hstop, hstart]
  exact ⟨rfl, row, hrow, hextract.1, hextract.2⟩

end ScriptIndex

import ScriptIndex.Proofs.Cursor.WordAt
import ScriptIndex.Proofs.Declaration

/-!
# Declared names under the cursor

Declarations allow every Unicode word character in a name, the cursor knows only words in ASCII. A name
in ASCII that stands alone for the one stands alone for the other too: what stands before it and after it
is no word character, so none of its bytes is a word byte. So the cursor finds the name of a constant or
a symbol anywhere on it, from its position to right behind its last character.
-/
namespace ScriptIndex

open Text

/-- The cursor finds a name at each column from a position to the end of the name. -/
def Cursor.FindsName (content name : String) (position : Position) : Prop :=
  ∀ column, position.character ≤ column → column ≤ position.character + name.utf8ByteSize →
    wordAt content position.line column = name

theorem Named.findsName {content name : String} {position : Position}
    (h : Named content name position) (hsize : content.utf8ByteSize < 2 ^ 32)
    (hascii : ∀ c ∈ name.toList, c.toNat < 128) : Cursor.FindsName content name position := by
  obtain ⟨number, row, offset, hrow, hnamed, rfl⟩ := h
  have hend := hnamed.le_byteLength
  have hplace : Position.clipped number offset = ⟨number, offset⟩ :=
    clipped_of_code hsize hrow (by omega)
  obtain ⟨front, rest, hcode, rfl, hrun⟩ := hnamed
  have hword := hrun.wordRun hascii
  rw [hplace]
  intro column hfrom hto
  dsimp only at hfrom hto ⊢
  rw [byteLength_toList] at hend
  obtain ⟨i, rfl⟩ := Nat.exists_eq_add_of_le hfrom
  have hi : i ≤ (bytes name.toList).length := by
    rw [length_bytes, byteLength_toList]
    omega
  have hfound : Cursor.wordAround (bytes (Comment.before row)) (byteLength front + i) =
      bytes name.toList := by
    rw [hcode, bytes_append, bytes_append, ← length_bytes front]
    exact Cursor.wordAround_of_run hword hi
  rw [Cursor.wordAt_of_code hrow, if_pos (by omega), hfound]
  exact ofAscii_bytes fun b hb => toNat_lt_of_isWordByte (hword.word b hb)

/-- Every constant and every symbol with a name in ASCII is found by the cursor at each column of its
name. -/
theorem declared_names_found (content resource : String) (hsize : content.utf8ByteSize < 2 ^ 32) :
    (∀ c ∈ Constant.extract content resource, (∀ char ∈ c.name.toList, char.toNat < 128) →
      Cursor.FindsName content c.name c.position) ∧
    ∀ x ∈ Symbol.extract content resource, (∀ char ∈ x.name.toList, char.toNat < 128) →
      Cursor.FindsName content x.name x.position := by
  constructor
  · intro c hc hascii
    exact (Constant.named_of_mem_extract hc).2.findsName hsize hascii
  · intro x hx hascii
    exact (Symbol.named_of_mem_extract hx).2.findsName hsize hascii

/-- A constant behind a wide blank and a label behind a character of two bytes, found at both ends. -/
theorem declared_names_found_spaced :
    let content := "x\nconst\u3000A_1\u3000= 2\n\u00a0Ende(global):"
    content.utf8ByteSize < 2 ^ 32 ∧
      (⟨"A_1", ⟨1, 8⟩, "r"⟩ : Constant) ∈ Constant.extract content "r" ∧
      (⟨"Ende", ⟨2, 2⟩, "r", .label⟩ : Symbol) ∈ Symbol.extract content "r" ∧
      Cursor.wordAt content 1 8 = "A_1" ∧ Cursor.wordAt content 1 11 = "A_1" ∧
      Cursor.wordAt content 2 2 = "Ende" ∧ Cursor.wordAt content 2 6 = "Ende" := by
  intro content
  have hsize : content.utf8ByteSize < 2 ^ 32 := by decide +kernel
  have hconstant : (⟨"A_1", ⟨1, 8⟩, "r"⟩ : Constant) ∈ Constant.extract content "r" := by
    decide +kernel
  have hlabel : (⟨"Ende", ⟨2, 2⟩, "r", .label⟩ : Symbol) ∈ Symbol.extract content "r" := by
    decide +kernel
  obtain ⟨hconstants, hsymbols⟩ := declared_names_found content "r" hsize
  have hname := hconstants _ hconstant (by simp)
  have hend := hsymbols _ hlabel (by simp)
  exact ⟨hsize, hconstant, hlabel, hname 8 (by decide) (by decide), hname 11 (by decide) (by decide),
    hend 2 (by decide) (by decide), hend 6 (by decide) (by decide)⟩

end ScriptIndex

import ScriptIndex.Text.Bytes
import ScriptIndex.Text.Lines

/-!
# Columns in UTF-16 units

Editors count the columns of a line in UTF-16 code units, this library counts them in UTF-8 bytes.
-/
namespace ScriptIndex.Text

def units (c : Char) : Nat := if c.toNat < 0x10000 then 1 else 2

def unitLength (cs : List Char) : Nat := cs.foldr (fun c n => units c + n) 0

/-- The characters before byte `b`, when a character starts there or the text ends there. -/
def charsBefore? : Nat → List Char → Option (List Char)
  | 0, _ => some []
  | _ + 1, [] => none
  | b + 1, c :: cs =>
    if c.utf8Size ≤ b + 1 then (charsBefore? (b + 1 - c.utf8Size) cs).map (c :: ·) else none

/-- The byte column of a UTF-16 column: the first character boundary at or after it. A column past
the end of the line keeps its distance to the end. -/
def bytesOfUnits : List Char → Nat → Nat
  | [], u => u
  | _ :: _, 0 => 0
  | c :: cs, u + 1 => c.utf8Size + bytesOfUnits cs (u + 1 - units c)

/-- The UTF-16 column of a byte column; a column that is no character boundary of the line counts
as its end. -/
def unitsOfBytes (line : List Char) (b : Nat) : Nat :=
  clip (unitLength ((charsBefore? b line).getD line))

/-- The byte column of a cursor; a line that does not exist leaves it as it is. -/
def bytesAtCursor (content : List Char) (line character : Nat) : Nat :=
  match (lines content)[line]? with
  | some text => bytesOfUnits text character
  | none => character

end ScriptIndex.Text

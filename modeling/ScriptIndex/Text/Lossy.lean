import ScriptIndex.Text.Bytes

/-!
# Bytes shown as a text
-/
namespace ScriptIndex.Text

/-- The character that a byte sequence starts with, and how many bytes it takes. -/
def firstChar? (bs : List UInt8) : Option (Char × Nat) :=
  [1, 2, 3, 4].findSome? fun k =>
    ((decode? (bs.take k)).bind fun text => text.toList.head?).map fun c => (c, k)

/-- The characters of a byte sequence after its first `skip` bytes. -/
def shownFrom : Nat → List UInt8 → List Char
  | _, [] => []
  | skip + 1, _ :: bs => shownFrom skip bs
  | 0, b :: bs =>
    match firstChar? (b :: bs) with
    | some (c, k) => c :: shownFrom (k - 1) bs
    | none => '�' :: shownFrom 0 bs

/-- The text of a byte sequence, with U+FFFD for bytes that belong to no character. -/
def shown (bs : List UInt8) : String := (decode? bs).getD (String.ofList (shownFrom 0 bs))

end ScriptIndex.Text

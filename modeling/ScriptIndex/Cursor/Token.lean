import ScriptIndex.Comment
import ScriptIndex.Text.Lines
import ScriptIndex.Text.Word

/-!
# The word under the cursor

The word is read off the bytes of the line before its comment. A cursor just behind a word still
belongs to it.
-/
namespace ScriptIndex.Cursor

open Text

/-- The bytes of a line before its comment, when the line exists. -/
def codeBytes? (content : String) (line : Nat) : Option (List UInt8) :=
  ((lines content.toList)[line]?).map fun text => bytes (Comment.before text)

def wordBefore (bs : List UInt8) : List UInt8 := (bs.reverse.takeWhile isWordByte).reverse

/-- The run of word bytes around a column: those before it and those from it on. -/
def wordAround (bs : List UInt8) (column : Nat) : List UInt8 :=
  wordBefore (bs.take column) ++ (bs.drop column).takeWhile isWordByte

/-- The word at a line and a byte column; empty when there is none. -/
def wordAt (content : String) (line column : Nat) : String :=
  match codeBytes? content line with
  | none => ""
  | some bs => if column ≤ bs.length then ofAscii (wordAround bs column) else ""

end ScriptIndex.Cursor

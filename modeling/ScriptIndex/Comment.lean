import ScriptIndex.Text.Bytes

/-!
# Comments

A comment starts at the first `#` or `//` of a line that no backslash hides, and ends with the line.
A backslash hides the byte after it. Every byte that matters here is ASCII, so the cut never falls
inside a character.
-/
namespace ScriptIndex.Comment

/-- Number of bytes before the comment, all of them when there is none. -/
def start : List UInt8 → Nat
  | [] => 0
  | [b] => if b = 0x23 then 0 else 1
  | b :: c :: bs =>
    if b = 0x5C then start bs + 2
    else if b = 0x23 then 0
    else if b = 0x2F ∧ c = 0x2F then 0
    else start (c :: bs) + 1

def before (line : List Char) : List Char := Text.takeBytes (start (Text.bytes line)) line

end ScriptIndex.Comment

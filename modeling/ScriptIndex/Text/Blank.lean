/-!
# Blanks

A blank is a character with the Unicode property White_Space.
-/
namespace ScriptIndex.Text

def isBlank (c : Char) : Bool :=
  let n := c.toNat
  (9 ≤ n && n ≤ 13) || n == 0x20 || n == 0x85 || n == 0xA0 || n == 0x1680 ||
    (0x2000 ≤ n && n ≤ 0x200A) || n == 0x2028 || n == 0x2029 || n == 0x202F || n == 0x205F ||
    n == 0x3000

def trimEnd (cs : List Char) : List Char := (cs.reverse.dropWhile isBlank).reverse

def trim (cs : List Char) : List Char := trimEnd (cs.dropWhile isBlank)

/-- The non-empty pieces between the characters that `sep` holds of. -/
def fields (sep : Char → Bool) (cs : List Char) : List (List Char) := go [] cs
where
  /-- `word` is the piece read so far, last character first. -/
  go (word : List Char) : List Char → List (List Char)
    | [] => emit word []
    | c :: cs => if sep c then emit word (go [] cs) else go (c :: word) cs
  /-- Puts a piece in front unless it is empty. -/
  emit (word : List Char) (rest : List (List Char)) : List (List Char) :=
    if word.isEmpty then rest else word.reverse :: rest

end ScriptIndex.Text

import ScriptIndex.Text.Category

/-!
# Quoted texts

A text is shown in double quotes. Characters that cannot be shown, and those that extend the
character before them, are written by their code point.
-/
namespace ScriptIndex.Text

/-- Code points that have no shape of their own; the space has one. -/
def isUnprintable (n : Nat) : Bool :=
  n != 0x20 &&
    (inRanges (tableRanges categoryTable ["cc", "cf", "co", "zl", "zp", "zs"]) n ||
      inRanges (readRanges graphemeExtendTable) n || inRanges unassigned n)

def quotedChar (c : Char) : List Char :=
  let n := c.toNat
  if n == 0 then ['\\', '0']
  else if c == '\t' then ['\\', 't']
  else if c == '\r' then ['\\', 'r']
  else if c == '\n' then ['\\', 'n']
  else if c == '\x22' then ['\\', '\x22']
  else if c == '\\' then ['\\', '\\']
  else if 0x20 ≤ n && n < 0x7F then [c]
  else if isUnprintable n then "\\u\x7b".toList ++ Nat.toDigits 16 n ++ ['\x7d']
  else [c]

def quoted (text : String) : String :=
  "\"" ++ String.ofList (text.toList.flatMap quotedChar) ++ "\""

end ScriptIndex.Text

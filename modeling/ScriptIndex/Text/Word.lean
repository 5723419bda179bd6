import ScriptIndex.Text.WordRanges

/-!
# Word bytes and word characters

The cursor and the highlighter know words of ASCII letters, digits and underscores. Declarations
allow every Unicode word character in a name.
-/
namespace ScriptIndex.Text

def isWordStartByte (b : UInt8) : Bool :=
  (0x41 ≤ b && b ≤ 0x5A) || (0x61 ≤ b && b ≤ 0x7A) || b == 0x5F

/-- An ASCII letter, digit or underscore. -/
def isWordByte (b : UInt8) : Bool := isWordStartByte b || (0x30 ≤ b && b ≤ 0x39)

def inRanges (ranges : List (Nat × Nat)) (n : Nat) : Bool :=
  ranges.any fun r => r.1 ≤ n && n ≤ r.2

/-- An ASCII letter, digit or underscore, as a character. -/
def isAsciiWord (c : Char) : Bool :=
  let n := c.toNat
  (0x41 ≤ n && n ≤ 0x5A) || (0x61 ≤ n && n ≤ 0x7A) || n == 0x5F || (0x30 ≤ n && n ≤ 0x39)

def isWordChar (c : Char) : Bool :=
  if c.toNat < 128 then isAsciiWord c else inRanges wordRanges c.toNat

end ScriptIndex.Text

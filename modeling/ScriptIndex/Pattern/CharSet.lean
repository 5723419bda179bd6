import ScriptIndex.Text.CaseFold
import ScriptIndex.Text.Category

/-!
# Sets of characters in a pattern

A set is kept as it was written, so that membership is decided by the operations of the class and
not by a list of all members.
-/
namespace ScriptIndex.Pattern

open Text

inductive CharSet where
  | empty
  | range (lo hi : Nat)
  /-- The code points of a table. -/
  | table (ranges : List (Nat × Nat))
  /-- The characters that may stand in a declared name. -/
  | word
  | blank
  | union (a b : CharSet)
  | inter (a b : CharSet)
  | diff (a b : CharSet)
  | symmDiff (a b : CharSet)
  | compl (a : CharSet)
  /-- The members of a set in every case. -/
  | anyCase (a : CharSet)
  deriving DecidableEq, Repr

namespace CharSet

def contains : CharSet → Nat → Bool
  | empty, _ => false
  | range lo hi, n => lo ≤ n && n ≤ hi
  | table ranges, n => inRanges ranges n
  | word, n => isWordChar (Char.ofNat n)
  | blank, n => isBlank (Char.ofNat n)
  | union a b, n => a.contains n || b.contains n
  | inter a b, n => a.contains n && b.contains n
  | diff a b, n => a.contains n && !b.contains n
  | symmDiff a b, n => a.contains n != b.contains n
  | compl a, n => !a.contains n
  | anyCase a, n => (caseVariants n).any fun m => a.contains m

def single (c : Char) : CharSet := range c.toNat c.toNat

def ranges (rs : List (Nat × Nat)) : CharSet := table rs

def ascii : CharSet := range 0 0x7F

def asciiWord : CharSet := ranges [(0x30, 0x39), (0x41, 0x5A), (0x5F, 0x5F), (0x61, 0x7A)]

def asciiBlank : CharSet := ranges [(9, 13), (0x20, 0x20)]

def asciiDigit : CharSet := range 0x30 0x39

/-- The decimal digits of all scripts. -/
def digit : CharSet := table (tableRanges categoryTable ["nd"])

def named? (name : String) : Option CharSet :=
  match name with
  | "alnum" => some (ranges [(0x30, 0x39), (0x41, 0x5A), (0x61, 0x7A)])
  | "alpha" => some (ranges [(0x41, 0x5A), (0x61, 0x7A)])
  | "ascii" => some ascii
  | "blank" => some (ranges [(9, 9), (0x20, 0x20)])
  | "cntrl" => some (ranges [(0, 0x1F), (0x7F, 0x7F)])
  | "digit" => some asciiDigit
  | "graph" => some (range 0x21 0x7E)
  | "lower" => some (range 0x61 0x7A)
  | "print" => some (range 0x20 0x7E)
  | "punct" => some (ranges [(0x21, 0x2F), (0x3A, 0x40), (0x5B, 0x60), (0x7B, 0x7E)])
  | "space" => some asciiBlank
  | "upper" => some (range 0x41 0x5A)
  | "word" => some asciiWord
  | "xdigit" => some (ranges [(0x30, 0x39), (0x41, 0x46), (0x61, 0x66)])
  | _ => none

/-- Whether all members are below 128, among the code points that fit a byte. -/
def isAscii (s : CharSet) : Bool := (List.range 128).all fun i => !s.contains (i + 128)

end CharSet
end ScriptIndex.Pattern

import ScriptIndex.Pattern.Basic

/-!
# Reading position in a pattern

A reader walks over the text of a pattern, keeps the flags in force, and counts the groups that it
opens. A text that the grammar does not admit has no reading.
-/
namespace ScriptIndex.Pattern

open Text

structure Flags where
  /-- Letters match in every case. -/
  anyCase : Bool := false
  /-- `^` and `$` match at line ends. -/
  lineEnds : Bool := false
  /-- A dot matches a line feed. -/
  dotAll : Bool := false
  /-- Repetitions are lazy, and greedy with a question mark. -/
  swapGreed : Bool := false
  unicode : Bool := true
  /-- A carriage return ends a line too. -/
  returns : Bool := false
  /-- Blanks and comments of the pattern are skipped. -/
  spaced : Bool := false
  deriving DecidableEq, Repr

structure ReadState where
  rest : List Char
  flags : Flags := {}
  /-- Number of capturing groups opened so far. -/
  groups : Nat := 0
  names : List (List Char) := []

abbrev Reader := StateT ReadState Option

namespace Reader

def peek : Reader (Option Char) := return (← get).rest.head?

def char : Reader Char := do
  match (← get).rest with
  | [] => failure
  | c :: _ => return c

def bump : Reader Unit := modify fun st => { st with rest := st.rest.tail }

def bumpIf (text : String) : Reader Bool := do
  let st ← get
  if text.toList.isPrefixOf st.rest then
    set { st with rest := st.rest.drop text.length }
    return true
  return false

def dropSpace : List Char → List Char := go false
where
  /-- `comment` tells whether a comment is open. -/
  go (comment : Bool) : List Char → List Char
    | [] => []
    | c :: cs =>
      if comment then go (c != '\n') cs
      else if isBlank c then go false cs
      else if c == '#' then go true cs
      else c :: cs

def space : Reader Unit := modify fun st =>
  if st.flags.spaced then { st with rest := dropSpace st.rest } else st

def bumpSpace : Reader Unit := do bump; space

/-- Passes one character and the space after it; the pattern must not end there. -/
def bumpSpace! : Reader Unit := do
  bumpSpace
  if (← get).rest.isEmpty then failure

/-- The character after the current one and the space behind it. -/
def peekSpace : Reader (Option Char) := do
  let st ← get
  let rest := st.rest.tail
  return (if st.flags.spaced then dropSpace rest else rest).head?

end Reader

end ScriptIndex.Pattern

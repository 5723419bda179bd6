import ScriptIndex.Pattern.CharSet

/-!
# Patterns

A pattern is a regular expression. Alternatives and repetitions are ordered by preference: the
earlier alternative, and one more round of a greedy repetition, come first.
-/
namespace ScriptIndex.Pattern

/-- How the words on the two sides of a place relate. -/
inductive WordEdge where
  | boundary
  | inside
  | start
  | stop
  | startHalf
  | stopHalf
  deriving DecidableEq, Repr

/-- A condition on a place in a line. -/
inductive Look where
  | startText
  | stopText
  | startLine
  | stopLine
  /-- The start of a line that a carriage return may end. -/
  | startReturnLine
  | stopReturnLine
  | word (edge : WordEdge) (unicode : Bool)
  deriving DecidableEq, Repr

inductive Node where
  | empty
  | set (chars : CharSet)
  | look (condition : Look)
  | group (index : Nat) (body : Node)
  | seq (first second : Node)
  | alt (first second : Node)
  /-- At least `least` and at most `most` rounds. -/
  | times (least : Nat) (most : Option Nat) (greedy : Bool) (body : Node)
  deriving DecidableEq, Repr

/-- Whether the sides of a place satisfy an edge; a side is whether a word character stands there. -/
def WordEdge.holds (edge : WordEdge) (before after : Bool) : Bool :=
  match edge with
  | boundary => before != after
  | inside => before == after
  | start => !before && after
  | stop => before && !after
  | startHalf => !before
  | stopHalf => !after

def Look.holds (condition : Look) (before after : Option Char) : Bool :=
  match condition with
  | startText => before.isNone
  | stopText => after.isNone
  | startLine => before.all (· == '\n')
  | stopLine => after.all (· == '\n')
  | startReturnLine =>
    before.isNone || before == some '\n' || (before == some '\r' && after != some '\n')
  | stopReturnLine =>
    after.isNone || after == some '\r' || (after == some '\n' && before != some '\r')
  | word edge unicode =>
    let isWord := if unicode then Text.isWordChar else Text.isAsciiWord
    edge.holds (before.any isWord) (after.any isWord)

def Node.seqOf : List Node → Node
  | [] => .empty
  | [a] => a
  | a :: as => .seq a (seqOf as)

end ScriptIndex.Pattern

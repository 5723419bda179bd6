import ScriptIndex.Text.Bytes

/-!
# Positions

A position is a line number and a column in bytes, both counted from zero and clipped to 32 bits.
-/
namespace ScriptIndex

structure Position where
  line : Nat
  character : Nat
  deriving DecidableEq, Repr

namespace Position

def clipped (line column : Nat) : Position := ⟨Text.clip line, Text.clip column⟩

def origin : Position := ⟨0, 0⟩

/-- The position `n` bytes further on the same line. -/
def shift (p : Position) (n : Nat) : Position := ⟨p.line, Text.clip (p.character + n)⟩

def text (p : Position) : String := toString p.line ++ ":" ++ toString p.character

def compare (p q : Position) : Ordering :=
  (Ord.compare p.line q.line).then (Ord.compare p.character q.character)

end Position
end ScriptIndex

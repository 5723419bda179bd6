import ScriptIndex.Pattern.Machine

/-!
# Matching by backtracking

A node is tried at a place, and where it ends a continuation goes on. Where there is a choice, the
preferred branch is tried first, and the other one only if that fails. This is what a pattern means;
it tries the same thing many times over, which the machine does not.
-/
namespace ScriptIndex.Pattern

/-- A place in a line with all that follows it. -/
structure Point where
  before : Option Char
  offset : Nat
  rest : List Char

namespace Point

def place (p : Point) : Place := ⟨p.before, p.rest.head?, p.offset⟩

def next (p : Point) (c : Char) (cs : List Char) : Point := ⟨some c, p.offset + c.utf8Size, cs⟩

/-- One character further on, if that character is in the set. -/
def pass? (p : Point) (chars : CharSet) : Option Point :=
  match p.rest with
  | c :: cs => if chars.contains c.toNat then some (p.next c cs) else none
  | [] => none

theorem pass?_eq_some_iff {p q : Point} {chars : CharSet} :
    p.pass? chars = some q ↔
      ∃ c cs, p.rest = c :: cs ∧ chars.contains c.toNat = true ∧ q = p.next c cs := by
  grind [pass?]

end Point

/-- How far a match has come, and the places it has kept. -/
structure Way extends Point where
  slots : Slots

namespace Way

def save (w : Way) (slot : Nat) : Way :=
  { w with slots := w.slots.setIfInBounds slot (some w.offset) }

end Way

/-- What goes on where a node has ended. -/
abbrev Continuation := Way → Option Slots

def prefer (greedy : Bool) (go leave : Option Slots) : Option Slots :=
  if greedy then go.or leave else leave.or go

section Repetition

variable (round : Continuation → Continuation)

def exactly : Nat → Continuation → Continuation
  | 0, k => k
  | n + 1, k => round (exactly n k)

def atMost (greedy : Bool) : Nat → Continuation → Continuation
  | 0, k, w => k w
  | n + 1, k, w => prefer greedy (round (atMost greedy n k) w) (k w)

/-- Any number of rounds. A round that passes no character is not followed by another one. -/
def many (greedy : Bool) (k : Continuation) (w : Way) : Option Slots :=
  prefer greedy
    (round (fun v => if v.rest.length < w.rest.length then many greedy k v else none) w) (k w)
termination_by w.rest.length

end Repetition

namespace Node

def run : Node → Continuation → Continuation
  | .empty, k, w => k w
  | .set chars, k, w => (w.pass? chars).bind fun q => k ⟨q, w.slots⟩
  | .look condition, k, w => if condition.holds w.before w.rest.head? then k w else none
  | .group index body, k, w =>
    body.run (fun v => k (v.save (2 * index + 1))) (w.save (2 * index))
  | .seq a b, k, w => a.run (b.run k) w
  | .alt a b, k, w => (a.run k w).or (b.run k w)
  | .times least (some most) greedy body, k, w =>
    exactly body.run least (atMost body.run greedy (most - least) k) w
  | .times least none greedy body, k, w => exactly body.run least (many body.run greedy k) w

/-- The least number of characters of a match. -/
def minLength : Node → Nat
  | .empty | .look _ => 0
  | .set _ => 1
  | .group _ body => body.minLength
  | .seq a b => a.minLength + b.minLength
  | .alt a b => min a.minLength b.minLength
  | .times least _ _ body => least * body.minLength

/-- Whatever may be repeated without a bound passes at least one character. -/
def Advances : Node → Prop
  | .empty | .set _ | .look _ => True
  | .group _ body => body.Advances
  | .seq a b | .alt a b => a.Advances ∧ b.Advances
  | .times _ most _ body => body.Advances ∧ (most = none → 0 < body.minLength)

instance decidableAdvances : (node : Node) → Decidable node.Advances
  | .empty | .set _ | .look _ => isTrue trivial
  | .group _ body => decidableAdvances body
  | .seq a b | .alt a b =>
    have := decidableAdvances a
    have := decidableAdvances b
    inferInstanceAs (Decidable (_ ∧ _))
  | .times _ most _ body =>
    have := decidableAdvances body
    inferInstanceAs (Decidable (_ ∧ (most = none → _)))

def program (node : Node) (groups : Nat) : Program :=
  ⟨(node.layout 0 ++ [Instr.accept]).toArray, groups⟩

/-- The preferred match that starts at a place. -/
def matchAt (node : Node) (groups : Nat) (p : Point) : Option Slots :=
  node.run (fun w => some (w.save 1).slots)
    (Way.save ⟨p, Array.replicate (2 * groups + 2) none⟩ 0)

end Node

/-- The first match of a line, given those that start at each of its places. -/
def leftmost (found : Point → Option Slots) : Point → Option Slots
  | ⟨before, offset, []⟩ => found ⟨before, offset, []⟩
  | ⟨before, offset, c :: cs⟩ =>
    (found ⟨before, offset, c :: cs⟩).or (leftmost found ⟨some c, offset + c.utf8Size, cs⟩)
termination_by p => p.rest.length

theorem leftmost_nil {found : Point → Option Slots} {p : Point} (hrest : p.rest = []) :
    leftmost found p = found p := by
  obtain ⟨before, offset, rest⟩ := p
  subst hrest
  rw [leftmost]

theorem leftmost_cons {found : Point → Option Slots} {p : Point} {c : Char} {cs : List Char}
    (hrest : p.rest = c :: cs) :
    leftmost found p = (found p).or (leftmost found (p.next c cs)) := by
  obtain ⟨before, offset, rest⟩ := p
  subst hrest
  rw [leftmost, Point.next]

theorem compile?_eq {text : String} {node : Node} {groups : Nat}
    (hread : read? text = some (node, groups)) (hsize : node.size ≤ maxSize) :
    compile? text = some (node.program groups) := by
  simp only [compile?, hread, if_pos hsize, Node.program]

end ScriptIndex.Pattern

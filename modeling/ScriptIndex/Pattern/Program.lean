import ScriptIndex.Pattern.Grammar

/-!
# Programs of patterns

A pattern is laid out as a list of instructions. A program that would be too long is refused before
it is laid out, which bounds counted repetitions inside each other.
-/
namespace ScriptIndex.Pattern

/-- An instruction goes on to the next one unless it says otherwise. -/
inductive Instr where
  /-- Reads one character of a set. -/
  | set (chars : CharSet)
  | look (condition : Look)
  /-- Keeps the current place under a number. -/
  | save (slot : Nat)
  | jump (target : Nat)
  /-- Goes to the first target, and to the second one only if the first leads nowhere. -/
  | split (first second : Nat)
  | accept
  deriving DecidableEq, Repr

/-- A choice between going on and leaving; a lazy choice prefers to leave. -/
def choice (greedy : Bool) (go leave : Nat) : Instr :=
  if greedy then .split go leave else .split leave go

def Node.size : Node → Nat
  | .empty => 0
  | .set _ | .look _ => 1
  | .group _ body => body.size + 2
  | .seq a b => a.size + b.size
  | .alt a b => a.size + b.size + 2
  | .times least most _ body =>
    match most with
    | some most => least * body.size + (most - least) * (body.size + 1)
    | none => if least = 0 then body.size + 2 else least * body.size + 1

/-- Lays out copies of a piece one after the other from `start` on; `piece` lays out one copy. -/
def copies (piece : Nat → List Instr) (size : Nat) : Nat → Nat → List Instr
  | 0, _ => []
  | n + 1, start => piece start ++ copies piece size n (start + size)

/-- The instructions of a node, when its first one stands at `start`. -/
def Node.layout : Node → Nat → List Instr
  | .empty, _ => []
  | .set chars, _ => [.set chars]
  | .look condition, _ => [.look condition]
  | .group index body, start =>
    .save (2 * index) :: body.layout (start + 1) ++ [.save (2 * index + 1)]
  | .seq a b, start => a.layout start ++ b.layout (start + a.size)
  | .alt a b, start =>
    .split (start + 1) (start + a.size + 2) :: a.layout (start + 1) ++
      .jump (start + a.size + b.size + 2) :: b.layout (start + a.size + 2)
  | .times least most greedy body, start =>
    let size := body.size
    match most with
    | some most =>
      let stop := start + least * size + (most - least) * (size + 1)
      copies body.layout size least start ++
        copies (fun at_ => choice greedy (at_ + 1) stop :: body.layout (at_ + 1)) (size + 1)
          (most - least) (start + least * size)
    | none =>
      if least = 0 then
        choice greedy (start + 1) (start + size + 2) :: body.layout (start + 1) ++
          [choice greedy (start + 1) (start + size + 2)]
      else
        copies body.layout size least start ++
          [choice greedy (start + (least - 1) * size) (start + least * size + 1)]

structure Program where
  code : Array Instr
  /-- Number of capturing groups. -/
  groups : Nat
  deriving DecidableEq, Repr

/-- The longest program that is laid out. -/
def maxSize : Nat := 200000

def compile? (text : String) : Option Program :=
  match read? text with
  | none => none
  | some (node, groups) =>
    if node.size ≤ maxSize then some ⟨(node.layout 0 ++ [Instr.accept]).toArray, groups⟩ else none

end ScriptIndex.Pattern

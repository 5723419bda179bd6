import ScriptIndex.Pattern.Escape

/-!
# Bracketed classes

A class lists characters, ranges, named classes and nested classes. Two operands may be joined by
intersection, difference or symmetric difference, which are read from left to right.
-/
namespace ScriptIndex.Pattern

open Text Reader

def readClassAtom : Reader Atom := do
  let c ← char
  if c == '\\' then readEscape
  else
    bump
    return .literal c false

/-- A character of a class, which is a byte without the Unicode flag. -/
def classLiteral (flags : Flags) (c : Char) : Reader Char := do
  if !flags.unicode && c.toNat ≥ 128 then failure
  return c

/-- Reads an item of a class or a range between two of them. -/
def readRange : Reader CharSet := do
  let flags := (← get).flags
  let first ← readClassAtom
  space
  let c ← char
  let next ← peekSpace
  if c != '-' || next == some ']' || next == some '-' then
    match first with
    | .literal c _ => return .single (← classLiteral flags c)
    | .set s => return s
    | .look _ => failure
  bumpSpace!
  match first, ← readClassAtom with
  | .literal a _, .literal b _ =>
    let lo ← classLiteral flags a
    let hi ← classLiteral flags b
    if hi < lo then failure
    return .range lo.toNat hi.toNat
  | _, _ => failure

/-- Reads a class named in colons, such as `[:alpha:]`, if one stands here. -/
def readNamedClass? : Reader (Option CharSet) := do
  let st ← get
  match st.rest with
  | '[' :: ':' :: cs =>
    let negated := cs.head? == some '^'
    let cs := if negated then cs.tail else cs
    let name := cs.takeWhile (· != ':')
    match cs.dropWhile (· != ':'), CharSet.named? (String.ofList name) with
    | ':' :: ']' :: rest, some s =>
      set { st with rest }
      return some (negate negated (foldSet st.flags s))
    | _, _ => return none
  | _ => return none

inductive SetOperation where
  | inter
  | diff
  | symmDiff

def SetOperation.apply : SetOperation → CharSet → CharSet → CharSet
  | .inter => .inter
  | .diff => .diff
  | .symmDiff => .symmDiff

def operation? (rest : List Char) : Option SetOperation :=
  match rest with
  | '&' :: '&' :: _ => some .inter
  | '-' :: '-' :: _ => some .diff
  | '~' :: '~' :: _ => some .symmDiff
  | _ => none

/-- Applies the operation before the last operand, if there is one. -/
def closeOperand (flags : Flags) (pending : Option (SetOperation × CharSet)) (last : CharSet) :
    CharSet :=
  match pending with
  | some (op, left) => op.apply (foldSet flags left) (foldSet flags last)
  | none => last

/-- Reads the hyphens at the start of a class, each of which stands for itself. -/
def readHyphens : Nat → CharSet → Reader CharSet
  | 0, _ => failure
  | rounds + 1, s => do
    if (← char) == '-' then
      bumpSpace!
      readHyphens rounds (.union s (.single '-'))
    else return s

/-- Reads the opening of a class: whether it is negated, and the hyphens or the closing bracket at its
start, which stand for themselves. -/
def readClassOpening : Reader (Bool × CharSet) := do
  bumpSpace!
  let negated := (← char) == '^'
  if negated then bumpSpace!
  let start ← readHyphens ((← get).rest.length + 1) .empty
  if start == .empty && (← char) == ']' then
    bumpSpace!
    return (negated, .single ']')
  return (negated, start)

/-- Reads the items of a class up to its closing bracket. `items` is the operand read so far and
`pending` what stands before it with its operation. -/
def readClassItems : Nat → Option (SetOperation × CharSet) → CharSet → Reader CharSet
  | 0, _, _ => failure
  | rounds + 1, pending, items => do
    space
    let c ← char
    let flags := (← get).flags
    if c == '[' then
      match ← readNamedClass? with
      | some s => readClassItems rounds pending (.union items s)
      | none =>
        let (negated, start) ← readClassOpening
        let inner ← readClassItems rounds none start
        readClassItems rounds pending (.union items (negate negated inner))
    else if c == ']' then
      bump
      return foldSet flags (closeOperand flags pending items)
    else
      match operation? (← get).rest with
      | some op =>
        bump
        bump
        readClassItems rounds (some (op, closeOperand flags pending items)) .empty
      | none => readClassItems rounds pending (.union items (← readRange))

/-- A set that a match may use. Without the Unicode flag it must hold ASCII characters only. -/
def usable (flags : Flags) (s : CharSet) : Reader CharSet := do
  if flags.unicode then return s
  if !s.isAscii then failure
  return .inter s .ascii

def readClass : Reader CharSet := do
  let (negated, start) ← readClassOpening
  let s ← readClassItems ((← get).rest.length + 1) none start
  usable (← get).flags (negate negated s)

end ScriptIndex.Pattern

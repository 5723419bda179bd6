import ScriptIndex.Pattern.Bracket

/-!
# Grammar of patterns

The grammar knows groups (capturing, named, and with flags), alternatives, greedy and lazy
repetitions, bracketed classes, escapes and flags. It has no look-around. Reading is given three
rounds for each character of the text: a round that adds an item or opens a group takes at least one
character, and a group takes three rounds, so the rounds never run out.
-/
namespace ScriptIndex.Pattern

open Text Reader

def literalNode (flags : Flags) (c : Char) (byte : Bool) : Reader Node := do
  if !flags.unicode && c.toNat ≥ 128 && (byte || flags.anyCase) then failure
  let s := foldSet flags (.single c)
  return .set (if flags.unicode || c.toNat ≥ 128 then s else .inter s .ascii)

def readPrimitive : Reader Node := do
  let c ← char
  let flags := (← get).flags
  match c with
  | '\\' =>
    match ← readEscape with
    | .literal c byte => literalNode flags c byte
    | .set s => return .set (← usable flags s)
    | .look condition => return .look condition
  | '.' =>
    bump
    if !flags.unicode then failure
    if flags.dotAll then return .set (.range 0 0x10FFFF)
    let ends := if flags.returns then CharSet.union (.single '\n') (.single '\r') else .single '\n'
    return .set (.compl ends)
  | '^' =>
    bump
    return .look
      (if !flags.lineEnds then .startText else if flags.returns then .startReturnLine else .startLine)
  | '$' =>
    bump
    return .look
      (if !flags.lineEnds then .stopText else if flags.returns then .stopReturnLine else .stopLine)
  | _ =>
    bump
    literalNode flags c false

/-- Reads a decimal number and the blanks around it. -/
def readDecimal : Reader (Option Nat) := do
  modify fun st => { st with rest := st.rest.dropWhile isBlank }
  let digits ← readDigits ((← get).rest.length + 1) []
  modify fun st => { st with rest := st.rest.dropWhile isBlank }
  space
  if digits.isEmpty then return none
  let value := digits.reverse.foldl (fun n c => 10 * n + (c.toNat - 0x30)) 0
  if value > 4294967295 then failure
  return some value
where
  /-- The digits read so far are in `digits`, last one first. -/
  readDigits : Nat → List Char → Reader (List Char)
    | 0, digits => return digits
    | rounds + 1, digits => do
      match ← peek with
      | some c =>
        if c.isDigit then
          bumpSpace
          readDigits rounds (c :: digits)
        else return digits
      | none => return digits

/-- Reads the bounds of a counted repetition from its opening brace on. -/
def readBounds : Reader (Nat × Option Nat) := do
  bumpSpace!
  let least ← readDecimal
  let c ← char
  let (least, most) ←
    if c == ',' then do
      bumpSpace!
      let some least := least | failure
      if (← char) == '\x7d' then pure (least, none)
      else
        let some most ← readDecimal | failure
        pure (least, some most)
    else
      let some least := least | failure
      pure (least, some least)
  if (← char) != '\x7d' then failure
  bumpSpace
  if most.any (· < least) then failure
  return (least, most)

/-- Applies a repetition to the last item, which must be there and must not be a flag setting. -/
def repeatLast (items : List (Option Node)) : Reader (List (Option Node)) := do
  match items with
  | some body :: items =>
    let c ← char
    let (least, most) ←
      if c == '\x7b' then readBounds
      else do
        bump
        pure (if c == '+' then 1 else 0, if c == '?' then some 1 else none)
    let lazy := (← peek) == some '?'
    if lazy then bump
    let flags := (← get).flags
    return some (.times least most (lazy == flags.swapGreed) body) :: items
  | _ => failure

def isNameChar (first : Bool) (c : Char) : Bool :=
  let alphabetic := if c.toNat < 128 then c.isAlpha else inRanges (readRanges alphabeticTable) c.toNat
  let numeric := if c.toNat < 128 then c.isDigit
    else inRanges (tableRanges categoryTable ["nd", "nl", "no"]) c.toNat
  c == '_' || alphabetic || (!first && (numeric || c == '.' || c == '[' || c == ']'))

def readGroupName : Reader Unit := do
  let st ← get
  let name := st.rest.takeWhile (· != '>')
  let rest := st.rest.dropWhile (· != '>')
  if rest.isEmpty || name.isEmpty || st.names.contains name then failure
  if !(isNameChar true (name.headD '0') && name.tail.all (isNameChar false)) then failure
  set { st with rest := rest.tail, names := name :: st.names }

def switchFlag (flags : Flags) (c : Char) (on : Bool) : Option Flags :=
  match c with
  | 'i' => some { flags with anyCase := on }
  | 'm' => some { flags with lineEnds := on }
  | 's' => some { flags with dotAll := on }
  | 'U' => some { flags with swapGreed := on }
  | 'u' => some { flags with unicode := on }
  | 'R' => some { flags with returns := on }
  | 'x' => some { flags with spaced := on }
  | _ => none

/-- Reads flags up to a colon or a closing parenthesis. `seen` holds the characters read so far; each
may stand once, and a hyphen must not be the last one. -/
def readFlags : Nat → List Char → Flags → Reader (Flags × Bool)
  | 0, _, _ => failure
  | rounds + 1, seen, flags => do
    let c ← char
    if c == ':' || c == ')' then
      if seen.head? == some '-' then failure
      return (flags, seen.isEmpty)
    if seen.contains c then failure
    bump
    if c == '-' then readFlags rounds (c :: seen) flags
    else
      let some flags := switchFlag flags c (!seen.contains '-') | failure
      readFlags rounds (c :: seen) flags

/-- What an opening parenthesis starts. -/
inductive Opening where
  | capture (index : Nat)
  | plain (flags : Flags)
  /-- A setting that holds up to the end of the group around it. -/
  | setting (flags : Flags)

def nextGroup : Reader Opening := do
  let st ← get
  set { st with groups := st.groups + 1 }
  return .capture (st.groups + 1)

def readOpening : Reader Opening := do
  bump
  space
  let rest := (← get).rest
  if ["?=", "?!", "?<=", "?<!"].any fun mark => mark.toList.isPrefixOf rest then failure
  if (← bumpIf "?P<") || (← bumpIf "?<") then
    let opening ← nextGroup
    readGroupName
    return opening
  if ← bumpIf "?" then
    let st ← get
    let (flags, isEmpty) ← readFlags (st.rest.length + 1) [] st.flags
    let close ← char
    bump
    if close == ')' then
      if isEmpty then failure
      return .setting flags
    return .plain flags
  nextGroup

/-- Passes the closing parenthesis and restores the flags around the group. -/
def closeGroup (saved : Flags) : Reader Unit := do
  if (← peek) != some ')' then failure
  bump
  modify fun st => { st with flags := saved }

mutual

def readAlternatives : Nat → Reader Node
  | 0 => failure
  | rounds + 1 => do
    let first ← readSequence rounds []
    if (← peek) == some '|' then
      bump
      return .alt first (← readAlternatives rounds)
    return first

/-- Reads the items of one alternative; those read so far are in `items`, last one first, with
nothing in the place of a flag setting. -/
def readSequence : Nat → List (Option Node) → Reader Node
  | 0, _ => failure
  | rounds + 1, items => do
    space
    match ← peek with
    | none | some '|' | some ')' => return .seqOf (items.reverse.filterMap id)
    | some '(' => readSequence rounds ((← readGroup rounds) :: items)
    | some '[' => readSequence rounds (some (.set (← readClass)) :: items)
    | some '?' | some '*' | some '+' | some '\x7b' => readSequence rounds (← repeatLast items)
    | some _ => readSequence rounds (some (← readPrimitive) :: items)

def readGroup : Nat → Reader (Option Node)
  | 0 => failure
  | rounds + 1 => do
    let opening ← readOpening
    let saved := (← get).flags
    match opening with
    | .setting flags =>
      modify fun st => { st with flags }
      return none
    | .capture index =>
      let body ← readAlternatives rounds
      closeGroup saved
      return some (.group index body)
    | .plain flags =>
      modify fun st => { st with flags }
      let body ← readAlternatives rounds
      closeGroup saved
      return some body

end

def read? (text : String) : Option (Node × Nat) :=
  let start : ReadState := { rest := text.toList }
  match (readAlternatives (3 * text.length + 4)).run start with
  | some (node, st) => if st.rest.isEmpty then some (node, st.groups) else none
  | none => none

end ScriptIndex.Pattern

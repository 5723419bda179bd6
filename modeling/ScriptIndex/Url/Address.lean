import ScriptIndex.Text.Category
import ScriptIndex.Text.Pieces
import ScriptIndex.Url.Basic

/-!
# Numeric hosts

A host whose last label is a number is an IPv4 address. A host in square brackets is an IPv6 address.
-/
namespace ScriptIndex.Url

open Text

/-- The value of digits in a base, when all characters are such digits. -/
def digitsValue? (base : Nat) (cs : List Char) : Option Nat :=
  cs.foldl (fun acc c =>
    match acc, hexDigit? c with
    | some n, some d => if d < base then some (base * n + d) else none
    | _, _ => none) (some 0)

/-- A number of an IPv4 address: hexadecimal after `0x`, octal after `0`, and decimal otherwise. -/
def ipv4Number? (cs : List Char) : Option Nat :=
  match cs with
  | [] => none
  | '0' :: 'x' :: ds | '0' :: 'X' :: ds => digitsValue? 16 ds
  | '0' :: d :: ds => digitsValue? 8 (d :: ds)
  | ds => digitsValue? 10 ds

/-- The labels of a domain, without an empty one at its end. -/
def labels (domain : List Char) : List (List Char) :=
  let ps := pieces (· == '.') domain
  if ps.length > 1 && ps.getLast? == some [] then ps.dropLast else ps

/-- Whether the last label of a domain is a number. -/
def endsInNumber (domain : List Char) : Bool :=
  match (labels domain).getLast? with
  | none | some [] => false
  | some label => label.all (·.isDigit) || (ipv4Number? label).isSome

/-- The value of an IPv4 address, which gives its bytes from the front and the last ones as one
number. -/
def ipv4Value? (domain : List Char) : Option Nat :=
  match ((labels domain).mapM ipv4Number?).map List.reverse with
  | some (last :: front) =>
    let n := front.length
    if n > 3 || front.any (· > 255) || last ≥ Nat.pow 256 (4 - n) then none
    else some (last + Nat.pow 256 (4 - n) * front.reverse.foldl (fun acc b => 256 * acc + b) 0)
  | _ => none

def ipv4Text (value : Nat) : String :=
  ".".intercalate ([24, 16, 8, 0].map fun shift => toString (value / Nat.pow 2 shift % 256))

/-- A byte of an IPv4 address inside an IPv6 address, without leading zeros. -/
def strictByte? (cs : List Char) : Option Nat :=
  if cs.isEmpty || cs.length > 3 || (cs.length > 1 && cs.head? == some '0') then none
  else (digitsValue? 10 cs).filter (· ≤ 255)

/-- The groups of a part of an IPv6 address; the last one may be an IPv4 address. -/
def ipv6Groups? : List (List Char) → Option (List Nat)
  | [] => some []
  | [last] =>
    if last.contains '.' then
      match (pieces (· == '.') last).mapM strictByte? with
      | some [a, b, c, d] => some [256 * a + b, 256 * c + d]
      | _ => none
    else (ipv6Group? last).map ([·])
  | g :: gs =>
    match ipv6Group? g, ipv6Groups? gs with
    | some n, some ns => some (n :: ns)
    | _, _ => none
where
  /-- One to four hexadecimal digits. -/
  ipv6Group? (cs : List Char) : Option Nat :=
    if cs.isEmpty || cs.length > 4 then none else digitsValue? 16 cs

/-- A text split at its first double colon. -/
def splitDouble? : List Char → Option (List Char × List Char)
  | ':' :: ':' :: cs => some ([], cs)
  | c :: cs => (splitDouble? cs).map fun (a, b) => (c :: a, b)
  | [] => none

def ipv6Part? (cs : List Char) : Option (List Nat) :=
  if cs.isEmpty then some [] else ipv6Groups? (pieces (· == ':') cs)

/-- The eight groups of an IPv6 address. A double colon stands for groups that are zero. -/
def ipv6Value? (cs : List Char) : Option (List Nat) :=
  match splitDouble? cs with
  | none => (ipv6Part? cs).filter (·.length = 8)
  | some (front, back) =>
    match ipv6Part? front, ipv6Part? back with
    | some front', some back' =>
      if front'.length + back'.length ≤ 7 && !(front.contains '.') then
        some (front' ++ List.replicate (8 - front'.length - back'.length) 0 ++ back')
      else none
    | _, _ => none

def zeroRun (ns : List Nat) : Nat := (ns.takeWhile (· == 0)).length

/-- The first longest run of zeros: where it starts and how long it is. -/
def longestZeros (ns : List Nat) : Nat × Nat :=
  (List.range ns.length).foldl (fun best i =>
    let run := zeroRun (ns.drop i)
    if run > best.2 then (i, run) else best) (0, 0)

def hexText (n : Nat) : String := String.ofList (Nat.toDigits 16 n)

/-- An IPv6 address in brackets, with a double colon for its longest run of at least two zeros. -/
def ipv6Text (groups : List Nat) : String :=
  let (start, run) := longestZeros groups
  let join (ns : List Nat) := ":".intercalate (ns.map hexText)
  if run < 2 then "[" ++ join groups ++ "]"
  else "[" ++ join (groups.take start) ++ "::" ++ join (groups.drop (start + run)) ++ "]"

end ScriptIndex.Url

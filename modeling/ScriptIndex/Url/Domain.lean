import ScriptIndex.Text.CaseFold
import ScriptIndex.Url.Address
import ScriptIndex.Url.Escape

/-!
# Hosts

A domain is written in lower case, and a label with other than ASCII characters in its ASCII form.
-/
namespace ScriptIndex.Url

open Text

def threshold (k bias : Nat) : Nat := if k ≤ bias + 1 then 1 else if k ≥ bias + 26 then 26 else k - bias

theorem threshold_pos (k bias : Nat) : 0 < threshold k bias := by
  unfold threshold
  repeat' split
  all_goals omega

def labelDigit (d : Nat) : Char := Char.ofNat (if d < 26 then 0x61 + d else 0x16 + d)

/-- A number as digits whose base depends on their position. -/
def labelNumber (bias k q : Nat) : List Char :=
  let t := threshold k bias
  if q < t then [labelDigit q]
  else labelDigit (t + (q - t) % (36 - t)) :: labelNumber bias (k + 36) ((q - t) / (36 - t))
termination_by q
decreasing_by
  have := threshold_pos k bias
  have h := Nat.div_le_self (q - threshold k bias) (36 - threshold k bias)
  omega

/-- Divides `delta` by 35 until it is at most 455, counting 36 for each division. -/
def shrink (delta k : Nat) : Nat × Nat :=
  if 455 < delta then shrink (delta / 35) (k + 36) else (delta, k)
termination_by delta
decreasing_by omega

/-- The bias after a number was written. -/
def adaptBias (delta points : Nat) (first : Bool) : Nat :=
  let delta := if first then delta / 700 else delta / 2
  let (rest, k) := shrink (delta + delta / points) 0
  k + 36 * rest / (rest + 38)

/-- What the encoder of a label carries from one character to the next. -/
structure LabelState where
  out : List Char
  delta : Nat
  bias : Nat
  handled : Nat

/-- Passes one character of the label while code point `n` is written. -/
def labelStep (basic n : Nat) (st : LabelState) (c : Char) : LabelState :=
  if c.toNat < n then { st with delta := st.delta + 1 }
  else if c.toNat = n then
    { out := st.out ++ labelNumber st.bias 36 st.delta
      delta := 0
      bias := adaptBias st.delta (st.handled + 1) (st.handled == basic)
      handled := st.handled + 1 }
  else st

/-- Writes the given code points of a label, in ascending order. -/
def labelPoints (label : List Char) (basic : Nat) : List Nat → Nat → LabelState → LabelState
  | [], _, st => st
  | n :: ns, last, st =>
    let st := { st with delta := st.delta + (n - last) * (st.handled + 1) }
    let st := label.foldl (labelStep basic n) st
    labelPoints label basic ns (n + 1) { st with delta := st.delta + 1 }

def asciiLabel (label : List Char) : List Char :=
  let plain := label.filter (·.toNat < 128)
  if plain.length = label.length then label
  else
    let points := ((label.map Char.toNat).filter (128 ≤ ·)).mergeSort.eraseDups
    let start : LabelState := ⟨[], 0, 72, plain.length⟩
    let front := if plain.isEmpty then [] else plain ++ ['-']
    "xn--".toList ++ front ++ (labelPoints label plain.length points 128 start).out

/-- The form of a character in a domain: lower case, with wide forms made narrow. -/
def domainChar? (c : Char) : Option Char :=
  let n := c.toNat
  if n == 0xAD || n == 0x200B || n == 0x2060 || n == 0xFEFF then none
  else if n == 0x3002 || n == 0xFF61 then some '.'
  else
    let narrow := if 0xFF01 ≤ n && n ≤ 0xFF5E then n - 0xFEE0 else n
    some (Char.ofNat (fold narrow))

def isForbidden (c : Char) : Bool := c.toNat ≤ 0x20 || c.toNat == 0x7F || "%#/:<>?@[\\]^|".contains c

def domain? (host : List Char) : Option (List Char) :=
  match decode? (unescape (bytes host)) with
  | none => none
  | some text =>
    let mapped := text.toList.filterMap domainChar?
    if mapped.any isForbidden then none
    else some ((pieces (· == '.') mapped).map asciiLabel |>.intersperse ['.'] |>.flatten)

def bracketed (cs : List Char) : Except Fault String :=
  if cs.getLast? == some ']' && cs.length > 1 then
    match ipv6Value? (cs.drop 1).dropLast with
    | some groups => .ok (ipv6Text groups)
    | none => .error .ipv6
  else .error .ipv6

def specialHost (host : List Char) : Except Fault String :=
  if host.head? == some '[' then bracketed host
  else
    match domain? host with
    | none => .error .domain
    | some [] => .error .emptyHost
    | some name =>
      if endsInNumber name then
        match ipv4Value? name with
        | some value => .ok (ipv4Text value)
        | none => .error .ipv4
      else .ok (String.ofList name)

/-- Reads the host of any other scheme, which is kept as it is written. -/
def otherHost (host : List Char) : Except Fault String :=
  if host.head? == some '[' then bracketed host
  else if host.any fun c => c.toNat == 0 || "\t\n\r #/:<>?@[\\]^|".contains c then
    .error .domainCharacter
  else .ok (String.ofList (escape controlSet host))

end ScriptIndex.Url

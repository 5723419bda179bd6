import ScriptIndex.Pattern.Program
import ScriptIndex.Text.Bytes

/-!
# Searching with a program

The machine walks over the line once and keeps the ways in which a match may go on, most preferred
first. Of two ways that reach the same instruction at the same place only the preferred one is kept.
The match that starts first wins, and of those the preferred one. An empty match is not reported at
the place where the match before it ended.
-/
namespace ScriptIndex.Pattern

open Text

/-- The kept places, two for each group. -/
abbrev Slots := Array (Option Nat)

/-- A way in which a match may go on: the next instruction and the kept places. -/
structure Thread where
  pc : Nat
  slots : Slots

/-- Threads that wait for a character, and the instructions already reached at this place. -/
structure Front where
  threads : List Thread := []
  reached : Array Bool

/-- A place in a line: the characters on its two sides and its byte offset. -/
structure Place where
  before : Option Char
  after : Option Char
  offset : Nat

namespace Program

def fresh (prog : Program) : Front := { reached := Array.replicate prog.code.size false }

/-- Follows threads through all instructions that read no character. Each round drops a thread or
reaches a new instruction, so twice the length of the program and the number of threads is enough.
The waiting threads are collected last one first. -/
def follow (prog : Program) (place : Place) : Nat → List Thread → Front → Front
  | 0, _, front => front
  | _, [], front => front
  | rounds + 1, t :: ts, front =>
    if front.reached.getD t.pc true then prog.follow place rounds ts front
    else
      let front := { front with reached := front.reached.setIfInBounds t.pc true }
      match prog.code[t.pc]? with
      | none => prog.follow place rounds ts front
      | some (.set _) | some .accept =>
        prog.follow place rounds ts { front with threads := t :: front.threads }
      | some (.look condition) =>
        if condition.holds place.before place.after then
          prog.follow place rounds ({ t with pc := t.pc + 1 } :: ts) front
        else prog.follow place rounds ts front
      | some (.save slot) =>
        let slots := t.slots.setIfInBounds slot (some place.offset)
        prog.follow place rounds (⟨t.pc + 1, slots⟩ :: ts) front
      | some (.jump target) => prog.follow place rounds ({ t with pc := target } :: ts) front
      | some (.split first second) =>
        prog.follow place rounds ({ t with pc := first } :: { t with pc := second } :: ts) front

def add (prog : Program) (place : Place) (front : Front) (t : Thread) : Front :=
  prog.follow place (2 * prog.code.size + 1) [t] front

def start (prog : Program) (place : Place) (front : Front) : Front :=
  let slots := (Array.replicate (2 * prog.groups + 2) none).setIfInBounds 0 (some place.offset)
  prog.add place front ⟨0, slots⟩

/-- Moves threads, most preferred first, over the character `c` to `next`. A thread that accepts ends
the match at `offset`, and those after it are dropped. -/
def advance (prog : Program) (c : Option Char) (offset : Nat) (next : Place) :
    List Thread → Option Slots → Front → Option Slots × Front
  | [], found, front => (found, front)
  | t :: ts, found, front =>
    match prog.code[t.pc]? with
    | some .accept => (some (t.slots.setIfInBounds 1 (some offset)), front)
    | some (.set chars) =>
      if c.any fun c => chars.contains c.toNat then
        prog.advance c offset next ts found (prog.add next front { t with pc := t.pc + 1 })
      else prog.advance c offset next ts found front
    | _ => prog.advance c offset next ts found front

/-- Searches the rest of a line for the first match. `front` holds the threads at this place and
`found` the best match so far. -/
def searchFrom (prog : Program) (before : Option Char) (offset : Nat) (front : Front)
    (found : Option Slots) : List Char → Option Slots
  | [] =>
    let place : Place := ⟨before, none, offset⟩
    let front := if found.isNone then prog.start place front else front
    (prog.advance none offset place front.threads.reverse found prog.fresh).1
  | c :: cs =>
    let place : Place := ⟨before, some c, offset⟩
    let front := if found.isNone then prog.start place front else front
    let next : Place := ⟨some c, cs.head?, offset + c.utf8Size⟩
    let (found, front) :=
      prog.advance (some c) offset next front.threads.reverse found prog.fresh
    if found.isSome && front.threads.isEmpty then found
    else prog.searchFrom (some c) (offset + c.utf8Size) front found cs

def search (prog : Program) (before : Option Char) (offset : Nat) (rest : List Char) :
    Option Slots :=
  prog.searchFrom before offset prog.fresh none rest

end Program

def resume (before : Option Char) (offset stop : Nat) : List Char → Option Char × Nat × List Char
  | [] => (before, offset, [])
  | c :: cs =>
    if offset < stop then resume (some c) (offset + c.utf8Size) stop cs
    else (before, offset, c :: cs)

def stopOf (slots : Slots) : Nat := ((slots[1]?).join).getD 0

/-- Whether a match is empty and ends where the last one ended. -/
def repeatsEmpty (lastStop : Option Nat) (slots : Slots) : Bool :=
  slots[0]? == slots[1]? && lastStop == some (stopOf slots)

namespace Program

/-- The matches in the rest of a line. `lastStop` is the end of the match before them. -/
def matchesFrom (prog : Program) :
    Nat → Option Char → Nat → List Char → Option Nat → List Slots
  | 0, _, _, _, _ => []
  | rounds + 1, before, offset, rest, lastStop =>
    let found :=
      match prog.search before offset rest with
      | none => none
      | some slots =>
        if repeatsEmpty lastStop slots then
          match rest with
          | [] => none
          | c :: cs => prog.search (some c) (offset + c.utf8Size) cs
        else some slots
    match found with
    | none => []
    | some slots =>
      let (before, offset, rest) := resume before offset (stopOf slots) rest
      slots :: prog.matchesFrom rounds before offset rest (some (stopOf slots))

/-- All matches of a line from left to right, none inside another. A round ends further on than the
one before it or is the first one there that is not empty, so two rounds for each place are enough. -/
def findAll (prog : Program) (line : List Char) : List Slots :=
  prog.matchesFrom (2 * line.length + 2) none 0 line none

end Program

/-- The text of a group in a match, with its byte offset, when the group took part in it. -/
def captured? (line : List Char) (slots : Slots) (group : Nat) : Option (Nat × List Char) :=
  match (slots[2 * group]?).join, (slots[2 * group + 1]?).join with
  | some start, some stop =>
    let (_, _, rest) := resume none 0 start line
    some (start, takeBytes (stop - start) rest)
  | _, _ => none

end ScriptIndex.Pattern

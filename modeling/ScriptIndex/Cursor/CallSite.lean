import ScriptIndex.Cursor.Token
import ScriptIndex.Text.Position

/-!
# The call around the cursor

The call is found on one line: the nearest opening parenthesis at or before the cursor, the word in
front of it, the first closing parenthesis after it, and the commas between the two.
-/
namespace ScriptIndex.Cursor

open Text

structure CallSite where
  command : String
  openParen : Position
  closeParen : Position
  commas : List Position
  deriving DecidableEq, Repr

inductive CallFault where
  | outOfRange (line column : Nat)
  | noOpenParen (line : Nat)
  | noCommandName (line : Nat)
  | noCloseParen (line : Nat)
  deriving DecidableEq, Repr

def CallFault.message : CallFault → String
  | .outOfRange line column =>
    "position " ++ toString line ++ ":" ++ toString column ++ " is outside the content"
  | .noOpenParen line =>
    "line " ++ toString line ++ " has no open parenthesis before the cursor"
  | .noCommandName line => "line " ++ toString line ++ " has no command before the parenthesis"
  | .noCloseParen line => "line " ++ toString line ++ " has no closing parenthesis"

def lastIndexUpTo? (b : UInt8) (bs : List UInt8) : Nat → Option Nat
  | 0 => if bs[0]? = some b then some 0 else none
  | n + 1 => if bs[n + 1]? = some b then some (n + 1) else lastIndexUpTo? b bs n

/-- The indices of the commas up to the first closing parenthesis, and its index; `i` bytes stand
before the sequence. -/
def argumentMarks? (i : Nat) : List UInt8 → Option (List Nat × Nat)
  | [] => none
  | b :: bs =>
    if b = 0x29 then some ([], i)
    else (argumentMarks? (i + 1) bs).map fun (commas, close) =>
      (if b = 0x2C then i :: commas else commas, close)

def callSiteAt (content : String) (line column : Nat) : Except CallFault CallSite :=
  match codeBytes? content line with
  | none => .error (.outOfRange line column)
  | some bs =>
    if bs.length < column then .error (.outOfRange line column)
    else
      match lastIndexUpTo? 0x28 bs column with
      | none => .error (.noOpenParen line)
      | some openIndex =>
        let name := wordBefore (bs.take openIndex)
        if name.isEmpty then .error (.noCommandName line)
        else
          match argumentMarks? openIndex (bs.drop openIndex) with
          | none => .error (.noCloseParen line)
          | some (commas, closeIndex) =>
            .ok
              { command := ofAscii name
                openParen := .clipped line openIndex
                closeParen := .clipped line closeIndex
                commas := commas.map (.clipped line) }

end ScriptIndex.Cursor

import ScriptIndex.Text.Bytes

/-!
# Percent escapes

An escape is a percent sign and two hexadecimal digits, which stand for one byte. Each part of a URL
has its own set of bytes that are written as escapes; every byte from 128 on is.
-/
namespace ScriptIndex.Url

open Text

def hexChar (n : Nat) : Char := Char.ofNat (if n < 10 then 0x30 + n else 0x37 + n)

def hexByte? (b : UInt8) : Option UInt8 :=
  if 0x30 ≤ b && b ≤ 0x39 then some (b - 0x30)
  else if 0x41 ≤ b && b ≤ 0x46 then some (b - 0x37)
  else if 0x61 ≤ b && b ≤ 0x66 then some (b - 0x57)
  else none

def escapeByte (b : UInt8) : List Char := ['%', hexChar (b.toNat / 16), hexChar (b.toNat % 16)]

/-- Writes the bytes of a set as escapes and the other ones, all below 128, as they are. -/
def escapeBytes (set : UInt8 → Bool) (bs : List UInt8) : List Char :=
  bs.flatMap fun b => if set b then escapeByte b else [Char.ofNat b.toNat]

def escape (set : UInt8 → Bool) (cs : List Char) : List Char := escapeBytes set (bytes cs)

/-- Replaces each escape by its byte. A percent sign that starts no escape stays. -/
def unescape : List UInt8 → List UInt8
  | [] => []
  | [b] => [b]
  | [a, b] => [a, b]
  | p :: a :: b :: bs =>
    if p = 0x25 then
      match hexByte? a, hexByte? b with
      | some high, some low => (16 * high + low) :: unescape bs
      | _, _ => p :: unescape (a :: b :: bs)
    else p :: unescape (a :: b :: bs)

/-- Control characters and all bytes from 127 on. -/
def controlSet (b : UInt8) : Bool := b < 0x20 || b ≥ 0x7F

/-- Bytes of a text, for the sets below. -/
def oneOf (text : String) (b : UInt8) : Bool := text.toList.any fun c => c.toNat == b.toNat

def fragmentSet (b : UInt8) : Bool := controlSet b || oneOf " \"<>`" b

def querySet (b : UInt8) : Bool := controlSet b || oneOf " \"#<>" b

def specialQuerySet (b : UInt8) : Bool := querySet b || b == 0x27

def pathSet (b : UInt8) : Bool := fragmentSet b || oneOf "#?\x7b\x7d" b

def userSet (b : UInt8) : Bool := pathSet b || oneOf "/:;=@[\\]^|" b

def segmentSet (b : UInt8) : Bool := pathSet b || oneOf "/%\\" b

end ScriptIndex.Url

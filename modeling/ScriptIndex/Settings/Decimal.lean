/-!
# Decimal numbers as doubles

A decimal number of a settings value stands for the double nearest to it. Its text has the fewest
digits that still name this double, and of those the nearest to it.
-/
namespace ScriptIndex.Settings

/-- The number `digits * 10 ^ exponent`, negated or not. -/
structure Decimal where
  negative : Bool
  digits : Nat
  exponent : Int
  deriving DecidableEq, Repr

namespace Decimal

/-- `n * base ^ e` as a fraction; the power goes to the side that keeps both whole. -/
def scaled (base n : Nat) (e : Int) (den : Nat) : Nat × Nat :=
  if e ≥ 0 then (n * base.pow e.toNat, den) else (n, den * base.pow (-e).toNat)

/-- The whole number nearest to a fraction; a half goes to the even neighbour. -/
def roundToEven (num den : Nat) : Nat :=
  let floor := num / den
  let twice := 2 * (num % den)
  if twice > den || (twice == den && floor % 2 == 1) then floor + 1 else floor

/-- The double nearest to a positive fraction, as a 53-bit number and a power of two. -/
def nearestDouble (num den : Nat) : Nat × Int :=
  let guess : Int := (num.log2 : Int) - (den.log2 : Int) - 52
  let quotient (q : Int) : Nat × Nat :=
    let (n, d) := scaled 2 num (-q) den
    (n, d)
  let (n, d) := quotient guess
  let q := if n / d ≥ Nat.pow 2 53 then guess + 1
    else if n / d < Nat.pow 2 52 then guess - 1
    else guess
  let q := max q (-1074)
  let (n, d) := quotient q
  let mantissa := roundToEven n d
  if mantissa == Nat.pow 2 53 then (Nat.pow 2 52, q + 1) else (mantissa, q)

/-- The largest power of ten at most a fraction of at least one unit, as an exponent. -/
def floorLog10 (num den : Nat) : Int :=
  let guess : Int := ((Nat.toDigits 10 num).length : Int) - (Nat.toDigits 10 den).length
  let (n, d) := scaled 10 num (-guess) den
  if n ≥ d then guess else guess - 1

/-- Whether `c * 10 ^ p` lies between two fractions with a common denominator. -/
def within (low high den : Nat) (closed : Bool) (c : Nat) (p : Int) : Bool :=
  let (n, d) := scaled 10 c p 1
  if closed then low * d ≤ n * den && n * den ≤ high * d
  else low * d < n * den && n * den < high * d

/-- The nearest number with few digits between two fractions around `mid`, tried with `count` digits
and then with more. -/
def fewestDigits (low mid high den : Nat) (closed : Bool) (top : Int) :
    Nat → Nat → Nat × Int
  | 0, _ => (0, 0)
  | rounds + 1, count =>
    let p := top - count + 1
    let (n, d) := scaled 10 mid (-p) den
    let c := n / d
    let below := within low high den closed c p
    let above := within low high den closed (c + 1) p
    if below && (!above || 2 * (n % d) ≤ d) then (c, p)
    else if above then (c + 1, p)
    else fewestDigits low mid high den closed top rounds (count + 1)

/-- The digits and the power of ten that name a positive double. -/
def shortest (mantissa : Nat) (q : Int) : Nat × Int :=
  let gap := if mantissa == Nat.pow 2 52 && q > -1074 then 1 else 2
  let unit (n : Nat) : Nat × Nat := scaled 2 n (q - 2) 1
  let (mid, den) := unit (4 * mantissa)
  let (low, _) := unit (4 * mantissa - gap)
  let (high, _) := unit (4 * mantissa + 2)
  fewestDigits low mid high den (mantissa % 2 == 0) (floorLog10 mid den) 17 1

/-- Digits without zeros at their end, which the exponent takes in. -/
def dropZeros : Nat → List Char → Int → List Char × Int
  | 0, ds, e => (ds, e)
  | rounds + 1, ds, e =>
    if ds.getLast? == some '0' && ds.length > 1 then dropZeros rounds ds.dropLast (e + 1) else (ds, e)

/-- Writes digits times a power of ten: plainly below ten to the sixteenth and from one hundred
thousandth on, otherwise with an exponent. -/
def layout (ds : List Char) (e : Int) : String :=
  let point : Int := ds.length + e
  let digits := String.ofList ds
  let zeros (n : Int) : String := String.ofList (List.replicate n.toNat '0')
  if 0 ≤ e && point ≤ 16 then digits ++ zeros e ++ ".0"
  else if 0 < point && point ≤ 16 then
    String.ofList (ds.take point.toNat) ++ "." ++ String.ofList (ds.drop point.toNat)
  else if -5 < point && point ≤ 0 then "0." ++ zeros (-point) ++ digits
  else
    let fraction := if ds.length = 1 then "" else "." ++ String.ofList (ds.drop 1)
    String.ofList (ds.take 1) ++ fraction ++ "e" ++ toString (point - 1)

/-- The text of the double nearest to a decimal number. -/
def text (x : Decimal) : String :=
  let sign := if x.negative then "-" else ""
  let (num, den) := scaled 10 x.digits x.exponent 1
  if num == 0 then sign ++ "0.0"
  else
    let (mantissa, q) := nearestDouble num den
    if mantissa == 0 then sign ++ "0.0"
    else
      let (c, p) := shortest mantissa q
      let (ds, e) := dropZeros 20 (Nat.toDigits 10 c) p
      sign ++ layout ds e

end Decimal
end ScriptIndex.Settings

import NoteQuery.Number.Binary
import NoteQuery.Text.Blank
import NoteQuery.Text.Word

/-!
# Reading numbers

Texts that write a number: an optional sign, decimal digits of any script with an optional
point and exponent, low lines allowed between two digits, or a name of infinity or NaN.
-/

namespace NoteQuery.Number

/-- Digits of any script as ASCII digits. -/
def plainDigits (cs : List Char) : List Char :=
  cs.map fun c =>
    match Text.digitValue? c with
    | some d => Char.ofNat (48 + d)
    | none => c

/-- Drops the low lines, each of which has to stand between two digits. -/
def dropLowLines? : (previous : Char) → List Char → Option (List Char)
  | previous, [] => if previous == '_' then none else some []
  | previous, c :: cs =>
    if c == '_' then if previous.isDigit then dropLowLines? '_' cs else none
    else if previous == '_' && !c.isDigit then none
    else (dropLowLines? c cs).map (c :: ·)

/-- Splits off a sign: true for `-`. -/
def splitSign : List Char → Bool × List Char
  | '-' :: cs => (true, cs)
  | '+' :: cs => (false, cs)
  | cs => (false, cs)

def spanDigits (cs : List Char) : List Char × List Char := cs.span Char.isDigit

def exponent? : List Char → Option Int
  | [] => some 0
  | c :: cs =>
    if c == 'e' || c == 'E' then
      let (negative, ds) := splitSign cs
      if ds ≠ [] ∧ ds.all Char.isDigit then
        some (if negative then -(Text.digitsValue ds : Int) else Text.digitsValue ds)
      else none
    else none

/-- The double nearest to `digits · 10 ^ e`. Far outside the range the power is not computed. -/
def ofDecimal (negative : Bool) (digits : List Char) (e : Int) : Float :=
  let n := Text.digitsValue digits
  let size : Int := (digits.length : Int) + e
  if n = 0 ∨ size < -330 then ofRatio negative 0 1
  else if e > 310 then infinity negative
  else if e ≥ 0 then ofRatio negative (n * tenTo e.toNat) 1
  else ofRatio negative n (tenTo (-e).toNat)

def unsigned? (negative : Bool) (cs : List Char) : Option Float :=
  let (whole, afterWhole) := spanDigits cs
  let (fraction, rest) :=
    match afterWhole with
    | '.' :: more => spanDigits more
    | more => ([], more)
  if whole = [] ∧ fraction = [] then none
  else (exponent? rest).map fun e => ofDecimal negative (whole ++ fraction) (e - fraction.length)

def readFloat? (cs : List Char) : Option Float :=
  let (negative, body) := splitSign (plainDigits (Text.trim cs))
  let name := String.ofList (body.map Char.toLower)
  if name = "inf" ∨ name = "infinity" then some (infinity negative)
  else if name = "nan" then some nan
  else (dropLowLines? '+' body).bind (unsigned? negative)

def digitIn? (base : Nat) (c : Char) : Option Nat :=
  ((Text.hexValue? c).filter (· < base))

def baseMark (base : Nat) : Option Char :=
  if base = 2 then some 'b' else if base = 8 then some 'o' else if base = 16 then some 'x' else none

def dropBaseMark (base : Nat) : List Char → List Char
  | '0' :: c :: cs => if baseMark base = some c.toLower then
      (match cs with
      | '_' :: more => more
      | more => more)
    else '0' :: c :: cs
  | cs => cs

def digitsIn? (base : Nat) (value : Nat) : (digitBefore : Bool) → List Char → Option Nat
  | digitBefore, [] => if digitBefore then some value else none
  | digitBefore, c :: cs =>
    if c == '_' then if digitBefore then digitsIn? base value false cs else none
    else
      match digitIn? base c with
      | some d => digitsIn? base (base * value + d) true cs
      | none => none

def readInt? (base : Nat) (cs : List Char) : Option Int :=
  let (negative, body) := splitSign (plainDigits (Text.trim cs))
  (digitsIn? base 0 false (dropBaseMark base body)).map fun n => if negative then -(n : Int) else n

end NoteQuery.Number

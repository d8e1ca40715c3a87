import NoteQuery.Number.Binary
import NoteQuery.Text.Word

/-!
# Shortest decimal text of a float

The digits written are the fewest that read back as the same float, and of those the ones
nearest to its value. The real numbers that read back as a float form an interval around it,
with both ends when its significand is even; a grid of decimals meets the interval exactly
if one of the two neighbours of the value on that grid does.
-/

namespace NoteQuery.Number

/-- Decimal digits `0.d₁d₂… · 10 ^ point`. -/
structure Decimal where
  digits : List Char
  point : Int

/-- The interval around a positive float in quarter units, and its value there. -/
structure Neighbourhood where
  low : Nat
  value : Nat
  high : Nat
  closed : Bool

/-- Half the distance to each neighbour. Below a power of two the distance is halved. -/
def neighbourhood (x : Float) : Neighbourhood :=
  let half := 2 * twoTo (lastPlace x)
  let value := 4 * magnitude x
  let below := if fractionField x = 0 ∧ 1 < exponentField x then half / 2 else half
  ⟨value - below, value, value + half, significand x % 2 == 0⟩

def Neighbourhood.holds (n : Neighbourhood) (num den : Nat) : Bool :=
  if n.closed then n.low * den ≤ num && num ≤ n.high * den else n.low * den < num && num < n.high * den

/-- The power of ten above a value in quarter units: `10 ^ (p - 1) ≤ value < 10 ^ p`. -/
def decimalPoint (value : Nat) : Int :=
  ((Text.decimal (value * tenTo 400 / (4 * unit))).length : Int) - 400

/-- The grid of decimals with `count` digits before the point shifted by `shift`: the point of
it in the neighbourhood that is nearest to the value, a tie to the even digit. -/
def onGrid? (n : Neighbourhood) (shift : Int) : Option Nat :=
  let scale := if shift ≥ 0 then tenTo shift.toNat else 1
  let coarse := if shift ≥ 0 then 1 else tenTo (-shift).toNat
  let num := n.value * scale
  let den := 4 * unit * coarse
  let c := num / den
  let holds (c : Nat) : Bool := n.holds (c * (4 * unit) * coarse) scale
  match holds c, holds (c + 1) with
  | true, true => some (roundRatio num den)
  | true, false => some c
  | false, true => some (c + 1)
  | false, false => none

/-- Tries grids of ever more digits; seventeen always suffice. -/
def searchGrid (n : Neighbourhood) (point : Int) : (left count : Nat) → Nat × Nat
  | 0, count => (n.value * tenTo (count - point).toNat / (4 * unit), count)
  | left + 1, count =>
    match onGrid? n (count - point) with
    | some c => (c, count)
    | none => searchGrid n point left (count + 1)

def dropFinalZeros (ds : List Char) : List Char := (ds.reverse.dropWhile (· == '0')).reverse

def shortest (x : Float) : Decimal :=
  let n := neighbourhood x
  let point := decimalPoint n.value
  let (c, count) := searchGrid n point 17 1
  let ds := Text.decimal c
  ⟨dropFinalZeros ds, point + ((ds.length : Int) - count)⟩

/-- Positional from `0.0001` to below `10 ^ 16`, with at least one digit after the point;
otherwise one digit, the others after a point, and a signed exponent of two digits or more. -/
def Decimal.text (d : Decimal) : List Char :=
  let count : Int := d.digits.length
  if -4 < d.point ∧ d.point ≤ 16 then
    if d.point ≤ 0 then '0' :: '.' :: List.replicate (-d.point).toNat '0' ++ d.digits
    else if count ≤ d.point then d.digits ++ List.replicate (d.point - count).toNat '0' ++ ['.', '0']
    else d.digits.take d.point.toNat ++ '.' :: d.digits.drop d.point.toNat
  else
    let mantissa :=
      match d.digits with
      | [] => []
      | [c] => [c]
      | c :: cs => c :: '.' :: cs
    let e := d.point - 1
    mantissa ++ 'e' :: (if e < 0 then '-' else '+') :: Text.padded 2 e.natAbs

def floatChars (x : Float) : List Char :=
  if isNaN x then ['n', 'a', 'n']
  else
    let size :=
      if !isFinite x then ['i', 'n', 'f']
      else if magnitude x = 0 then ['0', '.', '0']
      else (shortest x).text
    if isNegative x then '-' :: size else size

def floatText (x : Float) : String := String.ofList (floatChars x)

end NoteQuery.Number

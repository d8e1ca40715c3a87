/-!
# Floating-point numbers as exact integers

Every finite double is a whole number of units of `2 ^ -1074`. Reading it as that integer
makes comparison exact, between floats and with integers of any size, and rounding a ratio
of natural numbers to the nearest double is the way back.
-/

namespace NoteQuery.Number

def twoTo (n : Nat) : Nat := Nat.pow 2 n

def tenTo (n : Nat) : Nat := Nat.pow 10 n

def unit : Nat := twoTo 1074

/-- The exponent field: `0` for subnormal numbers, `2047` for infinities and NaN. -/
def exponentField (x : Float) : Nat := x.toBits.toNat / twoTo 52 % twoTo 11

def fractionField (x : Float) : Nat := x.toBits.toNat % twoTo 52

def isNegative (x : Float) : Bool := x.toBits.toNat / twoTo 63 == 1

def isFinite (x : Float) : Bool := exponentField x != 2047

def isNaN (x : Float) : Bool := exponentField x == 2047 && fractionField x != 0

def significand (x : Float) : Nat :=
  if exponentField x = 0 then fractionField x else twoTo 52 + fractionField x

/-- The size in units of the last place of the significand, as a power of two. -/
def lastPlace (x : Float) : Nat := exponentField x - 1

def magnitude (x : Float) : Nat := significand x * twoTo (lastPlace x)

def units (x : Float) : Int := if isNegative x then -(magnitude x : Int) else magnitude x

def infinity (negative : Bool) : Float :=
  Float.ofBits (if negative then 0xfff0000000000000 else 0x7ff0000000000000)

def nan : Float := Float.ofBits 0x7ff8000000000000

def isWhole (x : Float) : Bool := isFinite x && magnitude x % unit == 0

/-- The integer part of a finite float, toward zero. -/
def truncate (x : Float) : Int := (units x).tdiv unit

/-- The quotient rounded to the nearest natural number, a half to the even neighbour. -/
def roundRatio (num den : Nat) : Nat :=
  let q := num / den
  let twice := 2 * (num % den)
  if twice < den then q else if twice > den then q + 1 else q + q % 2

/-- The bits of the positive double nearest to `num / den`. The exponent is chosen so that
the significand has 53 bits, or fewer only at the bottom of the range; a significand that
rounds up to 54 bits carries into the exponent field by itself. -/
def nearestBits (num den : Nat) : Nat :=
  let guess : Int := (num.log2 : Int) - den.log2 - 52
  let fits (e : Int) : Bool :=
    if e ≥ 0 then twoTo 52 * den * twoTo e.toNat ≤ num else twoTo 52 * den ≤ num * twoTo (-e).toNat
  let e : Int := max (if fits guess then guess else guess - 1) (-1074)
  let m := if e ≥ 0 then roundRatio num (den * twoTo e.toNat) else roundRatio (num * twoTo (-e).toNat) den
  min ((e + 1074).toNat * twoTo 52 + m) (2047 * twoTo 52)

/-- The double nearest to `num / den`, a tie to the even significand; infinity beyond the
range. -/
def ofRatio (negative : Bool) (num den : Nat) : Float :=
  let bits := if num = 0 then 0 else nearestBits num den
  Float.ofBits (UInt64.ofNat (if negative then twoTo 63 + bits else bits))

/-- The least natural number that rounds to infinity. -/
def tooLarge : Nat := twoTo 1024 - twoTo 970

def ofInt? (n : Int) : Option Float :=
  if n.natAbs < tooLarge then some (ofRatio (n < 0) n.natAbs 1) else none

end NoteQuery.Number

import NoteQuery.Number.Binary

/-!
# Numbers

Integers of any size and floats are two kinds of number with one exact order: both are
placed on the line of multiples of `2 ^ -1074`, between the infinities. NaN has no place.
-/

namespace NoteQuery

inductive Number
  | int (n : Int)
  | float (x : Float)

namespace Number

inductive Place
  | below
  | at (units : Int)
  | above
  deriving DecidableEq

def Place.compare : Place → Place → Ordering
  | .below, .below => .eq
  | .below, _ => .lt
  | .at _, .below => .gt
  | .at m, .at n => Ord.compare m n
  | .at _, .above => .lt
  | .above, .above => .eq
  | .above, _ => .gt

def place? : Number → Option Place
  | .int n => some (.at (n * unit))
  | .float x =>
    if isNaN x then none
    else if isFinite x then some (.at (units x))
    else some (if isNegative x then .below else .above)

/-- The exact order of two numbers. NaN ties with every number. -/
def compare (a b : Number) : Ordering :=
  match a.place?, b.place? with
  | some p, some q => p.compare q
  | _, _ => .eq

def same (a b : Number) : Bool :=
  match a.place?, b.place? with
  | some p, some q => p == q
  | _, _ => false

/-- The float nearest to a number, if an integer is in range. -/
def toFloat? : Number → Option Float
  | .int n => ofInt? n
  | .float x => some x

/-- Integers add exactly. As soon as a float takes part the sum is a float, which fails for
an integer beyond the range of floats. -/
def add? : Number → Number → Option Number
  | .int m, .int n => some (.int (m + n))
  | a, b => (a.toFloat?).bind fun x => (b.toFloat?).map fun y => .float (x + y)

end Number

end NoteQuery

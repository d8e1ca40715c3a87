import NoteQuery.Text.Case
import NoteQuery.Value.Basic

/-!
# Literals

The right side of a condition: a quoted text, a truth value, a number, or a bare word, which
stands for itself. Whole numbers are integers as long as floats reach so far.
-/

namespace NoteQuery.Query

def isQuote (c : Char) : Bool := c == '"' || c == '\''

def unquoted? : List Char → Option (List Char)
  | [] => none
  | q :: cs => if isQuote q && cs.getLast? == some q then some cs.dropLast else none

def dropFinalBreak (cs : List Char) : List Char :=
  if cs.getLast? == some '\n' then cs.dropLast else cs

/-- The value of an integer in decimal digits. One beyond the range of floats is infinite. -/
def wholeValue (negative : Bool) (n : Nat) : Value :=
  if n < Number.tooLarge then .int (if negative then -(n : Int) else n)
  else .float (Number.infinity negative)

def numberLiteral? (cs : List Char) : Option Value :=
  let (negative, body) := Number.splitSign (Number.plainDigits (dropFinalBreak cs))
  if body ≠ [] ∧ body.all Char.isDigit then some (wholeValue negative (Text.digitsValue body))
  else (Number.unsigned? negative body).map .float

def literalValue (cs : List Char) : Value :=
  match unquoted? cs with
  | some inside => .text (String.ofList inside)
  | none =>
    if Text.lower cs = ['t', 'r', 'u', 'e'] then .bool true
    else if Text.lower cs = ['f', 'a', 'l', 's', 'e'] then .bool false
    else (numberLiteral? cs).getD (.text (String.ofList cs))

def finalDigits (cs : List Char) : List Char := (cs.reverse.takeWhile Text.isDecimalDigit).reverse

end NoteQuery.Query

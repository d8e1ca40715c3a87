import NoteQuery.Text.Ranges
import NoteQuery.Text.WordTable
import NoteQuery.Text.DigitTable

/-!
# Word characters and decimal digits

A word character is a letter, a digit or number of any script, or the low line.
-/

namespace NoteQuery.Text

def isWord (c : Char) : Bool :=
  if c.toNat < 128 then c.isAlphanum || c == '_' else inRanges wordEdges c.toNat

def isFieldChar (c : Char) : Bool := isWord c || c == '.'

def digitValue? (c : Char) : Option Nat :=
  let n := c.toNat
  if n < 128 then
    if c.isDigit then some (n - 48) else none
  else
    let place := edgesUpTo digitEdges n
    if place % 2 == 1 then some ((n - digitEdges.getD (place - 1) 0) % 10) else none

def isDecimalDigit (c : Char) : Bool := (digitValue? c).isSome

/-- The number that a run of decimal digits writes; other characters count as zero. -/
def digitsValue (cs : List Char) : Nat :=
  cs.foldl (fun n c => 10 * n + (digitValue? c).getD 0) 0

def decimal (n : Nat) : List Char := Nat.toDigits 10 n

def signedDecimal (n : Int) : List Char :=
  match n with
  | .ofNat m => decimal m
  | .negSucc m => '-' :: decimal (m + 1)

/-- Integers of more digits are neither written in decimal nor read. -/
def maxDigits : Nat := 4300

def isLong (n : Int) : Bool := maxDigits < (decimal n.natAbs).length

def padded (width n : Nat) : List Char :=
  let digits := decimal n
  List.replicate (width - digits.length) '0' ++ digits

def hexadecimal (width n : Nat) : List Char :=
  let digits := Nat.toDigits 16 n
  List.replicate (width - digits.length) '0' ++ digits

def hexValue? (c : Char) : Option Nat :=
  if c.isDigit then some (c.toNat - 48)
  else if 'a' ≤ c && c ≤ 'f' then some (c.toNat - 87)
  else if 'A' ≤ c && c ≤ 'F' then some (c.toNat - 55)
  else none

end NoteQuery.Text

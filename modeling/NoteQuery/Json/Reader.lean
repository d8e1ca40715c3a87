import NoteQuery.Json
import NoteQuery.Number.Read
import NoteQuery.Text.Segment

/-!
# Reading JSON documents

Reads a text as one document with blanks around it. NaN and the infinities have names, and a number
without a point and an exponent is an integer. An object keeps every entry, in order. A text with
half of a surrogate pair has no characters and is not read.
-/

namespace NoteQuery.Json

def isBlank (c : Char) : Bool := c == ' ' || c == '\t' || c == '\n' || c == '\r'

def dropBlanks (cs : List Char) : List Char := cs.dropWhile isBlank

/-! ## Texts -/

def shortEscape? (c : Char) : Option Nat :=
  if c == '"' || c == '\\' || c == '/' then some c.toNat
  else if c == 'n' then some 10
  else if c == 'r' then some 13
  else if c == 't' then some 9
  else if c == 'b' then some 8
  else if c == 'f' then some 12
  else none

def hexUnit? (a b c d : Char) : Option Nat := do
  return 0x1000 * (← Text.hexValue? a) + 0x100 * (← Text.hexValue? b) + 0x10 * (← Text.hexValue? c) +
    (← Text.hexValue? d)

def addUnit (unit : Option Nat) (rest : Option (List Nat × List Char)) : Option (List Nat × List Char) := do
  let n ← unit
  let (units, rest) ← rest
  return (n :: units, rest)

/-- The code units up to the closing quote, and what is after it. -/
def units? : List Char → Option (List Nat × List Char)
  | [] => none
  | c :: cs =>
    if c == '"' then some ([], cs)
    else if c == '\\' then
      match cs with
      | 'u' :: a :: b :: c :: d :: cs => addUnit (hexUnit? a b c d) (units? cs)
      | c :: cs => addUnit (shortEscape? c) (units? cs)
      | [] => none
    else if c.toNat < 32 then none
    else addUnit (some c.toNat) (units? cs)

def isHighHalf (n : Nat) : Bool := 0xd800 ≤ n && n < 0xdc00

def isLowHalf (n : Nat) : Bool := 0xdc00 ≤ n && n < 0xe000

/-- The characters of code units, two of which make one if they are the halves of a surrogate pair. -/
def joinUnits? : List Nat → Option (List Char)
  | [] => some []
  | n :: units =>
    if isHighHalf n then
      match units with
      | m :: units =>
        if isLowHalf m then
          (joinUnits? units).map (Char.ofNat (0x10000 + 0x400 * (n - 0xd800) + (m - 0xdc00)) :: ·)
        else none
      | [] => none
    else if isLowHalf n then none
    else (joinUnits? units).map (Char.ofNat n :: ·)

def text? (cs : List Char) : Option (String × List Char) := do
  let (units, rest) ← units? cs
  let cs ← joinUnits? units
  return (String.ofList cs, rest)

/-! ## Numbers and names -/

def minus : List Char → List Char × List Char
  | '-' :: cs => (['-'], cs)
  | cs => ([], cs)

/-- The digits before a point. A zero stands alone. -/
def wholeDigits : List Char → List Char × List Char
  | '0' :: cs => (['0'], cs)
  | cs => Number.spanDigits cs

/-- A point with the digits after it. Without digits it is no part of the number. -/
def fraction : List Char → List Char × List Char
  | '.' :: cs =>
    match Number.spanDigits cs with
    | ([], _) => ([], '.' :: cs)
    | (digits, rest) => ('.' :: digits, rest)
  | cs => ([], cs)

def sign : List Char → List Char × List Char
  | '+' :: cs => (['+'], cs)
  | '-' :: cs => (['-'], cs)
  | cs => ([], cs)

/-- An exponent. Without digits it is no part of the number. -/
def exponent : List Char → List Char × List Char
  | [] => ([], [])
  | c :: cs =>
    if c == 'e' || c == 'E' then
      match Number.spanDigits (sign cs).2 with
      | ([], _) => ([], c :: cs)
      | (digits, rest) => (c :: (sign cs).1 ++ digits, rest)
    else ([], c :: cs)

def number? (cs : List Char) : Option (Json × List Char) :=
  let (minus, cs) := minus cs
  let (whole, cs) := wholeDigits cs
  let (fraction, cs) := fraction cs
  let (exponent, cs) := exponent cs
  if whole = [] then none
  else if fraction = [] ∧ exponent = [] then
    let size : Int := Text.digitsValue whole
    some (.int (if minus = [] then size else -size), cs)
  else (Number.readFloat? (minus ++ whole ++ fraction ++ exponent)).map fun x => (.float x, cs)

def names : List (String × Json) :=
  [("null", .null), ("true", .bool true), ("false", .bool false), ("NaN", .float Number.nan),
    ("Infinity", .float (Number.infinity false)), ("-Infinity", .float (Number.infinity true))]

def name? (cs : List Char) : Option (Json × List Char) :=
  names.findSome? fun (name, doc) => (Text.after? name.toList cs).map (doc, ·)

/-! ## Collections -/

section

variable {α : Type} (item? : List Char → Option (α × List Char)) (close : Char)

/-- Items with commas between them up to a closing bracket. The first argument bounds their number. -/
def sequence? : Nat → List Char → Option (List α × List Char)
  | 0, _ => none
  | steps + 1, cs => do
    let (item, cs) ← item? cs
    match dropBlanks cs with
    | [] => none
    | c :: cs =>
      if c == close then some ([item], cs)
      else if c == ',' then
        let (items, cs) ← sequence? steps (dropBlanks cs)
        return (item :: items, cs)
      else none

def items? (cs : List Char) : Option (List α × List Char) :=
  match dropBlanks cs with
  | [] => none
  | c :: cs => if c == close then some ([], cs) else sequence? item? close (cs.length + 1) (c :: cs)

def pair? (cs : List Char) : Option ((String × α) × List Char) :=
  match cs with
  | '"' :: cs => do
    let (key, cs) ← text? cs
    match dropBlanks cs with
    | ':' :: cs =>
      let (item, cs) ← item? (dropBlanks cs)
      return ((key, item), cs)
    | _ => none
  | _ => none

end

/-- A document and what is after it. The first argument bounds how deep collections are nested. -/
def value? : Nat → List Char → Option (Json × List Char)
  | 0, _ => none
  | depth + 1, cs =>
    match cs with
    | [] => none
    | c :: rest =>
      if c == '"' then (text? rest).map fun (s, cs) => (.text s, cs)
      else if c == '[' then (items? (value? depth) ']' rest).map fun (items, cs) => (.list items, cs)
      else if c == '{' then (items? (pair? (value? depth)) '}' rest).map fun (entries, cs) => (.object entries, cs)
      else (name? cs).or (number? cs)

def read? (text : String) : Option Json := do
  let (doc, rest) ← value? text.toList.length (dropBlanks text.toList)
  if dropBlanks rest = [] then some doc else none

end NoteQuery.Json

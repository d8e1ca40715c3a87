import NoteQuery.Number.Read
import NoteQuery.Text.Segment
import NoteQuery.Toml.Basic
import NoteQuery.Toml.Fault

/-!
# TOML scalars

Strings, dates, times and numbers. Each recogniser returns what it read and the rest of the
text.
-/

namespace NoteQuery.Toml

def failAt {α : Type} (problem : Problem) (rest : List Char) : Except Fault α :=
  .error ⟨problem, rest.length⟩

def isSpace (c : Char) : Bool := c == ' ' || c == '\t'

def skipSpaces (cs : List Char) : List Char := cs.dropWhile isSpace

def skipLines (cs : List Char) : List Char := cs.dropWhile fun c => isSpace c || c == '\n'

/-- Control characters; tabs are none, nor are line feeds in a text of several lines. -/
def isIllegal (lines : Bool) (c : Char) : Bool :=
  (c.toNat < 32 || c.toNat == 127) && c != '\t' && !(lines && c == '\n')

/-- Refuses the first illegal character of `body`, which `rest` follows. -/
def checkLegal (lines : Bool) (body rest : List Char) : Except Fault Unit :=
  match body.dropWhile (!isIllegal lines ·) with
  | [] => .ok ()
  | c :: more => .error ⟨.comment c, more.length + 1 + rest.length⟩

def upTo? (needle : List Char) : List Char → Option (List Char × List Char)
  | [] => none
  | c :: cs =>
    match Text.after? needle (c :: cs) with
    | some rest => some ([], rest)
    | none => (upTo? needle cs).map fun (body, rest) => (c :: body, rest)

/-! ## Strings -/

def literalString (lines : Bool) (cs : List Char) : Except Fault (List Char × List Char) :=
  let delimiter := if lines then ['\'', '\'', '\''] else ['\'']
  match upTo? delimiter cs with
  | none => failAt (.noDelimiter (String.ofList delimiter)) []
  | some (body, rest) => do
    checkLegal lines body (delimiter ++ rest)
    return (body, rest)

def hexEscape (count : Nat) (cs : List Char) : Except Fault (List Char × List Char) :=
  let digits := cs.take count
  let rest := cs.drop count
  if digits.length = count ∧ digits.all fun d => (Text.hexValue? d).isSome then
    let code := digits.foldl (fun n d => 16 * n + (Text.hexValue? d).getD 0) 0
    if code < 0xd800 ∨ (0xdfff < code ∧ code < 0x110000) then .ok ([Char.ofNat code], rest)
    else failAt .notScalar rest
  else failAt .hexadecimal cs

def escaped? (c : Char) : Option Char :=
  match c with
  | 'b' => some (Char.ofNat 8)
  | 't' => some '\t'
  | 'n' => some '\n'
  | 'f' => some (Char.ofNat 12)
  | 'r' => some '\r'
  | '"' => some '"'
  | '\\' => some '\\'
  | _ => none

/-- What stands after a backslash. One at the end of a line joins it to the next text. -/
def escape (lines : Bool) (cs : List Char) : Except Fault (List Char × List Char) :=
  match cs with
  | [] => failAt .escape []
  | c :: rest =>
    if lines && c == '\n' then .ok ([], skipLines rest)
    else if lines && isSpace c then
      match skipSpaces rest with
      | [] => .ok ([], [])
      | '\n' :: rest => .ok ([], skipLines rest)
      | rest => failAt .escape rest
    else if c == 'u' then hexEscape 4 rest
    else if c == 'U' then hexEscape 8 rest
    else
      match escaped? c with
      | some e => .ok ([e], rest)
      | none => failAt .escape rest

/-- A basic string after its opening delimiter. The first argument bounds the number of steps. -/
def basicString (lines : Bool) : Nat → List Char → Except Fault (List Char × List Char)
  | 0, _ => failAt .unterminated []
  | _ + 1, [] => failAt .unterminated []
  | steps + 1, c :: cs =>
    if c == '"' then
      if !lines then .ok ([], cs)
      else
        match cs with
        | '"' :: '"' :: rest => .ok ([], rest)
        | _ => (basicString lines steps cs).map fun (body, rest) => (c :: body, rest)
    else if c == '\\' then do
      let (e, rest) ← escape lines cs
      let (body, rest) ← basicString lines steps rest
      return (e ++ body, rest)
    else if isIllegal lines c then failAt (.character c) (c :: cs)
    else (basicString lines steps cs).map fun (body, rest) => (c :: body, rest)

/-- Up to two quotes may stand before the closing delimiter of a string of several lines. -/
def finalQuotes (quote : Char) (body cs : List Char) : List Char × List Char :=
  let extra := (cs.take 2).takeWhile (· == quote)
  (body ++ extra, cs.drop extra.length)

def linesString (quote : Char) (cs : List Char) : Except Fault (List Char × List Char) := do
  let cs := Text.dropOne '\n' cs
  let (body, rest) ← if quote == '"' then basicString true (cs.length + 1) cs else literalString true cs
  return finalQuotes quote body rest

/-! ## Dates and times -/

def numeral? (count low high : Nat) (cs : List Char) : Option (Nat × List Char) :=
  let digits := cs.take count
  let n := Text.digitsValue digits
  if digits.length = count ∧ digits.all Char.isDigit ∧ low ≤ n ∧ n ≤ high then some (n, cs.drop count)
  else none

/-- Digits after a point as microseconds; further digits are dropped. -/
def micros (cs : List Char) : Nat × List Char :=
  match cs with
  | '.' :: rest =>
    let digits := rest.takeWhile Char.isDigit
    if digits.isEmpty then (0, cs)
    else (Text.digitsValue ((digits ++ List.replicate 6 '0').take 6), rest.drop digits.length)
  | _ => (0, cs)

def clock? (cs : List Char) : Option (Clock × List Char) := do
  let (hour, rest) ← numeral? 2 0 23 cs
  let (minute, rest) ← numeral? 2 0 59 (← Text.after? [':'] rest)
  let (second, rest) ← numeral? 2 0 59 (← Text.after? [':'] rest)
  let (micro, rest) := micros rest
  some (⟨hour, minute, second, micro⟩, rest)

def offset (cs : List Char) : Option Int × List Char :=
  match cs with
  | [] => (none, [])
  | c :: rest =>
    if c == 'Z' || c == 'z' then (some 0, rest)
    else if c == '+' || c == '-' then
      let span? := do
        let (hours, rest) ← numeral? 2 0 23 rest
        let (minutes, rest) ← numeral? 2 0 59 (← Text.after? [':'] rest)
        some (hours * 60 + minutes, rest)
      match span? with
      | some (span, rest) => (some (if c == '-' then -(span : Int) else span), rest)
      | none => (none, cs)
    else (none, cs)

def date? (cs : List Char) : Option (Except TimeFault Toml × List Char) := do
  let (year, rest) ← numeral? 4 0 9999 cs
  let (month, rest) ← numeral? 2 1 12 (← Text.after? ['-'] rest)
  let (day, rest) ← numeral? 2 1 31 (← Text.after? ['-'] rest)
  let date := Date.of year month day
  let timed? := (rest.head?.filter fun c => c == 'T' || c == 't' || c == ' ').bind fun _ => clock? (rest.drop 1)
  match timed? with
  | none => some (date.map .date, rest)
  | some (time, rest) =>
    let (zone, rest) := offset rest
    some (date.map fun d => .dateTime ⟨d, time, zone⟩, rest)

/-! ## Numbers -/

def digitRun (p : Char → Bool) : List Char → List Char × List Char
  | '_' :: c :: cs =>
    if p c then
      let (run, rest) := digitRun p cs
      ('_' :: c :: run, rest)
    else ([], '_' :: c :: cs)
  | c :: cs =>
    if p c then
      let (run, rest) := digitRun p cs
      (c :: run, rest)
    else ([], c :: cs)
  | [] => ([], [])

def digits? (p : Char → Bool) (cs : List Char) : Option (List Char × List Char) :=
  if (cs.head?.map p).getD false then some (digitRun p cs) else none

def based? (cs : List Char) : Option (Toml × List Char) :=
  let read (base : Nat) (cs : List Char) : Option (Toml × List Char) := do
    let (run, rest) ← digits? (fun c => (Number.digitIn? base c).isSome) cs
    some (.int ((Number.readInt? base run).getD 0), rest)
  match cs with
  | '0' :: 'x' :: cs => read 16 cs
  | '0' :: 'b' :: cs => read 2 cs
  | '0' :: 'o' :: cs => read 8 cs
  | _ => none

def signChars (cs : List Char) : List Char := cs.take (if cs.head? == some '-' || cs.head? == some '+' then 1 else 0)

/-- The part of a decimal before its point: a zero, or digits that begin with none. -/
def wholePart? (cs : List Char) : Option (List Char × List Char) :=
  match cs with
  | '0' :: rest => some (['0'], rest)
  | _ => digits? Char.isDigit cs

def fractionPart (cs : List Char) : List Char × List Char :=
  match cs with
  | '.' :: rest => ((digits? Char.isDigit rest).map fun (run, rest) => ('.' :: run, rest)).getD ([], cs)
  | _ => ([], cs)

def exponentPart (cs : List Char) : List Char × List Char :=
  match cs with
  | e :: rest =>
    if e == 'e' || e == 'E' then
      let sign := signChars rest
      ((digits? Char.isDigit (rest.drop sign.length)).map fun (run, rest) =>
        (e :: sign ++ run, rest)).getD ([], cs)
    else ([], cs)
  | [] => ([], [])

def decimal? (cs : List Char) : Option (Toml × List Char) := do
  let sign := signChars cs
  let (whole, rest) ← wholePart? (cs.drop sign.length)
  let (fraction, rest) := fractionPart rest
  let (exponent, rest) := exponentPart rest
  let written := sign ++ whole ++ fraction ++ exponent
  if fraction.isEmpty && exponent.isEmpty then some (.int ((Number.readInt? 10 written).getD 0), rest)
  else some (.float ((Number.readFloat? written).getD Number.nan), rest)

def namedFloat? (cs : List Char) : Option (Toml × List Char) :=
  let sign := signChars cs
  let rest := cs.drop sign.length
  let name := String.ofList (rest.take 3)
  if name = "inf" then some (.float (Number.infinity (sign == ['-'])), rest.drop 3)
  else if name = "nan" then some (.float Number.nan, rest.drop 3)
  else none

def number? (cs : List Char) : Option (Toml × List Char) := based? cs <|> decimal? cs <|> namedFloat? cs

def plainScalar (cs : List Char) : Except Fault (Toml × List Char) :=
  match date? cs with
  | some (.ok v, rest) => .ok (v, rest)
  | some (.error _, _) => failAt .date cs
  | none =>
    match clock? cs with
    | some (t, rest) => .ok (.clock t, rest)
    | none =>
      match number? cs with
      | some (.int n, rest) =>
        -- only decimal digits are counted against the limit
        if (based? cs).isNone && Text.isLong n then failAt (.digits (Text.decimal n.natAbs).length) cs
        else .ok (.int n, rest)
      | some found => .ok found
      | none => failAt .value cs

def string? (cs : List Char) : Option (Except Fault (List Char × List Char)) :=
  match cs with
  | '"' :: '"' :: '"' :: rest => some (linesString '"' rest)
  | '"' :: rest => some (basicString false (rest.length + 1) rest)
  | '\'' :: '\'' :: '\'' :: rest => some (linesString '\'' rest)
  | '\'' :: rest => some (literalString false rest)
  | _ => none

end NoteQuery.Toml

import NoteQuery.Bytes.Base64
import NoteQuery.Text.Case
import NoteQuery.Yaml.Node

/-!
# The values of scalars

What the text of a scalar stands for under each tag.
-/

namespace NoteQuery.Yaml

def withoutLowLines (cs : List Char) : List Char := cs.filter (· != '_')

def integerOf (base : Nat) (cs : List Char) : Except Unbuildable Int :=
  match Number.readInt? base cs with
  | some n =>
    let count := cs.countP Char.isDigit
    if base == 10 && Text.maxDigits < count then .error (.digits count) else .ok n
  | none => .error (.integer base (String.ofList cs))

def ofSixties (digits : List Int) : Int := digits.foldl (fun n d => 60 * n + d) 0

/-- An integer in base two, eight, ten, sixteen or, with colons, sixty. -/
def integerValue (text : List Char) : Except Unbuildable Int := do
  let written := withoutLowLines text
  if written.isEmpty then throw .emptyNumber
  let (negative, cs) := Number.splitSign written
  let signed (n : Int) : Int := if negative then -n else n
  match cs with
  | ['0'] => return 0
  | '0' :: 'b' :: ds => return signed (← integerOf 2 ds)
  | '0' :: 'x' :: ds => return signed (← integerOf 16 ds)
  | '0' :: ds => return signed (← integerOf 8 ('0' :: ds))
  | [] => throw .emptyNumber
  | _ =>
    if cs.contains ':' then return signed (ofSixties (← (Text.cutAt ':' cs).mapM (integerOf 10)))
    else return signed (← integerOf 10 cs)

def floatOf (cs : List Char) : Except Unbuildable Float :=
  match Number.readFloat? cs with
  | some x => .ok x
  | none => .error (.float (String.ofList cs))

def addSixties : (sum : Float) → (power : Nat) → List Float → Except Unbuildable Float
  | sum, _, [] => .ok sum
  | sum, power, d :: ds =>
    match Number.ofInt? power with
    | none => .error .tooLarge
    | some weight => addSixties (sum + d * weight) (60 * power) ds

def floatValue (text : List Char) : Except Unbuildable Float := do
  let written := Text.lower (withoutLowLines text)
  if written.isEmpty then throw .emptyNumber
  let (negative, cs) := Number.splitSign written
  let signed (x : Float) : Float := if negative then -x else x
  if cs == ".inf".toList then return Number.infinity negative
  else if cs == ".nan".toList then return Number.nan
  else if cs.contains ':' then
    let digits ← (Text.cutAt ':' cs).mapM floatOf
    return signed (← addSixties (Number.ofRatio false 0 1) 1 digits.reverse)
  else return signed (← floatOf cs)

def truthValue (text : List Char) : Except Unbuildable Bool :=
  let word := String.ofList (Text.lower text)
  if ["yes", "true", "on"].contains word then .ok true
  else if ["no", "false", "off"].contains word then .ok false
  else .error (.truth word)

/-- Microseconds of a fraction of a second; further digits are dropped. -/
def microseconds (digits : List Char) : Nat :=
  Text.digitsValue ((digits ++ List.replicate 6 '0').take 6)

def offsetOf (zone : Option (Char × List Char × List Char)) : Except TimeFault Int :=
  match zone with
  | none => .ok 0
  | some (sign, hours, minutes) =>
    let span : Int := Text.digitsValue hours * 60 + Text.digitsValue minutes
    let offset := if sign == '-' then -span else span
    if span < 1440 then .ok offset else .error (.offset offset)

def TimeParts.value (p : TimeParts) : Except TimeFault Value := do
  let date := Date.of (Text.digitsValue p.year) (Text.digitsValue p.month) (Text.digitsValue p.day)
  match p.clock with
  | none => return .date (← date)
  | some (hour, minute, second, fraction) =>
    let offset ← p.zone.mapM offsetOf
    let date ← date
    let clock ← Clock.of (Text.digitsValue hour) (Text.digitsValue minute) (Text.digitsValue second)
      (microseconds fraction)
    return .dateTime ⟨date, clock, offset⟩

/-- A date or date-time. One line end after it is overlooked. -/
def timeValue (text : List Char) : Except Unbuildable Value :=
  let cs := if text.getLast? == some '\n' then text.dropLast else text
  match timeParts? cs with
  | none => .error .timestamp
  | some parts => parts.value.mapError .time

def escapedCode (c : Char) : String :=
  let n := c.toNat
  let (letter, width) := if n < 0x100 then ('x', 2) else if n < 0x10000 then ('u', 4) else ('U', 8)
  String.ofList ('\\' :: letter :: Text.hexadecimal width n)

/-- Why a text is not ASCII: its first run of other characters. -/
def notAsciiText (cs : List Char) : String :=
  let place := (cs.takeWhile fun c => c.toNat < 128).length
  let run := (cs.drop place).takeWhile fun c => 128 ≤ c.toNat
  "'ascii' codec can't encode " ++
    (match run with
    | [c] => "character '" ++ escapedCode c ++ "' in position " ++ toString place
    | _ => "characters in position " ++ toString place ++ "-" ++ toString (place + run.length - 1)) ++
    ": ordinal not in range(128)"

def binaryValue (text : List Char) (mark : Mark) : Except Fault Value :=
  if text.all fun c => c.toNat < 128 then
    match Bytes.decodeBase64 text with
    | .ok bytes => .ok (.bytes bytes)
    | .error fault => .error (.marked none (.badBase64 fault.message) mark)
  else .error (.marked none (.notAscii (notAsciiText text)) mark)

/-- The scalar that a node stands for where one is asked for: of a mapping that of its entry
for the default value. -/
def Node.scalarText : Nat → Node → Except Fault (List Char)
  | _, .scalar _ text _ => .ok text
  | fuel + 1, .mapping tag entries start =>
    match entries.find? fun (key, _) => key.tag? == some .value with
    | some (_, node) => node.scalarText fuel
    | none => .error (.marked none (.notScalar (Node.mapping tag entries start).shape) start)
  | _, node => .error (.marked none (.notScalar node.shape) node.start)

def scalarValue (tag : Tag) (text : List Char) (mark : Mark) : Except Fault Value :=
  match tag with
  | .null => .ok .null
  | .bool => ((truthValue text).map Value.bool).mapError .unbuildable
  | .int => ((integerValue text).map Value.int).mapError .unbuildable
  | .float => ((floatValue text).map Value.float).mapError .unbuildable
  | .timestamp => (timeValue text).mapError .unbuildable
  | .binary => binaryValue text mark
  | _ => .ok (.text (String.ofList text))

end NoteQuery.Yaml

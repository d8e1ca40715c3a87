import NoteQuery.Text.Blank
import NoteQuery.Text.Segment
import NoteQuery.Number.Read
import NoteQuery.Time

/-!
# Tags of YAML nodes

The kinds of value that a node can be, and which of them a plain scalar is by its spelling.
-/

namespace NoteQuery.Yaml

inductive Tag
  | null
  | bool
  | int
  | float
  | binary
  | timestamp
  | omap
  | pairs
  | set
  | str
  | seq
  | map
  | merge
  | value
  | other (uri : String)
  deriving DecidableEq

namespace Tag

/-- The tags that have names of their own in the YAML namespace. -/
def named : List (String × Tag) :=
  [("null", .null), ("bool", .bool), ("int", .int), ("float", .float), ("binary", .binary),
    ("timestamp", .timestamp), ("omap", .omap), ("pairs", .pairs), ("set", .set), ("str", .str),
    ("seq", .seq), ("map", .map), ("merge", .merge), ("value", .value)]

def space : String := "tag:yaml.org,2002:"

def ofUri (uri : String) : Tag :=
  ((named.find? fun (name, _) => space ++ name == uri).map (·.2)).getD (.other uri)

def uri : Tag → String
  | .other uri => uri
  | t => ((named.find? fun (_, tag) => tag == t).map fun (name, _) => space ++ name).getD ""

end Tag

/-! ## Spellings -/

structure TimeParts where
  year : List Char
  month : List Char
  day : List Char
  clock : Option (List Char × List Char × List Char × List Char)
  /-- `Z`, or a sign with hours and minutes. -/
  zone : Option (Option (Char × List Char × List Char))

def digitsBetween? (least most : Nat) (cs : List Char) : Option (List Char × List Char) :=
  let digits := (cs.take most).takeWhile Char.isDigit
  if least ≤ digits.length then some (digits, cs.drop digits.length) else none

def drop? (c : Char) : List Char → Option (List Char)
  | [] => none
  | d :: cs => if c == d then some cs else none

def dropSpacesTabs (cs : List Char) : List Char := cs.dropWhile fun c => c == ' ' || c == '\t'

/-- What may follow the clock: nothing, or a zone after blanks. -/
def zone? (cs : List Char) : Option (Option (Option (Char × List Char × List Char))) :=
  if cs.isEmpty then some none
  else
    match dropSpacesTabs cs with
    | ['Z'] => some (some none)
    | sign :: rest =>
      if sign == '-' || sign == '+' then do
        let (hours, rest) ← digitsBetween? 1 2 rest
        if rest.isEmpty then some (some (some (sign, hours, [])))
        else
          let (minutes, rest) ← digitsBetween? 2 2 (← drop? ':' rest)
          if rest.isEmpty then some (some (some (sign, hours, minutes))) else none
      else none
    | [] => none

def clockSeparator? : List Char → Option (List Char)
  | [] => none
  | c :: cs =>
    if c == 'T' || c == 't' then some cs
    else if c == ' ' || c == '\t' then some (dropSpacesTabs cs)
    else none

def timeParts? (cs : List Char) : Option TimeParts := do
  let (year, rest) ← digitsBetween? 4 4 cs
  let (month, rest) ← digitsBetween? 1 2 (← drop? '-' rest)
  let (day, rest) ← digitsBetween? 1 2 (← drop? '-' rest)
  if rest.isEmpty then some ⟨year, month, day, none, none⟩
  else
    let (hour, rest) ← digitsBetween? 1 2 (← clockSeparator? rest)
    let (minute, rest) ← digitsBetween? 2 2 (← drop? ':' rest)
    let (second, rest) ← digitsBetween? 2 2 (← drop? ':' rest)
    let (fraction, rest) :=
      match rest with
      | '.' :: more => more.span Char.isDigit
      | more => ([], more)
    let zone ← zone? rest
    some ⟨year, month, day, some (hour, minute, second, fraction), zone⟩

/-- A date alone needs two digits for month and day to be recognised. -/
def isTimestamp (cs : List Char) : Bool :=
  match timeParts? cs with
  | none => false
  | some parts => parts.clock.isSome || (parts.month.length == 2 && parts.day.length == 2)

def isDigitOrLow (c : Char) : Bool := c.isDigit || c == '_'

/-- Digits of base sixty after a colon: one digit, or two of which the first is below six. -/
def isSixty : List Char → Bool
  | [a] => a.isDigit
  | [a, b] => '0' ≤ a && a ≤ '5' && b.isDigit
  | _ => false

def isWholeNumber (cs : List Char) : Bool :=
  match (Number.splitSign cs).2 with
  | '0' :: 'b' :: ds => !ds.isEmpty && ds.all fun c => c == '0' || c == '1' || c == '_'
  | '0' :: 'x' :: ds => !ds.isEmpty && ds.all fun c => (Text.hexValue? c).isSome || c == '_'
  | '0' :: ds => ds.all fun c => ('0' ≤ c && c ≤ '7') || c == '_'
  | c :: ds =>
    match Text.cutAt ':' (c :: ds) with
    | head :: sixties => '1' ≤ c && c ≤ '9' && head.all isDigitOrLow && sixties.all isSixty
    | [] => false
  | [] => false

def isExponent : List Char → Bool
  | [] => true
  | e :: sign :: ds =>
    (e == 'e' || e == 'E') && (sign == '-' || sign == '+') && !ds.isEmpty && ds.all Char.isDigit
  | _ => false

def beginsWithDigit (cs : List Char) : Bool := (cs.head?.map Char.isDigit).getD false

def isFraction (cs : List Char) : Bool :=
  let (signless, unsigned) := (cs, (Number.splitSign cs).2)
  let afterWhole := unsigned.dropWhile isDigitOrLow
  let decimal :=
    match afterWhole with
    | '.' :: ds => beginsWithDigit unsigned && isExponent (ds.dropWhile isDigitOrLow)
    | _ => false
  -- no sign may stand before a point, nor before the name of NaN
  let pointFirst :=
    match signless with
    | '.' :: ds => beginsWithDigit ds && isExponent (ds.dropWhile isDigitOrLow)
    | _ => false
  let sixties :=
    match Text.cutAt ':' unsigned with
    | head :: more :: rest =>
      let last := (more :: rest).getLastD []
      beginsWithDigit head && head.all isDigitOrLow && ((more :: rest).dropLast.all isSixty) &&
        last.contains '.' && isSixty (last.takeWhile (· != '.')) &&
        ((last.dropWhile (· != '.')).drop 1).all isDigitOrLow
    | _ => false
  let named :=
    [".inf", ".Inf", ".INF"].contains (String.ofList unsigned) ||
      [".nan", ".NaN", ".NAN"].contains (String.ofList signless)
  decimal || pointFirst || sixties || named

def truthWords : List String :=
  ["yes", "Yes", "YES", "no", "No", "NO", "true", "True", "TRUE", "false", "False", "FALSE", "on", "On", "ON",
    "off", "Off", "OFF"]

def nullWords : List String := ["~", "null", "Null", "NULL"]

/-- The tag of a scalar without quotes. One line end after the spelling is overlooked. -/
def Tag.ofPlain (text : List Char) : Tag :=
  let cs := if 1 < text.length && text.getLast? == some '\n' then text.dropLast else text
  let s := String.ofList cs
  if truthWords.contains s then .bool
  else if isFraction cs then .float
  else if isWholeNumber cs then .int
  else if s == "<<" then .merge
  else if cs.isEmpty || nullWords.contains s then .null
  else if isTimestamp cs then .timestamp
  else if s == "=" then .value
  else if ["!", "&", "*"].contains s then .other (Tag.space ++ "yaml")
  else .str

end NoteQuery.Yaml

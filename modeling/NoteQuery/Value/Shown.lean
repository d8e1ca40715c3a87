import NoteQuery.Text.Quoted
import NoteQuery.Number.Shortest
import NoteQuery.Value.Basic

/-!
# Values as literals

The form in which query descriptions and messages show a value: texts quoted, collections
bracketed, dates with their parts.
-/

namespace NoteQuery.Value

def dateParts (d : Date) : List Int := [d.year, d.month, d.day]

/-- Hour and minute, then seconds and microseconds as far as there are any. -/
def clockParts (t : Clock) : List Int :=
  [(t.hour : Int), t.minute] ++
    (if t.second = 0 ∧ t.micro = 0 then [] else [(t.second : Int)]) ++
    (if t.micro = 0 then [] else [(t.micro : Int)])

def joinedParts (parts : List Int) : String := ", ".intercalate (parts.map toString)

def spanShown (minutes : Int) : String :=
  let seconds := minutes * 60
  let days := seconds.fdiv 86400
  let rest := seconds.fmod 86400
  let parts := (if days = 0 then [] else ["days=" ++ toString days]) ++
    (if rest = 0 then [] else ["seconds=" ++ toString rest])
  "datetime.timedelta(" ++ (if parts.isEmpty then "0" else ", ".intercalate parts) ++ ")"

def zoneShown : Option Int → String
  | none => ""
  | some 0 => ", tzinfo=datetime.timezone.utc"
  | some minutes => ", tzinfo=datetime.timezone(" ++ spanShown minutes ++ ")"

mutual

def shown : Value → String
  | .missing => "MISSING"
  | .null => "None"
  | .bool b => if b then "True" else "False"
  | .int n => String.ofList (Text.signedDecimal n)
  | .float x => Number.floatText x
  | .text s => Text.quoted s
  | @list true [item] => "(" ++ shown item ++ ",)"
  | @list true items => "(" ++ ", ".intercalate (shownItems items) ++ ")"
  | @list false items => "[" ++ ", ".intercalate (shownItems items) ++ "]"
  | .map entries => "\x7b" ++ ", ".intercalate (shownEntries entries) ++ "\x7d"
  | .link path name => "Link(path=" ++ Text.quoted path ++ ", name=" ++ Text.quoted name ++ ")"
  | .date d => "datetime.date(" ++ joinedParts (dateParts d) ++ ")"
  | .dateTime t =>
    "datetime.datetime(" ++ joinedParts (dateParts t.date ++ clockParts t.clock) ++
      zoneShown t.offset ++ ")"
  | .bytes bs => Text.quotedBytes bs
  | .set [] => "set()"
  | .set (first :: items) =>
    "\x7b" ++ ", ".intercalate (shown first :: shownItems items) ++ "\x7d"
  | .loop isMap => if isMap then "\x7b...\x7d" else "[...]"

def shownItems : List Value → List String
  | [] => []
  | item :: items => shown item :: shownItems items

def shownEntries : List (Value × Value) → List String
  | [] => []
  | (key, value) :: entries => (shown key ++ ": " ++ shown value) :: shownEntries entries

end

/-- The plain form of a value: a text is itself, a date or time its digits, and anything else
its literal form. -/
def plain : Value → String
  | .text s => s
  | .link path _ => path
  | .date d => d.text
  | .dateTime t => t.text
  | v => v.shown

/-! ## Integers that are not written -/

mutual

def hasLong : Value → Bool
  | .int n => Text.isLong n
  | .list items => itemsHaveLong items
  | .map entries => entriesHaveLong entries
  | .set items => itemsHaveLong items
  | _ => false

def itemsHaveLong : List Value → Bool
  | [] => false
  | item :: items => hasLong item || itemsHaveLong items

def entriesHaveLong : List (Value × Value) → Bool
  | [] => false
  | (key, value) :: entries => hasLong key || hasLong value || entriesHaveLong entries

end

end NoteQuery.Value

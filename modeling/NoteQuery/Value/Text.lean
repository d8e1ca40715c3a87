import NoteQuery.Json
import NoteQuery.Value.Shown

/-!
# The text of a value

One text per value, on which comparison falls back, groups are keyed and tables are built.
A map's text is a JSON object with its keys as texts, in order, at every depth, so that the
order of its entries does not matter.
-/

namespace NoteQuery.Value

/-- A whole float is written like the integer that it equals. -/
def floatText (x : Float) : String :=
  if Number.isWhole x then String.ofList (Text.signedDecimal (Number.truncate x))
  else Number.floatText x

mutual

def toText : Value → String
  | .missing => "undefined"
  | .null => "null"
  | .bool b => if b then "true" else "false"
  | .int n => String.ofList (Text.signedDecimal n)
  | .float x => floatText x
  | .text s => s
  | .list items => ",".intercalate (itemTexts items)
  | .map entries => (Json.object (Json.sortedEntries (documentEntries entries))).render .compact
  | .link path _ => path
  | .date d => d.text
  | .dateTime t => t.text
  | .bytes bs => Text.quotedBytes bs
  | .set items => (Value.set items).shown
  | .loop isMap => (Value.loop isMap).shown

/-- Absent items of a list are left blank. -/
def itemTexts : List Value → List String
  | [] => []
  | item :: items => (if item.isAbsent then "" else toText item) :: itemTexts items

def document : Value → Json
  | .null => .null
  | .bool b => .bool b
  | .int n => .int n
  | .float x => .float x
  | .text s => .text s
  | .list items => .list (documentItems items)
  | .map entries => .object (Json.sortedEntries (documentEntries entries))
  | v => .text v.plain

def documentItems : List Value → List Json
  | [] => []
  | item :: items => document item :: documentItems items

def documentEntries : List (Value × Value) → List (String × Json)
  | [] => []
  | (key, value) :: entries => (toText key, document value) :: documentEntries entries

end

end NoteQuery.Value

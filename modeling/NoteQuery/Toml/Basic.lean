import NoteQuery.Value.Shown

/-!
# TOML values

The values of a configuration file, and their texts in messages.
-/

namespace NoteQuery

inductive Toml
  | bool (b : Bool)
  | int (n : Int)
  | float (x : Float)
  | text (s : String)
  | date (d : Date)
  | dateTime (t : DateTime)
  | clock (t : Clock)
  | list (items : List Toml)
  | table (entries : List (String × Toml))
  deriving Inhabited

namespace Toml

def kindName : Toml → String
  | .bool _ => "bool"
  | .int _ => "int"
  | .float _ => "float"
  | .text _ => "str"
  | .date _ => "datetime.date"
  | .dateTime _ => "datetime.datetime"
  | .clock _ => "datetime.time"
  | .list _ => "list"
  | .table _ => "dict"

mutual

def shown : Toml → String
  | .bool b => if b then "True" else "False"
  | .int n => String.ofList (Text.signedDecimal n)
  | .float x => Number.floatText x
  | .text s => Text.quoted s
  | .date d => (Value.date d).shown
  | .dateTime t => (Value.dateTime t).shown
  | .clock t => "datetime.time(" ++ Value.joinedParts (Value.clockParts t) ++ ")"
  | .list items => "[" ++ ", ".intercalate (shownItems items) ++ "]"
  | .table entries => "\x7b" ++ ", ".intercalate (shownEntries entries) ++ "\x7d"

def shownItems : List Toml → List String
  | [] => []
  | item :: items => shown item :: shownItems items

def shownEntries : List (String × Toml) → List String
  | [] => []
  | (key, value) :: entries => (Text.quoted key ++ ": " ++ shown value) :: shownEntries entries

end

/-- The plain form of a value: a text is itself, a date or time its digits, and anything else
its literal form. -/
def plain : Toml → String
  | .text s => s
  | .date d => d.text
  | .dateTime t => t.text
  | .clock t => t.text
  | v => v.shown

/-- A table with an entry replaced, or added at the end. -/
def bind (key : String) (value : Toml) : List (String × Toml) → List (String × Toml)
  | [] => [(key, value)]
  | (k, v) :: rest => if k = key then (k, value) :: rest else (k, v) :: bind key value rest

end Toml

end NoteQuery

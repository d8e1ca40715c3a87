import NoteQuery.Value.Fault

/-!
# Values as JSON documents

What is written when a value is stored or printed as JSON, and what is read back. Keys that
are texts, numbers, truth values or null become texts; other keys, integers too long to be
written, and collections that enclose themselves, have no document. Values that JSON does not
know are written as their plain text.
-/

namespace NoteQuery.Value

inductive KeyKind
  | date
  | dateTime
  | bytes
  | link
  | missing
  | other

inductive Undocumented
  | key (kind : KeyKind)
  | circular
  | digits

/-- The name of a kind of key, with the name of the collection of kinds that it belongs to
when `qualified`. -/
def KeyKind.name (qualified : Bool) : KeyKind → String
  | .date => if qualified then "datetime.date" else "date"
  | .dateTime => if qualified then "datetime.datetime" else "datetime"
  | .bytes => "bytes"
  | .link => "Link"
  | .missing => "_Missing"
  | .other => "object"

def Undocumented.message (qualified : Bool) : Undocumented → String
  | .key kind => "keys must be str, int, float, bool or None, not " ++ kind.name qualified
  | .circular => "Circular reference detected"
  | .digits => TextFault.digits.message

def unlessLong {α : Type} (isLong : Bool) (written : α) : Except Undocumented α :=
  if isLong then .error .digits else .ok written

def keyText : Value → Except Undocumented String
  | .text s => .ok s
  | .null => .ok "null"
  | .bool b => .ok (if b then "true" else "false")
  | .int n => unlessLong (Text.isLong n) (String.ofList (Text.signedDecimal n))
  | .float x => .ok (String.ofList (Json.floatChars x))
  | .date _ => .error (.key .date)
  | .dateTime _ => .error (.key .dateTime)
  | .bytes _ => .error (.key .bytes)
  | .link _ _ => .error (.key .link)
  | .missing => .error (.key .missing)
  | _ => .error (.key .other)

mutual

/-- The document of a value. The first fault in reading order is reported, a key before its
value. -/
def toJson : Value → Except Undocumented Json
  | .null => .ok .null
  | .bool b => .ok (.bool b)
  | .int n => unlessLong (Text.isLong n) (.int n)
  | .float x => .ok (.float x)
  | .text s => .ok (.text s)
  | .list items => (itemsToJson items).map .list
  | .map entries => (entriesToJson entries).map .object
  | .loop _ => .error .circular
  | v => unlessLong v.hasLong (.text v.plain)

def itemsToJson : List Value → Except Undocumented (List Json)
  | [] => .ok []
  | item :: items => do
    let doc ← toJson item
    let docs ← itemsToJson items
    return doc :: docs

def entriesToJson : List (Value × Value) → Except Undocumented (List (String × Json))
  | [] => .ok []
  | (key, value) :: entries => do
    let name ← keyText key
    let doc ← toJson value
    let docs ← entriesToJson entries
    return (name, doc) :: docs

end

mutual

/-- The value that a document is read as. Of several entries with one key the last counts,
in the place of the first. -/
def ofJson : Json → Value
  | .null => .null
  | .bool b => .bool b
  | .int n => .int n
  | .float x => .float x
  | .text s => .text s
  | .list items => .seq (itemsOfJson items)
  | .object entries => .map (Entries.ofList (entriesOfJson entries))

def itemsOfJson : List Json → List Value
  | [] => []
  | doc :: docs => ofJson doc :: itemsOfJson docs

def entriesOfJson : List (String × Json) → List (Value × Value)
  | [] => []
  | (name, doc) :: entries => (.text name, ofJson doc) :: entriesOfJson entries

end

end NoteQuery.Value

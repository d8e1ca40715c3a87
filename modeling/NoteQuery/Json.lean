import NoteQuery.Number.Shortest

/-!
# JSON documents

The document type and its one printer, which a style turns into compact, spaced or indented
text. Objects print every entry that they hold, in order.
-/

namespace NoteQuery

inductive Json
  | null
  | bool (b : Bool)
  | int (n : Int)
  | float (x : Float)
  | text (s : String)
  | list (items : List Json)
  | object (entries : List (String × Json))
  deriving Inhabited

namespace Json

structure Style where
  /-- Escape every character beyond printable ASCII. -/
  ascii : Bool
  comma : String
  colon : String
  /-- One item per line, indented by two spaces for each level. -/
  tall : Bool

def Style.compact : Style := ⟨true, ",", ":", false⟩

def Style.asciiLine : Style := ⟨true, ", ", ": ", false⟩

def Style.line : Style := ⟨false, ", ", ": ", false⟩

def Style.page : Style := ⟨false, ",", ": ", true⟩

def unitEscape (n : Nat) : List Char := '\\' :: 'u' :: Text.hexadecimal 4 n

def escapedChar (ascii : Bool) (c : Char) : List Char :=
  let n := c.toNat
  if c == '"' || c == '\\' then ['\\', c]
  else if c == '\n' then ['\\', 'n']
  else if c == '\r' then ['\\', 'r']
  else if c == '\t' then ['\\', 't']
  else if n == 8 then ['\\', 'b']
  else if n == 12 then ['\\', 'f']
  else if n < 32 then unitEscape n
  else if ascii && 126 < n then
    if n < 0x10000 then unitEscape n
    else unitEscape (0xd800 + (n - 0x10000) / 0x400) ++ unitEscape (0xdc00 + (n - 0x10000) % 0x400)
  else [c]

def quotedText (ascii : Bool) (s : String) : List Char :=
  '"' :: s.toList.flatMap (escapedChar ascii) ++ ['"']

/-- Floats are written with their shortest decimals; NaN and the infinities have names. -/
def floatChars (x : Float) : List Char :=
  if Number.isNaN x then ['N', 'a', 'N']
  else if !Number.isFinite x then
    (if Number.isNegative x then ['-'] else []) ++ "Infinity".toList
  else Number.floatChars x

def lineStart (style : Style) (level : Nat) : List Char :=
  if style.tall then '\n' :: List.replicate (2 * level) ' ' else []

def enclosed (style : Style) (level : Nat) (left right : Char) : List (List Char) → List Char
  | [] => [left, right]
  | first :: rest =>
    left :: lineStart style (level + 1) ++ first ++
      rest.flatMap (fun item => style.comma.toList ++ lineStart style (level + 1) ++ item) ++
      lineStart style level ++ [right]

mutual

def chars (style : Style) (level : Nat) : Json → List Char
  | .null => ['n', 'u', 'l', 'l']
  | .bool b => if b then ['t', 'r', 'u', 'e'] else ['f', 'a', 'l', 's', 'e']
  | .int n => Text.signedDecimal n
  | .float x => floatChars x
  | .text s => quotedText style.ascii s
  | .list items => enclosed style level '[' ']' (itemChars style (level + 1) items)
  | .object entries => enclosed style level '{' '}' (entryChars style (level + 1) entries)

def itemChars (style : Style) (level : Nat) : List Json → List (List Char)
  | [] => []
  | item :: items => chars style level item :: itemChars style level items

def entryChars (style : Style) (level : Nat) : List (String × Json) → List (List Char)
  | [] => []
  | (key, value) :: entries =>
    (quotedText style.ascii key ++ style.colon.toList ++ chars style level value) ::
      entryChars style level entries

end

def render (style : Style) (doc : Json) : String := String.ofList (chars style 0 doc)

/-- Binds a key, in its old place if it is bound already. -/
def bind (key : String) (value : Json) : List (String × Json) → List (String × Json)
  | [] => [(key, value)]
  | (k, v) :: rest => if k = key then (k, value) :: rest else (k, v) :: bind key value rest

/-- The entries of an object in the order of their keys, the last of one key counting. -/
def sortedEntries (entries : List (String × Json)) : List (String × Json) :=
  (entries.foldl (fun done (k, v) => bind k v done) []).mergeSort fun a b => a.1 ≤ b.1

end Json

end NoteQuery

import NoteQuery.Text.Quoted

/-!
# Faults in TOML texts

What is wrong and how much of the text was left where it was noticed.
-/

namespace NoteQuery.Toml

abbrev Key := List String

inductive Problem
  | statement
  | comment (found : Char)
  | afterStatement
  | declaredTwice (key : Key)
  | overwritten
  | tableEnd
  | listEnd
  | immutable (key : Key)
  | redefined (key : Key)
  | noEquals
  | keyPart
  | unclosedArray
  | unclosedTable
  | duplicateKey (name : String)
  | escape
  | hexadecimal
  | notScalar
  | noDelimiter (delimiter : String)
  | character (found : Char)
  | unterminated
  | date
  | value
  /-- An integer has more digits than are read. -/
  | digits (count : Nat)

/-- A problem and the number of characters from its place on. -/
structure Fault where
  problem : Problem
  left : Nat

def keyShown (key : Key) : String :=
  "(" ++ ", ".intercalate (key.map Text.quoted) ++ (if key.length = 1 then ",)" else ")")

def Problem.text : Problem → String
  | .statement => "Invalid statement"
  | .comment c => "Found invalid character " ++ Text.quoted (String.ofList [c])
  | .afterStatement => "Expected newline or end of document after a statement"
  | .declaredTwice key => "Cannot declare " ++ keyShown key ++ " twice"
  | .overwritten => "Cannot overwrite a value"
  | .tableEnd => "Expected ']' at the end of a table declaration"
  | .listEnd => "Expected ']]' at the end of an array declaration"
  | .immutable key => "Cannot mutate immutable namespace " ++ keyShown key
  | .redefined key => "Cannot redefine namespace " ++ keyShown key
  | .noEquals => "Expected '=' after a key in a key/value pair"
  | .keyPart => "Invalid initial character for a key part"
  | .unclosedArray => "Unclosed array"
  | .unclosedTable => "Unclosed inline table"
  | .duplicateKey name => "Duplicate inline table key " ++ Text.quoted name
  | .escape => "Unescaped '\\' in a string"
  | .hexadecimal => "Invalid hex value"
  | .notScalar => "Escaped character is not a Unicode scalar value"
  | .noDelimiter d => "Expected " ++ Text.quoted d
  | .character c => "Illegal character " ++ Text.quoted (String.ofList [c])
  | .unterminated => "Unterminated string"
  | .date => "Invalid date or datetime"
  | .value => "Invalid value"
  | .digits count =>
    "Exceeds the limit (" ++ toString Text.maxDigits ++ " digits) for integer string conversion: value has " ++
      toString count ++ " digits; use sys.set_int_max_str_digits() to increase the limit"

def placeText (text : List Char) (left : Nat) : String :=
  if left = 0 then "end of document"
  else
    let before := text.take (text.length - left)
    let line := before.count '\n' + 1
    let column := (before.reverse.takeWhile (· != '\n')).length + 1
    "line " ++ toString line ++ ", column " ++ toString column

def Fault.message (text : List Char) (f : Fault) : String :=
  match f.problem with
  | .digits _ => f.problem.text
  | _ => f.problem.text ++ " (at " ++ placeText text f.left ++ ")"

end NoteQuery.Toml

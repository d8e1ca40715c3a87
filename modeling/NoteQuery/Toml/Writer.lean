import NoteQuery.Toml.Basic

/-!
# Writing TOML

Tables of scalars under headers. Strings are basic strings on one line.
-/

namespace NoteQuery.Toml

def escapedChar (c : Char) : List Char :=
  let n := c.toNat
  if c == '"' || c == '\\' then ['\\', c]
  else if n == 8 then ['\\', 'b']
  else if c == '\n' then ['\\', 'n']
  else if n == 12 then ['\\', 'f']
  else if c == '\r' then ['\\', 'r']
  else if (n < 32 && c != '\t') || n == 127 then '\\' :: 'u' :: Text.hexadecimal 4 n
  else [c]

def quotedText (s : String) : String :=
  String.ofList ('"' :: s.toList.flatMap escapedChar ++ ['"'])

def written : Toml → String
  | .bool b => if b then "true" else "false"
  | .text s => quotedText s
  | v => v.plain

def entryLine (entry : String × Toml) : String := entry.1 ++ " = " ++ entry.2.written ++ "\n"

def section_ (name : String) (entries : List (String × Toml)) : String :=
  "[" ++ name ++ "]\n" ++ String.join (entries.map entryLine)

def document (sections : List (String × List (String × Toml))) : String :=
  "\n".intercalate (sections.map fun (name, entries) => section_ name entries)

end NoteQuery.Toml

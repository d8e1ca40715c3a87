import NoteQuery.Text.Ranges
import NoteQuery.Text.PrintableTable
import NoteQuery.Text.Word

/-!
# Quoted text

How messages and query descriptions show a text: between single quotes, or between double
quotes when it holds a single quote and no double one. The backslash, the quote and every
character that does not print are escaped.
-/

namespace NoteQuery.Text

def isPrintable (c : Char) : Bool :=
  if c.toNat < 128 then 32 ≤ c.toNat && c.toNat < 127 else inRanges printableEdges c.toNat

def quoteFor (cs : List Char) : Char :=
  if cs.contains '\'' && !cs.contains '"' then '"' else '\''

def quotedChar (quote c : Char) : List Char :=
  if c == quote || c == '\\' then ['\\', c]
  else if c == '\n' then ['\\', 'n']
  else if c == '\r' then ['\\', 'r']
  else if c == '\t' then ['\\', 't']
  else if isPrintable c then [c]
  else if c.toNat < 0x100 then '\\' :: 'x' :: hexadecimal 2 c.toNat
  else if c.toNat < 0x10000 then '\\' :: 'u' :: hexadecimal 4 c.toNat
  else '\\' :: 'U' :: hexadecimal 8 c.toNat

def quotedChars (cs : List Char) : List Char :=
  let quote := quoteFor cs
  quote :: cs.flatMap (quotedChar quote) ++ [quote]

def quoted (s : String) : String := String.ofList (quotedChars s.toList)

/-- Bytes are quoted like a text, with a `b` in front and every byte beyond ASCII escaped. -/
def quotedBytes (bytes : List UInt8) : String :=
  let cs := bytes.map fun b => Char.ofNat b.toNat
  let quote := quoteFor cs
  let inner := cs.flatMap fun c =>
    if c.toNat < 128 then quotedChar quote c else '\\' :: 'x' :: hexadecimal 2 c.toNat
  String.ofList ('b' :: quote :: inner ++ [quote])

end NoteQuery.Text

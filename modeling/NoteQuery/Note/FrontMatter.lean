import NoteQuery.Text.Segment
import NoteQuery.Value.Shown
import NoteQuery.Yaml.Loader

/-!
# Front matter

A note may begin with a YAML block between two fences, lines of three hyphens. What follows
the second fence is the body; without a block the whole text is.
-/

namespace NoteQuery.Note

def afterLineEnd? : List Char → Option (List Char)
  | '\n' :: cs => some cs
  | '\r' :: '\n' :: cs => some cs
  | _ => none

/-- The rest after three hyphens and the blanks behind them. -/
def afterFence? (cs : List Char) : Option (List Char) :=
  (Text.after? ['-', '-', '-'] cs).map (List.dropWhile fun c => c == ' ' || c == '\t')

def afterOpeningFence? (cs : List Char) : Option (List Char) := (afterFence? cs).bind afterLineEnd?

def afterClosingFence? (cs : List Char) : Option (List Char) := do
  let rest ← afterFence? (← afterLineEnd? cs)
  if rest.isEmpty then some [] else afterLineEnd? rest

def upToClosingFence? : List Char → Option (List Char × List Char)
  | [] => none
  | c :: cs =>
    match afterClosingFence? (c :: cs) with
    | some body => some ([], body)
    | none => (upToClosingFence? cs).map fun (block, body) => (c :: block, body)

def split (text : List Char) : Option (List Char) × List Char :=
  match (afterOpeningFence? text).bind upToClosingFence? with
  | some (block, body) => (some block, body)
  | none => (none, text)

/-- A block cannot be loaded, or a key or a tag in it is an integer too long to be written. -/
inductive BlockFault
  | yaml (fault : Yaml.Fault)
  | digits

/-- The entries of a map under the texts of their keys; none of any other value. -/
def entriesOf : Value → Except BlockFault Entries
  | .map entries =>
    if entries.any (·.1.hasLong) then .error .digits
    else .ok (Entries.ofList (entries.map fun (key, value) => (.text key.plain, value)))
  | _ => .ok []

def blockEntries [Yaml.Loader] (block : Option (List Char)) : Except BlockFault Entries :=
  match block with
  | none => .ok []
  | some yaml => (Yaml.load yaml).mapError .yaml >>= entriesOf

def frontMatter [Yaml.Loader] (text : List Char) : Except BlockFault (Entries × List Char) := do
  let (block, body) := split text
  return (← blockEntries block, body)

end NoteQuery.Note

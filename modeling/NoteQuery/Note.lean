import NoteQuery.Bytes.Sha1
import NoteQuery.Bytes.Utf8
import NoteQuery.Note.FrontMatter
import NoteQuery.Note.Link
import NoteQuery.Note.Privacy
import NoteQuery.Note.Tag
import NoteQuery.Record.Field
import NoteQuery.Value.Fault

/-!
# Notes

The record of a note, from its path and its content.
-/

namespace NoteQuery

inductive NoteFault
  | notUtf8 (fault : Bytes.Utf8Fault)
  | frontMatter (block : List Char) (fault : Note.BlockFault)

namespace NoteFault

def message : NoteFault → String
  | .notUtf8 fault => fault.message
  | .frontMatter block (.yaml fault) => fault.message block
  | .frontMatter _ .digits => Value.TextFault.digits.message

/-- Whether a note with this fault is left out and the next one read. Any other fault ends
the reading of a directory. -/
def isSkipped : NoteFault → Bool
  | .notUtf8 _ => true
  | .frontMatter _ (.yaml fault) => fault.kind == .yaml || fault.kind == .value
  | .frontMatter _ .digits => true

end NoteFault

namespace Note

/-- The hash of a content, which is that of a blob in a repository. -/
def contentHash (content : List UInt8) : String :=
  (Bytes.sha1 (Bytes.encodeUtf8 ("blob " ++ toString content.length).toList ++ 0 :: content)).hex

def recordOf (path : String) (content : List UInt8) (text body : List Char) (entries : Entries) : Record where
  path := path
  name := noteName (fileName path)
  sha := contentHash content
  tags := mergeTags [declaredTags entries, inlineTags body]
  links := links text
  frontMatter := entries
  isPrivate := isPrivateContent entries body

def toRecord [Yaml.Loader] (path : String) (content : List UInt8) : Except NoteFault Record := do
  let text ← (Bytes.decodeUtf8 content).mapError .notUtf8
  let (block, body) := split text
  let entries ← (blockEntries block).mapError (.frontMatter (block.getD []))
  if hasLongTag entries then throw (.frontMatter (block.getD []) .digits)
  return recordOf path content text body entries

end Note

end NoteQuery

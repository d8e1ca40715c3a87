import NoteQuery.Record
import NoteQuery.Text.Segment

/-!
# Fields of a record

A field path is the name of a virtual field, which is computed from the record, or a dotted
walk through the front matter. A walk that meets an absent key, or a value that is no map,
is missing.
-/

namespace NoteQuery

def noteSuffix : List Char := ['.', 'm', 'd']

def noteName (name : String) : String := String.ofList (Text.dropTail noteSuffix name.toList)

/-- The folder of a path, `/` for a note at the root. -/
def folderChars (path : List Char) : List Char :=
  match Text.splitLast? '/' path with
  | some (head, _) => if head.isEmpty then ['/'] else head
  | none => ['/']

def folderOf (path : String) : String := String.ofList (folderChars path.toList)

def fileName (path : String) : String :=
  match Text.splitLast? '/' path.toList with
  | some (_, name) => String.ofList name
  | none => path

def Value.walk : Value → List String → Value
  | v, [] => v
  | .map entries, name :: names =>
    match Entries.get? entries name with
    | some v => v.walk names
    | none => .missing
  | _, _ :: _ => .missing

namespace Record

/-- The fields that are computed. A record knows no links that lead to it. -/
inductive VirtualField
  | name
  | path
  | link
  | folder
  | tags
  | outlinks
  | inlinks
  deriving DecidableEq

def VirtualField.all : List (String × VirtualField) :=
  [("file.name", .name), ("file.path", .path), ("file.link", .link), ("file.folder", .folder),
    ("file.tags", .tags), ("file.outlinks", .outlinks), ("file.inlinks", .inlinks)]

def VirtualField.ofPath? (path : String) : Option VirtualField := all.lookup path

def VirtualField.value (r : Record) : VirtualField → Value
  | .name => .text (noteName r.name)
  | .path => .text r.path
  | .link => .link r.path (noteName r.name)
  | .folder => .text (folderOf r.path)
  | .tags => .seq (r.tags.map .text)
  | .outlinks => .seq (r.links.map fun l => .text l.target)
  | .inlinks => .seq []

def resolve (r : Record) (path : String) : Value :=
  match VirtualField.ofPath? path with
  | some field => field.value r
  | none => (Value.map r.frontMatter).walk (Text.segments '.' path)

end Record

end NoteQuery

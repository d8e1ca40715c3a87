import NoteQuery.Json.Reader
import NoteQuery.Record
import NoteQuery.Value.Stored

/-!
# Rows of the record table

A record is kept in columns. Its tags, links and front matter are texts of JSON documents, and its
privacy is a number.
-/

namespace NoteQuery

structure Row where
  path : String
  name : String
  sha : String
  tags : String
  links : String
  frontMatter : String
  isPrivate : Int

namespace Row

def linkDoc (l : WikiLink) : Json :=
  .object [("target", .text l.target), ("display", (l.display.map Json.text).getD .null), ("isEmbed", .bool l.isEmbed)]

def ofRecord (r : Record) : Except Value.Undocumented Row := do
  let frontMatter ← Value.toJson (.map r.frontMatter)
  return {
    path := r.path
    name := r.name
    sha := r.sha
    tags := Json.render .line (.list (r.tags.map .text))
    links := Json.render .line (.list (r.links.map linkDoc))
    frontMatter := Json.render .line frontMatter
    isPrivate := if r.isPrivate then 1 else 0 }

/-! ## Reading -/

def textOf? : Json → Option String
  | .text s => some s
  | _ => none

def isTrue : Json → Bool
  | .null => false
  | .bool b => b
  | .int n => n != 0
  | .float x => Number.isNaN x || Number.magnitude x != 0
  | .text s => s != ""
  | .list items => !items.isEmpty
  | .object entries => !entries.isEmpty

/-- What an object binds a key to: of several entries the last counts. -/
def lastBound? (key : String) (entries : List (String × Json)) : Option Json := entries.reverse.lookup key

def linkOf? : Json → Option WikiLink
  | .object entries => do
    let target ← (lastBound? "target" entries).bind textOf?
    let display ← match lastBound? "display" entries with
      | none | some .null => some none
      | some doc => (textOf? doc).map some
    return ⟨target, display, ((lastBound? "isEmbed" entries).map isTrue).getD false⟩
  | _ => none

def itemsOf? {α : Type} (item? : Json → Option α) (text : String) : Option (List α) :=
  match Json.read? text with
  | some (.list docs) => docs.mapM item?
  | _ => none

def entriesOf? (text : String) : Option Entries :=
  match (Json.read? text).map Value.ofJson with
  | some (.map entries) => some entries
  | _ => none

def record? (row : Row) : Option Record := do
  return {
    path := row.path
    name := row.name
    sha := row.sha
    tags := ← itemsOf? textOf? row.tags
    links := ← itemsOf? linkOf? row.links
    frontMatter := ← entriesOf? row.frontMatter
    isPrivate := row.isPrivate != 0 }

end Row

end NoteQuery

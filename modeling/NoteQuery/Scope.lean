import NoteQuery.Query.Basic
import NoteQuery.Record.Field

/-!
# Scopes and flattening

The first two stages of a query: which records it is about, and one row per list item.
-/

namespace NoteQuery

namespace Source

/-- Whether `name` is `scope` or lies below it. -/
def isWithin (scope name : List Char) : Bool :=
  name == scope || Text.startsWith (scope ++ ['/']) name

def recordFolder (r : Record) : List Char :=
  Text.stripAll '/' (folderChars (Text.dropAll '/' r.path.toList))

def bareTag (tag : String) : List Char := Text.dropOne '#' tag.toList

/-- Whether a record lies in a scope. The root folder holds every record. -/
def admits (r : Record) : Source → Bool
  | .folder path =>
    let scope := Text.stripAll '/' path.toList
    scope.isEmpty || isWithin scope (recordFolder r)
  | .tag name => r.tags.any fun tag => isWithin (bareTag name) (bareTag tag)

def select (source : Option Source) (records : List Record) : List Record :=
  match source with
  | none => records
  | some s => records.filter (s.admits ·)

end Source

namespace Flatten

/-- A record with a front-matter entry bound to a value; a missing value unbinds it. -/
def bind (name : String) (value : Value) (r : Record) : Record :=
  match value with
  | .missing => { r with frontMatter := Entries.erase r.frontMatter name }
  | v => { r with frontMatter := Entries.insert (.text name) v r.frontMatter }

/-- One record per item of a list that is not empty; any other value is bound as it is. -/
def rows (f : Flatten) (r : Record) : List Record :=
  match r.resolve f.field with
  | .list (item :: items) => (item :: items).map fun v => bind f.name v r
  | v => [bind f.name v r]

def apply (f : Option Flatten) (records : List Record) : List Record :=
  match f with
  | none => records
  | some f => records.flatMap f.rows

end Flatten

end NoteQuery

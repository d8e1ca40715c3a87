import NoteQuery.Config
import NoteQuery.Folder
import NoteQuery.Index.Run

/-!
# Disks

The files that a vault works on: folders of notes, and store directories with a
configuration, an index, and logs.
-/

namespace NoteQuery

/-- What a store directory holds beside its configuration file: the index, the operations
log, and the last lines of the faults in the error log. -/
structure Store where
  index : Index
  log : List LogLine
  crashes : List String

/-- All files, from the root folder on, and the stores by their paths. -/
structure Disk where
  files : Folder
  stores : List (String × Store)

namespace Disk

def realPath (d : Disk) (names : List String) : String := Path.ofNames (d.files.resolve names)

def textAt? (d : Disk) (path : String) : Option String :=
  (d.files.contentAt? (Path.names path)).map fun content =>
    match Bytes.decodeUtf8 content with
    | .ok chars => String.ofList chars
    | .error _ => ""

def writeText (d : Disk) (path text : String) : Disk :=
  { d with files := d.files.write (Path.names path) (Bytes.encodeUtf8 text.toList) }

def storeAt (d : Disk) (path : String) : Store :=
  (d.stores.lookup path).getD ⟨Index.empty (Config.indexFile path), [], []⟩

def putStore (d : Disk) (path : String) (store : Store) : Disk :=
  { d with stores := (path, store) :: d.stores.filter (·.1 ≠ path) }

def changeStore (d : Disk) (path : String) (change : Store → Store) : Disk :=
  d.putStore path (change (d.storeAt path))

def addLog (d : Disk) (path : String) (lines : List LogLine) : Disk :=
  if lines.isEmpty then d else d.changeStore path fun s => { s with log := s.log ++ lines }

def addCrash (d : Disk) (path line : String) : Disk :=
  d.changeStore path fun s => { s with crashes := s.crashes ++ [line] }

def loadConfig (d : Disk) (path user now : String) : Except ConfigFault (Config × Disk) :=
  match d.textAt? (Config.file path) with
  | some text => (Config.read text).map fun config => (config, d)
  | none =>
    let config := Config.initial user now
    .ok (config, d.writeText (Config.file path) config.write)

end Disk

end NoteQuery

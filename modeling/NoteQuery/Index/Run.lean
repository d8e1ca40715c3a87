import NoteQuery.Index.Basic
import NoteQuery.Note

/-!
# Indexing runs

A run brings the records of a vault up to date with a folder of notes: new and changed notes
are read, and records whose notes are gone are deleted. A note that cannot be read is counted
and passed over; anything else that goes wrong ends the run.
-/

namespace NoteQuery

structure IndexReport where
  rebuild : Bool
  total : Nat
  new : Nat
  modified : Nat
  unchanged : Nat
  deleted : Nat
  indexed : Nat
  failed : Nat
  deriving DecidableEq

namespace IndexReport

def mode (r : IndexReport) : String := if r.rebuild then "rebuild" else "refresh"

def toJson (r : IndexReport) : Json :=
  .object [("mode", .text r.mode), ("total_files", .int r.total), ("new_files", .int r.new),
    ("modified_files", .int r.modified), ("unchanged_files", .int r.unchanged), ("deleted_files", .int r.deleted),
    ("indexed_files", .int r.indexed), ("failed_files", .int r.failed)]

def counts (r : IndexReport) : String :=
  toString r.new ++ " new, " ++ toString r.modified ++ " modified, " ++ toString r.unchanged ++ " unchanged, " ++
    toString r.deleted ++ " deleted"

def failures (r : IndexReport) : String := ", " ++ toString r.failed ++ " failed"

def summary (r : IndexReport) (folder : String) : String :=
  "Indexed " ++ folder ++ " (" ++ r.mode ++ "): " ++ r.counts ++ (if r.failed = 0 then "" else r.failures)

end IndexReport

/-- A line of a store's operations log. -/
inductive LogLine
  | info (text : String)
  | warning (text : String)

namespace LogLine

def text : LogLine → String
  | .info s => "INFO " ++ s
  | .warning s => "WARNING " ++ s

def failedNote (path : String) (fault : NoteFault) : LogLine :=
  .warning ("Failed to index " ++ path ++ ": " ++ fault.message)

def finished (key : VaultKey) (r : IndexReport) : LogLine :=
  .info ("Indexed " ++ key.text ++ " (" ++ r.mode ++ "): " ++ r.counts ++ r.failures)

end LogLine

/-- Why a run ended early, or could not begin. -/
inductive RunFault
  | index (fault : IndexFault)
  | note (fault : NoteFault)

def RunFault.message : RunFault → String
  | .index fault => fault.message
  | .note fault => fault.message

structure IndexRun where
  index : Index
  log : List LogLine
  outcome : Except RunFault IndexReport

namespace IndexRun

inductive Change
  | new
  | modified
  | unchanged
  deriving DecidableEq

def changeOf (known : List (String × String)) (note : String × List UInt8) : Change :=
  match known.lookup note.1 with
  | none => .new
  | some hash => if hash = Note.contentHash note.2 then .unchanged else .modified

structure Progress where
  index : Index
  indexed : Nat
  failed : Nat
  log : List LogLine

/-- Progress is noted in the status after every so many notes. -/
def interval : Nat := 50

def addNote [Yaml.Loader] (key : VaultKey) (note : String × List UInt8) (p : Progress) : Except RunFault Progress :=
  match Note.toRecord note.1 note.2 with
  | .ok record =>
    match p.index.upsert key record with
    | .ok index => .ok { p with index, indexed := p.indexed + 1 }
    | .error fault => .error (.index fault)
  | .error fault =>
    if fault.isSkipped then .ok { p with failed := p.failed + 1, log := p.log ++ [.failedNote note.1 fault] }
    else .error (.note fault)

def noteProgress (key : VaultKey) (position : Nat) (p : Progress) : Progress :=
  if position % interval = 0 then
    match p.index.changeStatus key (·.progress p.indexed p.failed) with
    | .ok (_, index) => { p with index }
    | .error _ => p
  else p

/-- Reads notes one after the other, the first at a position. Returns how far it came. -/
def addNotes [Yaml.Loader] (key : VaultKey) :
    (position : Nat) → List (String × List UInt8) → Progress → Progress × Option RunFault
  | _, [], p => (p, none)
  | position, note :: notes, p =>
    match addNote key note p with
    | .ok p => addNotes key (position + 1) notes (noteProgress key position p)
    | .error fault => (p, some fault)

/-- The index after a change of status, which only an open index takes. -/
def withStatus (key : VaultKey) (change : IndexStatus → IndexStatus) (x : Index) : Index :=
  match x.changeStatus key change with
  | .ok (_, x) => x
  | .error _ => x

/-- Drops what a run does not keep: all records, or those whose paths have no note any more.
Returns the hashes that the notes are compared with, and the number of records without notes. -/
def drop (rebuild : Bool) (key : VaultKey) (paths : List String) (x : Index) :
    Except IndexFault (List (String × String) × Nat × Index) := do
  if rebuild then
    let (_, x) ← x.deleteAll key
    return ([], 0, x)
  else
    let known ← x.hashes key
    let (deleted, x) ← x.deleteMany key ((known.map (·.1)).filter (!paths.contains ·))
    return (known, deleted, x)

def run [Yaml.Loader] (rebuild : Bool) (key : VaultKey) (now : String) (notes : List (String × List UInt8)) (x : Index) :
    IndexRun :=
  match drop rebuild key (notes.map (·.1)) x with
  | .error fault => ⟨x, [], .error (.index fault)⟩
  | .ok (known, deleted, opened) =>
    let changes := notes.map fun note => (changeOf known note, note)
    let pending := (changes.filter (·.1 ≠ .unchanged)).map (·.2)
    let begun := withStatus key (·.start pending.length now) opened
    let countOf (c : Change) : Nat := (changes.filter (·.1 = c)).length
    match addNotes key 1 pending ⟨begun, 0, 0, []⟩ with
    -- what was written before the fault stays
    | (p, some fault) => ⟨withStatus key (·.fail fault.message now) p.index, p.log, .error fault⟩
    | (p, none) =>
      let report : IndexReport :=
        ⟨rebuild, notes.length, countOf .new, countOf .modified, countOf .unchanged, deleted, p.indexed, p.failed⟩
      ⟨withStatus key (·.complete p.indexed p.failed now) p.index, p.log ++ [.finished key report], .ok report⟩

end IndexRun

end NoteQuery

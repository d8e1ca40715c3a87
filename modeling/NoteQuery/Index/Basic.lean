import NoteQuery.Index.Row
import NoteQuery.Index.Status

/-!
# The index

Records by vault and path, and the status of each vault. Front matter is kept as JSON, so
that what is read back has texts for keys and nothing that JSON does not know.
-/

namespace NoteQuery

/-- An index at a place. What it holds stays there when it is closed. -/
structure Index where
  location : String
  isOpen : Bool
  rows : List (VaultKey × Record)
  statuses : List (VaultKey × IndexStatus)

inductive IndexFault
  | closed (location : String)
  | undocumented (cause : Value.Undocumented)
  | unreadable (path : String)
  | unknownState (name : String)
  /-- A count does not fit in its column. -/
  | overflow

def IndexFault.message : IndexFault → String
  | .closed location => "Vault index is closed: " ++ location
  | .undocumented cause => cause.message true
  | .unreadable path => "Unreadable row: " ++ path
  | .unknownState name => "Unknown index status: " ++ Text.quoted name
  | .overflow => "Python int too large to convert to SQLite INTEGER"

namespace Index

def empty (location : String) : Index := ⟨location, true, [], []⟩

def close (x : Index) : Index := { x with isOpen := false }

def reopen (x : Index) : Index := { x with isOpen := true }

def checkOpen (x : Index) : Except IndexFault Unit := if x.isOpen then .ok () else .error (.closed x.location)

/-! ## Records -/

def isAt (key : VaultKey) (path : String) (row : VaultKey × Record) : Bool :=
  row.1 == key && row.2.path == path

def stored (r : Record) : Except IndexFault Record :=
  match Row.ofRecord r with
  | .ok row =>
    match row.record? with
    | some s => .ok s
    | none => .error (.unreadable r.path)
  | .error cause => .error (.undocumented cause)

def put (key : VaultKey) (r : Record) (rows : List (VaultKey × Record)) : List (VaultKey × Record) :=
  rows.filter (!isAt key r.path ·) ++ [(key, r)]

def recordsOf (x : Index) (key : VaultKey) : List Record :=
  ((x.rows.filter (·.1 == key)).map (·.2)).mergeSort fun a b => a.path ≤ b.path

end Index

/-- A call on an index. It returns or fails, and leaves an index in either case. -/
abbrev IndexCall (α : Type) := ExceptT IndexFault (StateM Index) α

namespace IndexCall

def on {α : Type} (call : IndexCall α) (x : Index) : Except IndexFault α × Index := StateT.run (ExceptT.run call) x

/-- What a call returns with the index after it. A call that fails has only its fault. -/
def result {α : Type} (call : IndexCall α) (x : Index) : Except IndexFault (α × Index) :=
  match call.on x with
  | (.ok a, x) => .ok (a, x)
  | (.error fault, _) => .error fault

def checkOpen : IndexCall Unit := do liftExcept (← get).checkOpen

/-- Writes records, all or none, and counts them. An empty batch does not need an open index. -/
def upsertMany (key : VaultKey) (records : List Record) : IndexCall Nat := do
  let written ← liftExcept (records.mapM Index.stored)
  if written.isEmpty then return 0
  checkOpen
  modify fun x => { x with rows := written.foldl (fun rows r => Index.put key r rows) x.rows }
  return written.length

def deleteMany (key : VaultKey) (paths : List String) : IndexCall Nat := do
  if paths.isEmpty then return 0
  checkOpen
  let before := (← get).rows.length
  modify fun x => { x with rows := x.rows.filter fun row => !(row.1 == key && paths.contains row.2.path) }
  return before - (← get).rows.length

def deleteAll (key : VaultKey) : IndexCall Nat := do
  checkOpen
  let before := (← get).rows.length
  modify fun x => { x with rows := x.rows.filter (·.1 != key) }
  return before - (← get).rows.length

/-- Changes the status of a vault, which is pending before its first run. -/
def changeStatus (key : VaultKey) (change : IndexStatus → IndexStatus) : IndexCall IndexStatus := do
  checkOpen
  let status := change (((← get).statuses.lookup key).getD .initial)
  if status.isStorable then
    modify fun x => { x with statuses := (key, status) :: x.statuses.filter (·.1 != key) }
    return status
  else throw .overflow

def setState (key : VaultKey) (name : String) : IndexCall IndexStatus := do
  checkOpen
  match IndexState.ofText? name with
  | some state => changeStatus key (·.setState state)
  | none => throw (.unknownState name)

end IndexCall

namespace Index

def upsertMany (x : Index) (key : VaultKey) (records : List Record) : Except IndexFault (Nat × Index) :=
  (IndexCall.upsertMany key records).result x

def upsert (x : Index) (key : VaultKey) (r : Record) : Except IndexFault Index := (x.upsertMany key [r]).map (·.2)

def deleteMany (x : Index) (key : VaultKey) (paths : List String) : Except IndexFault (Nat × Index) :=
  (IndexCall.deleteMany key paths).result x

def deleteAll (x : Index) (key : VaultKey) : Except IndexFault (Nat × Index) := (IndexCall.deleteAll key).result x

def get? (x : Index) (key : VaultKey) (path : String) : Except IndexFault (Option Record) := do
  x.checkOpen
  return (x.rows.find? (isAt key path)).map (·.2)

def listAll (x : Index) (key : VaultKey) : Except IndexFault (List Record) := do
  x.checkOpen
  return x.recordsOf key

def listPublic (x : Index) (key : VaultKey) : Except IndexFault (List Record) := do
  return (← x.listAll key).filter (!·.isPrivate)

def hashes (x : Index) (key : VaultKey) : Except IndexFault (List (String × String)) := do
  return (← x.listAll key).map fun r => (r.path, r.sha)

def count (x : Index) (key : VaultKey) : Except IndexFault Nat := do
  return (← x.listAll key).length

/-! ## Statuses -/

def status? (x : Index) (key : VaultKey) : Except IndexFault (Option IndexStatus) := do
  x.checkOpen
  return x.statuses.lookup key

/-- Changes the status of a vault on the way of a run, whose counts are numbers of notes and fit in their columns. -/
def changeStatus (x : Index) (key : VaultKey) (change : IndexStatus → IndexStatus) :
    Except IndexFault (IndexStatus × Index) := do
  let status := change ((← x.status? key).getD .initial)
  return (status, { x with statuses := (key, status) :: x.statuses.filter (·.1 != key) })

end Index

end NoteQuery

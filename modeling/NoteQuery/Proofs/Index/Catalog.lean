import Mathlib.Data.List.Dedup
import Std.Data.ExtTreeMap
import NoteQuery.Index.Basic

/-!
# Catalogs

What an index stands for: a finite map from paths to stored records for each vault, and the
statuses of the vaults. The edits and reads of an index are said again for a catalog, where a write
is an insertion, a deletion is an erasure, and a list is the list of the map's values.
-/

namespace NoteQuery

inductive Edit
  | upsert (key : VaultKey) (r : Record)
  | upsertMany (key : VaultKey) (records : List Record)
  | delete (key : VaultKey) (path : String)
  | deleteMany (key : VaultKey) (paths : List String)
  | deleteAll (key : VaultKey)
  | close
  | reopen
  | start (key : VaultKey) (total : Int) (now : String)
  | progress (key : VaultKey) (indexed failed : Int)
  | complete (key : VaultKey) (indexed failed : Int) (now : String)
  | fail (key : VaultKey) (message now : String)
  | setState (key : VaultKey) (name : String)

inductive Read
  | get (key : VaultKey) (path : String)
  | listAll (key : VaultKey)
  | listPublic (key : VaultKey)
  | hashes (key : VaultKey)
  | count (key : VaultKey)
  | status (key : VaultKey)

inductive Reply
  | done
  | flag (b : Bool)
  | number (n : Nat)
  | record (r : Option Record)
  | records (rs : List Record)
  | hashes (pairs : List (String × String))
  | status (s : Option IndexStatus)

namespace Edit

def key? : Edit → Option VaultKey
  | upsert key _ | upsertMany key _ | delete key _ | deleteMany key _ | deleteAll key => some key
  | start key _ _ | progress key _ _ | complete key _ _ _ | fail key _ _ | setState key _ => some key
  | close | reopen => none

def isOfStatus : Edit → Bool
  | start _ _ _ | progress _ _ _ | complete _ _ _ _ | fail _ _ _ | setState _ _ => true
  | _ => false

end Edit

namespace Read

def key : Read → VaultKey
  | get key _ | listAll key | listPublic key | hashes key | count key | status key => key

def isOfStatus : Read → Bool
  | status _ => true
  | _ => false

end Read

namespace Index

def call : Edit → IndexCall Reply
  | .upsert key r => do
    let _ ← IndexCall.upsertMany key [r]
    return .done
  | .upsertMany key records => return .number (← IndexCall.upsertMany key records)
  | .delete key path => return .flag ((← IndexCall.deleteMany key [path]) != 0)
  | .deleteMany key paths => return .number (← IndexCall.deleteMany key paths)
  | .deleteAll key => return .number (← IndexCall.deleteAll key)
  | .close => do
    modify Index.close
    return .done
  | .reopen => do
    modify Index.reopen
    return .done
  | .start key total now => return .status (← IndexCall.changeStatus key (·.start total now))
  | .progress key indexed failed => return .status (← IndexCall.changeStatus key (·.progress indexed failed))
  | .complete key indexed failed now => return .status (← IndexCall.changeStatus key (·.complete indexed failed now))
  | .fail key message now => return .status (← IndexCall.changeStatus key (·.fail message now))
  | .setState key name => return .status (← IndexCall.setState key name)

def edit (x : Index) (e : Edit) : Except IndexFault Reply × Index := (call e).on x

def read (x : Index) : Read → Except IndexFault Reply
  | .get key path => (x.get? key path).map .record
  | .listAll key => (x.listAll key).map .records
  | .listPublic key => (x.listPublic key).map .records
  | .hashes key => (x.hashes key).map .hashes
  | .count key => (x.count key).map .number
  | .status key => (x.status? key).map .status

def perform (x : Index) (e : Edit) : Index := (x.edit e).2

def performAll (x : Index) (edits : List Edit) : Index := edits.foldl perform x

end Index

/-! ## What is kept of a record -/

namespace Value

mutual

/-- What JSON keeps of a value: texts for keys, the last entry of each, and the plain text of what JSON does
not know. -/
def kept : Value → Except Undocumented Value
  | .null => .ok .null
  | .bool b => .ok (.bool b)
  | .int n => unlessLong (Text.isLong n) (.int n)
  | .float x => .ok (.float x)
  | .text s => .ok (.text s)
  | .list items => (keptItems items).map .seq
  | .map entries => (keptEntries entries).map fun entries => .map (Entries.ofList entries)
  | .loop _ => .error .circular
  | v => unlessLong v.hasLong (.text v.plain)

def keptItems : List Value → Except Undocumented (List Value)
  | [] => .ok []
  | item :: items => do
    let v ← kept item
    let vs ← keptItems items
    return v :: vs

def keptEntries : List (Value × Value) → Except Undocumented (List (Value × Value))
  | [] => .ok []
  | (key, value) :: entries => do
    let name ← keyText key
    let v ← kept value
    let rest ← keptEntries entries
    return (.text name, v) :: rest

end

end Value

def Record.kept (r : Record) : Except IndexFault Record :=
  match Value.keptEntries r.frontMatter with
  | .ok entries => .ok { r with frontMatter := Entries.ofList entries }
  | .error cause => .error (.undocumented cause)

/-! ## Catalogs -/

structure Catalog where
  location : String
  isOpen : Bool
  records : VaultKey → Std.ExtTreeMap String Record
  statuses : VaultKey → Option IndexStatus

namespace Catalog

def empty (location : String) : Catalog := ⟨location, true, fun _ => ∅, fun _ => none⟩

def checkOpen (c : Catalog) : Except IndexFault Unit := if c.isOpen then .ok () else .error (.closed c.location)

def updated {α : Type} (key : VaultKey) (a : α) (f : VaultKey → α) : VaultKey → α := fun k => if k = key then a else f k

def withRecords (c : Catalog) (key : VaultKey) (m : Std.ExtTreeMap String Record) : Catalog :=
  { c with records := updated key m c.records }

/-- Puts in what is kept of records, the last one of a path for good, or nothing if one of them cannot be kept.
Nothing to write needs no open catalog. -/
def upsertMany (c : Catalog) (key : VaultKey) (records : List Record) : Except IndexFault (Nat × Catalog) := do
  let written ← records.mapM Record.kept
  if written = [] then return (0, c)
  c.checkOpen
  return (records.length, c.withRecords key (written.foldl (fun m r => m.insert r.path r) (c.records key)))

/-- Erases paths, and counts the different ones of them that were there. -/
def deleteMany (c : Catalog) (key : VaultKey) (paths : List String) : Except IndexFault (Nat × Catalog) := do
  if paths = [] then return (0, c)
  c.checkOpen
  return ((paths.dedup.filter (· ∈ c.records key)).length, c.withRecords key (paths.foldl (·.erase ·) (c.records key)))

def deleteAll (c : Catalog) (key : VaultKey) : Except IndexFault (Nat × Catalog) := do
  c.checkOpen
  return ((c.records key).size, c.withRecords key ∅)

def changeStatus (c : Catalog) (key : VaultKey) (change : IndexStatus → IndexStatus) :
    Except IndexFault (Reply × Catalog) := do
  c.checkOpen
  let status := change ((c.statuses key).getD .initial)
  if [status.total, status.indexed, status.failed].all fun n => -0x8000000000000000 ≤ n ∧ n < 0x8000000000000000 then
    return (.status status, { c with statuses := updated key (some status) c.statuses })
  else throw .overflow

def edit (c : Catalog) : Edit → Except IndexFault (Reply × Catalog)
  | .upsert key r => do
    let r ← r.kept
    c.checkOpen
    return (.done, c.withRecords key ((c.records key).insert r.path r))
  | .upsertMany key records => (c.upsertMany key records).map fun (n, c) => (.number n, c)
  | .delete key path => do
    c.checkOpen
    return (.flag (path ∈ c.records key), c.withRecords key ((c.records key).erase path))
  | .deleteMany key paths => (c.deleteMany key paths).map fun (n, c) => (.number n, c)
  | .deleteAll key => (c.deleteAll key).map fun (n, c) => (.number n, c)
  | .close => .ok (.done, { c with isOpen := false })
  | .reopen => .ok (.done, { c with isOpen := true })
  | .start key total now => c.changeStatus key (·.start total now)
  | .progress key indexed failed => c.changeStatus key (·.progress indexed failed)
  | .complete key indexed failed now => c.changeStatus key (·.complete indexed failed now)
  | .fail key message now => c.changeStatus key (·.fail message now)
  | .setState key name => do
    c.checkOpen
    match IndexState.ofText? name with
    | some state => c.changeStatus key (·.setState state)
    | none => throw (.unknownState name)

def list (c : Catalog) (key : VaultKey) : List Record := (c.records key).toList.map (·.2)

def read (c : Catalog) (r : Read) : Except IndexFault Reply := do
  c.checkOpen
  return match r with
  | .get key path => .record (c.records key)[path]?
  | .listAll key => .records (c.list key)
  | .listPublic key => .records ((c.list key).filter (!·.isPrivate))
  | .hashes key => .hashes ((c.records key).toList.map fun (path, r) => (path, r.sha))
  | .count key => .number (c.records key).size
  | .status key => .status (c.statuses key)

def perform (c : Catalog) (e : Edit) : Catalog :=
  match c.edit e with
  | .ok (_, c) => c
  | .error _ => c

def performAll (c : Catalog) (edits : List Edit) : Catalog := edits.foldl perform c

end Catalog

end NoteQuery

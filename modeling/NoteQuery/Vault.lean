import NoteQuery.Query.Description
import NoteQuery.Table
import NoteQuery.Vault.Disk

/-!
# Vaults

A vault indexes folders of notes into its store and answers queries, from the index, from a
folder directly, or from a source of records that it was given.
-/

namespace NoteQuery

/-- Why records could not be fetched: the kind of the failure, and what it says if it says anything. -/
structure FetchFault where
  kind : String
  said : String
  kind_ne : kind ≠ ""

namespace FetchFault

def message (f : FetchFault) : String := if f.said = "" then f.kind else f.said

def logLine (key : VaultKey) (f : FetchFault) : LogLine :=
  .warning ("Record fetch failed for " ++ key.text ++ ": " ++ f.said)

end FetchFault

/-- Where queries get the records of a vault. -/
abbrev RecordSource := VaultKey → Except FetchFault (List Record)

/-- A fixed list of records, of which the public ones are given to queries. -/
def RecordSource.ofRecords (records : List Record) : RecordSource := fun _ => .ok (records.filter (!·.isPrivate))

structure Vault where
  /-- The path of the store directory. -/
  store : String
  config : Config
  isOpen : Bool
  /-- What takes the place of the index in queries. -/
  records : Option RecordSource

inductive VaultFault
  | closed
  | notDirectory (path : String)
  | run (fault : RunFault)
  /-- The query holds an integer too long to be read. -/
  | query (fault : QueryFault)
  /-- The query needs a text that cannot be had. -/
  | text (fault : Value.TextFault)

def VaultFault.message : VaultFault → String
  | .closed => "Vault is closed"
  | .notDirectory path => "Not a directory: " ++ path
  | .run fault => fault.message
  | .query fault => fault.message
  | .text fault => fault.message

namespace Vault

def key (v : Vault) : VaultKey := v.config.vault

/-- Opens the index of a store, whose directory is made where it is missing. -/
def openWith (config : Config) (store : String) (records : Option RecordSource) (d : Disk) : Vault × Disk :=
  let d := { d with files := d.files.make (Path.names store) }
  (⟨store, config, true, records⟩, d.changeStore store fun s => { s with index := s.index.reopen })

/-- Opens a store with its configuration, which is made where there is none. -/
def open_ (store user now : String) (records : Option RecordSource) (d : Disk) :
    Except ConfigFault (Vault × Disk) := do
  let (config, d) ← d.loadConfig store user now
  return openWith config store records d

def close (v : Vault) : Vault := { v with isOpen := false }

def checkOpen (v : Vault) : Except VaultFault Unit := if v.isOpen then .ok () else .error .closed

def index (v : Vault) (d : Disk) : Index := (d.storeAt v.store).index

def log (v : Vault) (lines : List LogLine) (d : Disk) : Disk :=
  if v.isOpen then d.addLog v.store lines else d

def ask {α : Type} (v : Vault) (d : Disk) (question : Index → VaultKey → Except IndexFault α) : Except VaultFault α := do
  v.checkOpen
  (question (v.index d) v.key).mapError fun fault => .run (.index fault)

def status (v : Vault) (d : Disk) : Except VaultFault (Option IndexStatus) := v.ask d Index.status?

/-! ## Indexing -/

def indexFolder [Yaml.Loader] (v : Vault) (folder : List String) (rebuild : Bool) (now : String) (d : Disk) :
    Except VaultFault IndexReport × Disk :=
  let path := d.realPath folder
  if v.isOpen then
    let d := v.log [.info ("Indexing " ++ path ++ " into " ++ v.key.text)] d
    match d.files.folderAt? folder with
    | none => (.error (.notDirectory path), d)
    | some items =>
      let run := IndexRun.run rebuild v.key now (Folder.notes items) (v.index d)
      let d := v.log run.log (d.changeStore v.store fun s => { s with index := run.index })
      (run.outcome.mapError .run, d)
  else (.error .closed, d)

/-! ## Queries -/

def notIndexed : String := "Vault has not been indexed yet. Run 'vaultquery index <dir>' first."

def parse (v : Vault) (text : String) : Except QueryFault Query := (Query.parse text).map (·.withDefault v.config)

/-- The records of notes. Those that cannot be read are logged and passed over, up to a fault
that ends the reading. -/
def readNotes [Yaml.Loader] : List (String × List UInt8) → List LogLine × Except NoteFault (List Record)
  | [] => ([], .ok [])
  | (path, content) :: notes =>
    match Note.toRecord path content with
    | .ok record =>
      let (log, records) := readNotes notes
      (log, records.map (record :: ·))
    | .error fault =>
      if fault.isSkipped then
        let (log, records) := readNotes notes
        (.failedNote path fault :: log, records)
      else ([], .error fault)

def runPublic (q : Query) (records : List Record) : Except Value.TextFault Result :=
  q.answer (records.filter (!·.isPrivate))

/-- Runs a query over the public records of one vault in an index. A read that fails is the result. -/
def runIndex (q : Query) (key : VaultKey) (x : Index) : Except Value.TextFault Result :=
  match x.listPublic key with
  | .ok records => q.answer records
  | .error fault => .ok (Result.failure fault.message (some q) false)

def runSource (q : Query) (key : VaultKey) (source : RecordSource) : Except Value.TextFault Result :=
  match source key with
  | .ok records => q.answer records
  | .error fault => .ok (Result.failure fault.message (some q) false)

def fetchLog (key : VaultKey) (source : RecordSource) : List LogLine :=
  match source key with
  | .ok _ => []
  | .error fault => [fault.logLine key]

def queryFolder [Yaml.Loader] (v : Vault) (q : Query) (folder : List String) (d : Disk) : Except VaultFault Result × Disk :=
  match d.files.folderAt? folder with
  | none => (.error (.notDirectory (d.realPath folder)), d)
  | some items =>
    let (log, records) := readNotes (Folder.notes items)
    (records.mapError (fun fault => .run (.note fault)) >>= fun rs => (runPublic q rs).mapError .text, v.log log d)

def queryIndex (v : Vault) (q : Query) (d : Disk) : Except VaultFault Result := do
  match (← v.status d).filter (·.isReady) with
  | none => return Result.failure notIndexed (some q) true
  | some _ => (q.answer (← v.ask d Index.listPublic)).mapError .text

/-- Runs the text of a query over the folder at a path, the source given to the vault, or
the index. A text that is no query has a failure as its result. -/
def query [Yaml.Loader] (v : Vault) (text : String) (folder : Option (List String)) (d : Disk) : Except VaultFault Result × Disk :=
  match v.parse text with
  | .error fault =>
    (if fault.isSyntax then .ok (Result.failure ("Syntax error: " ++ fault.message) none false)
      else .error (.query fault), d)
  | .ok q =>
    match folder, v.records with
    | some folder, _ => v.queryFolder q folder d
    | none, some source => ((runSource q v.key source).mapError .text, v.log (fetchLog v.key source) d)
    | none, none => (v.queryIndex q d, d)

/-! ## Texts -/

def statusText (v : Vault) (d : Disk) : Except VaultFault String := do
  match ← v.status d with
  | none =>
    let _ ← v.ask d Index.count
    return v.key.text ++ ": not indexed"
  | some s =>
    let count ← v.ask d Index.count
    return v.key.text ++ ": " ++ s.state.text ++ ", " ++ toString count ++ " records" ++
      (if s.failed = 0 then "" else ", " ++ toString s.failed ++ " failed") ++
      (match s.message.filter (· ≠ "") with
      | some message => " (error: " ++ message ++ ")"
      | none => "")

def configJson (v : Vault) : Json :=
  let c := v.config
  .object [("file", .text (Config.file v.store)), ("store", .text v.store), ("database", .text (Config.indexFile v.store)),
    ("vault", .object [("user_id", .text c.vault.user), ("owner", .text c.vault.owner), ("repo", .text c.vault.repo),
      ("branch", .text c.vault.branch)]),
    ("default_limit", match c.defaultLimit with | .count n => .int n | .flag b => .bool b)]

end Vault

end NoteQuery

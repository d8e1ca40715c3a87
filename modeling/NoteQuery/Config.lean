import NoteQuery.Path
import NoteQuery.Query.Basic
import NoteQuery.Record
import NoteQuery.Toml.Document
import NoteQuery.Toml.Writer
import NoteQuery.Value.Fault

/-!
# Configuration

A store's configuration names the vault that it indexes and a limit for queries without one.
It is kept as a TOML file; what the file leaves out has a default.
-/

namespace NoteQuery

structure Config where
  version : Toml
  created : Toml
  vault : VaultKey
  /-- Nothing below one limits queries. -/
  defaultLimit : Limit

inductive ConfigFault
  | missing (path : String)
  | malformed (problem : Toml.Problem) (message : String)
  | digits
  | noTable (kind : String)
  | notComparable (kind : String)
  | newer (version : Toml)
  | limit (value : Toml)

namespace ConfigFault

def message : ConfigFault → String
  | .missing path => "Config not found: " ++ path
  | .malformed _ message => message
  | .digits => Value.TextFault.digits.message
  | .noTable kind => "'" ++ kind ++ "' object has no attribute 'get'"
  | .notComparable kind => "'>' not supported between instances of '" ++ kind ++ "' and 'int'"
  | .newer version => "Config version " ++ version.plain ++ " is newer than supported (1)"
  | .limit value => "query.default_limit must be a non-negative integer: " ++ value.shown

end ConfigFault

namespace Config

def fileName : String := "vaultquery.toml"

def indexName : String := "vault-index.db"

def file (store : String) : String := Path.child store fileName

def indexFile (store : String) : String := Path.child store indexName

def localVault (user : String) : VaultKey := ⟨user, "local", "vault", "main"⟩

def initial (user now : String) : Config := ⟨.int 1, .text now, localVault user, .count 0⟩

/-! ## Reading -/

def tableAt (name : String) (file : Toml.Table) : Except ConfigFault Toml.Table :=
  match file.lookup name with
  | none => .ok []
  | some (.table entries) => .ok entries
  | some other => .error (.noTable other.kindName)

/-- A version is a number up to one. NaN is not above one. -/
def checkVersion (version : Toml) : Except ConfigFault Unit :=
  let check (number : Number) : Except ConfigFault Unit :=
    if (number.compare (.int 1)).isGT then .error (.newer version) else .ok ()
  match version with
  | .int n => check (.int n)
  | .float x => check (.float x)
  | .bool _ => .ok ()
  | other => .error (.notComparable other.kindName)

def limitOf (value : Toml) : Except ConfigFault Limit :=
  match value with
  | .int n => if n < 0 then .error (.limit value) else .ok (.count n)
  | .bool b => .ok (.flag b)
  | _ => .error (.limit value)

/-- The text of an entry, whatever its value. -/
def textAt (name default : String) (entries : Toml.Table) : String :=
  ((entries.lookup name).map (·.plain)).getD default

def ofTable (file : Toml.Table) : Except ConfigFault Config := do
  let store ← tableAt "store" file
  let version := (store.lookup "version").getD (.int 1)
  checkVersion version
  let query ← tableAt "query" file
  let defaultLimit ← limitOf ((query.lookup "default_limit").getD (.int 0))
  let vault ← tableAt "vault" file
  return {
    version
    created := (store.lookup "created").getD (.text "")
    vault := ⟨textAt "user_id" "local" vault, textAt "owner" "local" vault, textAt "repo" "vault" vault,
      textAt "branch" "main" vault⟩
    defaultLimit }

def read (text : String) : Except ConfigFault Config :=
  match Toml.read text.toList with
  | .error (problem, message) => .error (.malformed problem message)
  | .ok file => ofTable file

/-! ## Writing -/

def limitToml : Limit → Toml
  | .count n => .int n
  | .flag b => .bool b

def document (version created defaultLimit : Toml) (vault : VaultKey) : String :=
  Toml.document [
    ("store", [("version", version), ("created", created)]),
    ("vault", [("user_id", .text vault.user), ("owner", .text vault.owner), ("repo", .text vault.repo),
      ("branch", .text vault.branch)]),
    ("query", [("default_limit", defaultLimit)])]

def write (c : Config) : String := document c.version c.created (limitToml c.defaultLimit) c.vault

def isLong : Toml → Bool
  | .int n => Text.isLong n
  | _ => false

def saved (c : Config) : Except ConfigFault String :=
  if isLong c.version || isLong (limitToml c.defaultLimit) then .error .digits else .ok c.write

/-! ## Stores -/

/-- The store directory where none is named: that of the environment, or one in the home
directory. -/
def defaultStore (home : String) (environment : Option String) : String :=
  match environment.filter (· ≠ "") with
  | some path => Path.ofNames (Path.dropParents (Path.names (Path.expandHome home path)))
  | none => Path.child (Path.plain (Path.homeText home)) ".vaultquery"

end Config

def Query.withDefault (q : Query) (c : Config) : Query :=
  if q.limit.isNone && 0 < c.defaultLimit.toInt then { q with limit := some c.defaultLimit } else q

end NoteQuery

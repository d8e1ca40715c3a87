import NoteQuery.CommandLine.Arguments
import NoteQuery.Result.Document
import NoteQuery.Vault

/-!
# The command line

What a run of the program prints, how it exits, and what it changes on the disk. Faults that
no command expects are noted in the error log of the default store.
-/

namespace NoteQuery.CommandLine

structure Environment where
  home : String
  storePath : Option String
  user : String
  now : String
  folder : List String
  input : String

structure Output where
  exit : Nat
  out : String
  err : String

/-- A fault that no command expects, by its kind and message. -/
structure Crash where
  kind : String
  message : String

/-- What a command does instead of printing an answer: it says why and exits, or crashes. -/
inductive Stop
  | said (err : String)
  | crash (crash : Crash)

/-! ## Kinds of faults -/

def yamlKind : Yaml.FaultKind → String
  | .yaml => "YAMLError"
  | .value => "ValueError"
  | .overflow => "OverflowError"
  | .lookup => "KeyError"
  | .index => "IndexError"
  | .attribute => "AttributeError"
  | .encoding => "UnicodeEncodeError"

def textKind : Value.TextFault → String
  | .digits => "ValueError"
  | .endless => "RecursionError"

def queryKind (fault : QueryFault) : String := if fault.isSyntax then "QueryParseError" else "ValueError"

def noteKind : NoteFault → String
  | .notUtf8 _ => "UnicodeDecodeError"
  | .frontMatter _ (.yaml fault) => yamlKind fault.kind
  | .frontMatter _ .digits => "ValueError"

def undocumentedKind : Value.Undocumented → String
  | .key _ => "TypeError"
  | .circular | .digits => "ValueError"

def indexKind : IndexFault → String
  | .closed _ => "StoreUnavailableError"
  | .undocumented cause => undocumentedKind cause
  | .unreadable _ => "JSONDecodeError"
  | .unknownState _ => "ValueError"
  | .overflow => "OverflowError"

def runKind : RunFault → String
  | .index fault => indexKind fault
  | .note fault => noteKind fault

def vaultKind : VaultFault → String
  | .closed => "RuntimeError"
  | .notDirectory _ => "NotADirectoryError"
  | .run fault => runKind fault
  | .query fault => queryKind fault
  | .text fault => textKind fault

def configKind : ConfigFault → String
  | .missing _ => "FileNotFoundError"
  | .malformed (.digits _) _ | .digits => "ValueError"
  | .malformed _ _ => "TOMLDecodeError"
  | .noTable _ => "AttributeError"
  | .notComparable _ => "TypeError"
  | .newer _ | .limit _ => "ValueError"

/-- A fault of a configuration is said, unless the file has the wrong shape. -/
def configStop (fault : ConfigFault) : Stop :=
  match fault with
  | .noTable _ | .notComparable _ => .crash ⟨configKind fault, fault.message⟩
  | _ => .said ("Error: " ++ fault.message)

def vaultStop (fault : VaultFault) : Stop :=
  match fault with
  | .notDirectory _ => .said ("Error: " ++ fault.message)
  | _ => .crash ⟨vaultKind fault, fault.message⟩

def cellCrash : CellFault → Crash
  | .tooLarge => ⟨"OverflowError", "int too large to convert to float"⟩
  | .text fault => ⟨textKind fault, fault.message⟩

/-! ## Commands -/

/-- What a command prints: to the output, or to the error output as a failure. -/
inductive Answer
  | out (text : String)
  | failure (text : String)
  | failedOut (text : String)

abbrev Run := StateT Disk (Except (Stop × Disk))

def stop {α : Type} (s : Stop) : Run α := do throw (s, ← get)

def names (env : Environment) (path : String) : List String :=
  let text := Path.expandHome env.home path
  if Path.isAbsolute text then Path.names text else env.folder ++ Path.names text

def defaultStore (env : Environment) : String := Config.defaultStore env.home env.storePath

/-- The store that a request names, directly or through the environment. -/
def storePath (env : Environment) (r : Request) (d : Disk) : String :=
  let environment := env.storePath.filter (· ≠ "")
  match r.store <|> environment <|> r.globalStore with
  | some path => d.realPath (names env path)
  | none => defaultStore env

def openVault (env : Environment) (r : Request) : Run Vault := do
  let d ← get
  match Vault.open_ (storePath env r d) env.user env.now none d with
  | .ok (v, d) => do set d; return v
  | .error fault => stop (configStop fault)

def settle {α : Type} (answer : Except VaultFault α × Disk) : Run α := do
  set answer.2
  match answer.1 with
  | .ok a => return a
  | .error fault => stop (vaultStop fault)

def page (doc : Json) : String := doc.render .page

def indexCommand [Yaml.Loader] (env : Environment) (r : Request) (folder : String) (rebuild : Bool) : Run Answer := do
  let v ← openVault env r
  let report ← settle (v.indexFolder (names env folder) rebuild env.now (← get))
  return .out (if r.json then page report.toJson else report.summary (Path.plain folder))

def documented {α : Type} (doc : Except Value.Undocumented α) : Run α := do
  match doc with
  | .ok a => return a
  | .error cause => stop (.crash ⟨undocumentedKind cause, cause.message false⟩)

def rendered (result : Result) : Run String := do
  match result.render with
  | .ok text => return text
  | .error fault => stop (.crash (cellCrash fault))

def queryCommand [Yaml.Loader] (env : Environment) (r : Request) (text : String) (folder : Option String) : Run Answer := do
  let text := if text = "-" then env.input else text
  let v ← openVault env r
  let result ← settle (v.query text (folder.map (names env)) (← get))
  if r.json then
    let printed := page (← documented result.toJson)
    return if result.isSuccess then .out printed else .failedOut printed
  else
    let printed ← rendered result
    return if result.isSuccess then .out printed else .failure printed

def checkCommand (r : Request) (text : String) : Run Answer := do
  match Query.parse text with
  | .error fault =>
    if !fault.isSyntax then stop (.crash ⟨queryKind fault, fault.message⟩)
    else if r.json then
      return .failedOut (page (.object [("valid", .bool false), ("error", .text fault.message)]))
    else return .failure ("Syntax error: " ++ fault.message)
  | .ok q => return .out (if r.json then page (.object [("valid", .bool true)]) else q.describe)

def statusCommand (env : Environment) (r : Request) : Run Answer := do
  let v ← openVault env r
  let d ← get
  let status ← settle (v.status d, d)
  if r.json then
    let count ← settle (v.ask d Index.count, d)
    return .out (page (.object [("vault", .text v.key.text), ("records", .int count),
      ("status", (status.map IndexStatus.toJson).getD .null)]))
  else
    return .out ("vault: " ++ v.key.text ++ "\n" ++ (status.map (·.summary)).getD "Not indexed")

def partAt? : List String → Json → Option Json
  | [], doc => some doc
  | name :: names, .object entries => (entries.lookup name).bind (partAt? names)
  | _ :: _, _ => none

/-- A part of the configuration by itself: an object on one line, or the plain value. -/
def partText : Json → String
  | .text s => s
  | .int n => toString n
  | .bool b => if b then "True" else "False"
  | doc => doc.render .asciiLine

def configLines (v : Vault) : String :=
  let limit := v.config.defaultLimit
  "\n".intercalate ["file: " ++ Config.file v.store, "store: " ++ v.store,
    "vault: " ++ v.key.text ++ " (user " ++ v.key.user ++ ")",
    "default_limit: " ++ (if limit.toInt = 0 then "none" else limit.text)]

def configCommand (env : Environment) (r : Request) (path : Option String) : Run Answer := do
  let v ← openVault env r
  match path.filter (· ≠ "") with
  | none => return .out (if r.json then page v.configJson else configLines v)
  | some path =>
    match partAt? (Text.segments '.' path) v.configJson with
    | none => return .failure ("Unknown config path: " ++ path)
    | some part => return .out (if r.json then page (.object [(path, part)]) else partText part)

def answer [Yaml.Loader] (env : Environment) (r : Request) : Run Answer :=
  match r.command with
  | .index folder rebuild => indexCommand env r folder rebuild
  | .query text folder => queryCommand env r text folder
  | .check text => checkCommand r text
  | .status => statusCommand env r
  | .config path => configCommand env r path

/-! ## Runs -/

def errorLogName : String := "vaultquery-errors.log"

def usageExit : Nat := 2

def crashed (env : Environment) (crash : Crash) (d : Disk) : Output × Disk :=
  let store := defaultStore env
  let err := "Error: " ++ crash.message ++ "\nDetails logged to " ++ Path.child store errorLogName ++ "\n"
  (⟨1, "", err⟩, d.addCrash store (crash.kind ++ ": " ++ crash.message))

def run [Yaml.Loader] (env : Environment) (args : List String) (d : Disk) : Output × Disk :=
  match Request.ofWords args with
  | none => (⟨usageExit, "", ""⟩, d)
  | some r =>
    match (answer env r).run d with
    | .ok (.out text, d) => (⟨0, text ++ "\n", ""⟩, d)
    | .ok (.failure text, d) => (⟨1, "", text ++ "\n"⟩, d)
    | .ok (.failedOut text, d) => (⟨1, text ++ "\n", ""⟩, d)
    | .error (.said text, d) => (⟨1, "", text ++ "\n"⟩, d)
    | .error (.crash crash, d) => crashed env crash d

def separator : String := "then"

def commandsOf : List String → List (List String)
  | [] => [[]]
  | word :: words =>
    match commandsOf words with
    | [] => [[word]]
    | command :: commands =>
      if word = separator then [] :: command :: commands else (word :: command) :: commands

def runAll [Yaml.Loader] (env : Environment) : List (List String) → Disk → List Output
  | [], _ => []
  | command :: commands, d =>
    let (o, d) := run env command d
    if o.exit = 0 then o :: runAll env commands d else [o]

def exitOf (outputs : List Output) : Nat := (outputs.getLast?.map (·.exit)).getD 0

end NoteQuery.CommandLine

import NoteQuery.Text.Segment

/-!
# Arguments

The words of a command line. Options come as `--name value`, `--name=value` or, with one
letter, after a single hyphen, where several can stand together; two hyphens end them.
-/

namespace NoteQuery.CommandLine

inductive OptionName
  | json
  | verbose
  | store
  | rebuild
  | folder
  deriving DecidableEq

structure Spelling where
  text : String
  option : OptionName
  takesValue : Bool

def globalSpellings : List Spelling :=
  [⟨"--json", .json, false⟩, ⟨"-j", .json, false⟩, ⟨"--verbose", .verbose, false⟩, ⟨"-v", .verbose, false⟩,
    ⟨"--store", .store, true⟩, ⟨"-s", .store, true⟩]

def storeSpellings : List Spelling := [⟨"--store", .store, true⟩, ⟨"-s", .store, true⟩]

/-- Options with their values, empty for those that take none, and the other words. -/
structure Arguments where
  options : List (OptionName × String)
  words : List String

namespace Arguments

def has (a : Arguments) (name : OptionName) : Bool := a.options.any (·.1 == name)

def value? (a : Arguments) (name : OptionName) : Option String :=
  ((a.options.filter (·.1 == name)).map (·.2)).getLast?

def withOptions (options : List (OptionName × String)) (a : Arguments) : Arguments :=
  { a with options := options ++ a.options }

def withWord (word : String) (a : Arguments) : Arguments := { a with words := word :: a.words }

/-- An option's value: what is attached to it, or the next word. Returns the words left. -/
def takeValue (attached : Option String) (rest : List String) : Option (String × List String) :=
  match attached, rest with
  | some value, rest => some (value, rest)
  | none, value :: rest => some (value, rest)
  | none, [] => none

/-- Options of one letter each. What follows one that takes a value is its value. -/
def letters (spellings : List Spelling) (rest : List String) :
    List Char → Option (List (OptionName × String) × List String)
  | [] => some ([], rest)
  | c :: cs => do
    let spelling ← spellings.find? (·.text = String.ofList ['-', c])
    if spelling.takesValue then
      let (value, rest) ← takeValue (if cs.isEmpty then none else some (String.ofList cs)) rest
      some ([(spelling.option, value)], rest)
    else
      let (more, rest) ← letters spellings rest cs
      some ((spelling.option, "") :: more, rest)

def splitEquals (arg : String) : String × Option String :=
  match arg.toList.span (· != '=') with
  | (name, _ :: value) => (String.ofList name, some (String.ofList value))
  | (_, []) => (arg, none)

def optionsIn (spellings : List Spelling) (arg : String) (rest : List String) :
    Option (List (OptionName × String) × List String) :=
  let (name, attached) := splitEquals arg
  match spellings.find? fun s => s.text = name && Text.startsWith ['-', '-'] s.text.toList with
  | some spelling =>
    if spelling.takesValue then
      (takeValue attached rest).map fun (value, rest) => ([(spelling.option, value)], rest)
    else if attached.isSome then none
    else some ([(spelling.option, "")], rest)
  | none => if Text.startsWith ['-', '-'] arg.toList then none else letters spellings rest (arg.toList.drop 1)

def isOption (arg : String) : Bool := arg.toList.head? == some '-' && 1 < arg.length

/-- Reads words; none if an option is unknown or lacks its value. Options end at the first
other word unless they may be `mixed`. The first argument bounds the number of steps. -/
def read (spellings : List Spelling) (mixed : Bool) : Nat → List String → Option Arguments
  | 0, args => some ⟨[], args⟩
  | _ + 1, [] => some ⟨[], []⟩
  | steps + 1, arg :: rest =>
    if arg = "--" then some ⟨[], rest⟩
    else if isOption arg then do
      let (options, rest) ← optionsIn spellings arg rest
      (read spellings mixed steps rest).map (withOptions options)
    else if mixed then (read spellings mixed steps rest).map (withWord arg)
    else some ⟨[], arg :: rest⟩

end Arguments

inductive Command
  | index (folder : String) (rebuild : Bool)
  | query (text : String) (folder : Option String)
  | check (text : String)
  | status
  | config (path : Option String)

structure Request where
  command : Command
  json : Bool
  /-- The store named after the command, and the one named before it. -/
  store : Option String
  globalStore : Option String

namespace Request

def spellings (command : String) : List Spelling :=
  if command = "index" then ⟨"--rebuild", .rebuild, false⟩ :: storeSpellings
  else if command = "query" then [⟨"--dir", .folder, true⟩, ⟨"-d", .folder, true⟩] ++ storeSpellings
  else if command = "check" then []
  else storeSpellings

def commandOf (name : String) (a : Arguments) : Option Command :=
  match name, a.words with
  | "index", [folder] => some (.index folder (a.has .rebuild))
  | "query", [text] => some (.query text (a.value? .folder))
  | "check", [text] => some (.check text)
  | "status", [] => some .status
  | "config", [] => some (.config none)
  | "config", [path] => some (.config (some path))
  | _, _ => none

def ofWords (args : List String) : Option Request := do
  let before ← Arguments.read globalSpellings false (args.length + 1) args
  match before.words with
  | [] => none
  | name :: rest =>
    let after ← Arguments.read (spellings name) true (rest.length + 1) rest
    let command ← commandOf name after
    some ⟨command, before.has .json, after.value? .store, before.value? .store⟩

end Request

end NoteQuery.CommandLine

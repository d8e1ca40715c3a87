import NoteQuery.Toml.Scalar

/-!
# TOML documents

Reads a text as one table. Headers and dotted keys open tables inside it; a table is declared
once, and what was written as a value is not extended afterwards.
-/

namespace NoteQuery.Toml

abbrev Table := List (String × Toml)

/-! ## Keys -/

def isBareChar (c : Char) : Bool :=
  c.isDigit || ('a' ≤ c && c ≤ 'z') || ('A' ≤ c && c ≤ 'Z') || c == '-' || c == '_'

def keyPart (cs : List Char) : Except Fault (String × List Char) :=
  match cs with
  | [] => failAt .keyPart []
  | c :: rest =>
    if isBareChar c then
      let (name, rest) := (c :: rest).span isBareChar
      .ok (String.ofList name, rest)
    else if c == '\'' then (literalString false rest).map fun (name, rest) => (String.ofList name, rest)
    else if c == '"' then
      (basicString false (rest.length + 1) rest).map fun (name, rest) => (String.ofList name, rest)
    else failAt .keyPart (c :: rest)

/-- Parts with points between them. The first argument bounds their number. -/
def key : Nat → List Char → Except Fault (Key × List Char)
  | 0, cs => failAt .keyPart cs
  | steps + 1, cs => do
    let (part, rest) ← keyPart cs
    match skipSpaces rest with
    | '.' :: rest =>
      let (parts, rest) ← key steps (skipSpaces rest)
      return (part :: parts, rest)
    | rest => return ([part], rest)

def keyHere (cs : List Char) : Except Fault (Key × List Char) := key (cs.length + 1) cs

/-! ## Tables inside tables -/

/-- Changes the table under a key, which is made where it is missing. Through lists the way
goes to the last item, if it may. -/
def changeTable (throughLists : Bool) (change : Table → Option Table) : Key → Table → Option Table
  | [], entries => change entries
  | k :: ks, entries =>
    match entries.lookup k with
    | none => (changeTable throughLists change ks []).map fun inner => entries ++ [(k, .table inner)]
    | some (.table inner) =>
      (changeTable throughLists change ks inner).map fun inner => bind k (.table inner) entries
    | some (.list items) =>
      match throughLists, items.getLast? with
      | true, some (.table inner) =>
        (changeTable throughLists change ks inner).map fun inner =>
          bind k (.list (items.dropLast ++ [.table inner])) entries
      | _, _ => none
    | some _ => none

def openTable (key : Key) (entries : Table) : Option Table := changeTable true some key entries

def addToList (key : Key) (entries : Table) : Option Table :=
  let name := key.getLastD ""
  changeTable true (fun inner =>
    match inner.lookup name with
    | none => some (inner ++ [(name, .list [.table []])])
    | some (.list items) => some (bind name (.list (items ++ [.table []])) inner)
    | some _ => none) key.dropLast entries

/-! ## Values -/

def isCollection : Toml → Bool
  | .list _ | .table _ => true
  | _ => false

def skipComment (cs : List Char) : Except Fault (List Char) :=
  match cs with
  | '#' :: rest => do
    let (body, rest) := rest.span (· != '\n')
    checkLegal false body rest
    return rest
  | _ => .ok cs

def skipBetween : Nat → List Char → Except Fault (List Char)
  | 0, cs => .ok cs
  | steps + 1, cs => do
    let rest ← skipComment (skipLines cs)
    if rest.length = cs.length then return rest else skipBetween steps rest

def keyValue (value : List Char → Except Fault (Toml × List Char)) (cs : List Char) :
    Except Fault ((Key × Toml) × List Char) := do
  let (key, rest) ← keyHere cs
  match rest with
  | '=' :: rest =>
    let (v, rest) ← value (skipSpaces rest)
    return ((key, v), rest)
  | rest => failAt .noEquals rest

def isUnder (keys : List Key) (key : Key) : Bool := keys.any (·.isPrefixOf key)

/-- Binds an entry of an inline table, where `closed` are the keys of its collections. -/
def bindInline (closed : List Key) (key : Key) (v : Toml) (entries : Table) (rest : List Char) :
    Except Fault Table := do
  let name := key.getLastD ""
  if isUnder closed key then failAt (.immutable key) rest
  let isTaken (inner : Table) : Bool := (inner.lookup name).isSome
  match changeTable false some key.dropLast entries with
  | none => failAt .overwritten rest
  | some _ =>
    match changeTable false (fun inner => if isTaken inner then none else some (inner ++ [(name, v)]))
        key.dropLast entries with
    | none => failAt (.duplicateKey name) rest
    | some bound => return bound

mutual

/-- A value. The first argument bounds the depth of reading. -/
def value : Nat → List Char → Except Fault (Toml × List Char)
  | 0, cs => failAt .value cs
  | fuel + 1, cs =>
    match string? cs with
    | some read => read.map fun (chars, rest) => (.text (String.ofList chars), rest)
    | none =>
      if Text.startsWith "true".toList cs then .ok (.bool true, cs.drop 4)
      else if Text.startsWith "false".toList cs then .ok (.bool false, cs.drop 5)
      else
        match cs with
        | '[' :: rest => do
          let rest ← skipBetween (rest.length + 1) rest
          let (items, rest) ← arrayItems fuel rest
          return (.list items, rest)
        | '\x7b' :: rest =>
          match skipSpaces rest with
          | '\x7d' :: rest => .ok (.table [], rest)
          | rest => inlineEntries fuel [] [] rest
        | cs => plainScalar cs

def arrayItems : Nat → List Char → Except Fault (List Toml × List Char)
  | 0, cs => failAt .unclosedArray cs
  | fuel + 1, cs =>
    match cs with
    | ']' :: rest => .ok ([], rest)
    | cs => do
      let (item, rest) ← value fuel cs
      let rest ← skipBetween (rest.length + 1) rest
      match rest with
      | ']' :: rest => return ([item], rest)
      | ',' :: rest =>
        let rest ← skipBetween (rest.length + 1) rest
        let (items, rest) ← arrayItems fuel rest
        return (item :: items, rest)
      | rest => failAt .unclosedArray rest

def inlineEntries : Nat → List Key → Table → List Char → Except Fault (Toml × List Char)
  | 0, _, _, cs => failAt .unclosedTable cs
  | fuel + 1, closed, entries, cs => do
    let ((key, v), rest) ← keyValue (value fuel) cs
    let entries ← bindInline closed key v entries rest
    match skipSpaces rest with
    | '\x7d' :: rest => return (.table entries, rest)
    | ',' :: rest => inlineEntries fuel (if isCollection v then key :: closed else closed) entries (skipSpaces rest)
    | rest => failAt .unclosedTable rest

end

/-! ## Statements -/

/-- What was read so far: the table, the header at hand, the keys of values, which are closed,
and those of declared tables. Tables opened by dotted keys count as declared from the next
header on. -/
structure Draft where
  content : Table
  header : Key
  closed : List Key
  declared : List Key
  pending : List Key

namespace Draft

def isClosed (d : Draft) (key : Key) : Bool := isUnder d.closed key

def isDeclared (d : Draft) (key : Key) : Bool := d.declared.contains key

def settlePending (d : Draft) : Draft := { d with declared := d.pending ++ d.declared, pending := [] }

def tableHeader (d : Draft) (cs : List Char) : Except Fault (Draft × List Char) := do
  let (key, rest) ← keyHere (skipSpaces cs)
  if d.isDeclared key || d.isClosed key then failAt (.declaredTwice key) rest
  match openTable key d.content with
  | none => failAt .overwritten rest
  | some content =>
    match rest with
    | ']' :: rest => return ({ d with content, header := key, declared := key :: d.declared }, rest)
    | rest => failAt .tableEnd rest

/-- The header of a table in a list. What was declared inside the last one is free again. -/
def listHeader (d : Draft) (cs : List Char) : Except Fault (Draft × List Char) := do
  let (key, rest) ← keyHere (skipSpaces cs)
  if d.isClosed key then failAt (.immutable key) rest
  let free (keys : List Key) : List Key := keys.filter (!key.isPrefixOf ·)
  match addToList key d.content with
  | none => failAt .overwritten rest
  | some content =>
    match rest with
    | ']' :: ']' :: rest =>
      return ({ d with content, header := key, closed := free d.closed, declared := key :: free d.declared }, rest)
    | rest => failAt .listEnd rest

def outerKeys (header key : Key) : List Key :=
  (List.range (key.length - 1)).map fun i => header ++ key.take (i + 1)

def entry (d : Draft) (cs : List Char) : Except Fault (Draft × List Char) := do
  let ((key, v), rest) ← keyValue (value (cs.length + 1)) cs
  -- a dotted key must not open a table again that a header has opened
  match (outerKeys d.header key).find? (d.isDeclared ·) with
  | some outer => failAt (.redefined outer) rest
  | none =>
    let parent := d.header ++ key.dropLast
    if d.isClosed parent then failAt (.immutable parent) rest
    let name := key.getLastD ""
    let bound := changeTable true (fun inner =>
      if (inner.lookup name).isSome then none else some (inner ++ [(name, v)])) parent d.content
    match bound with
    | none => failAt .overwritten rest
    | some content =>
      let closed := if isCollection v then (d.header ++ key) :: d.closed else d.closed
      return ({ d with content, closed, pending := outerKeys d.header key ++ d.pending }, rest)

def statement (d : Draft) (cs : List Char) : Except Fault (Draft × List Char) :=
  match cs with
  | '[' :: '[' :: rest => d.settlePending.listHeader rest
  | '[' :: rest => d.settlePending.tableHeader rest
  | '#' :: _ => .ok (d, cs)
  | c :: _ => if isBareChar c || c == '"' || c == '\'' then d.entry cs else failAt .statement cs
  | [] => .ok (d, [])

/-- The statements of a text, one a line. The first argument bounds the number of lines. -/
def lines : Nat → Draft → List Char → Except Fault Table
  | 0, d, _ => .ok d.content
  | steps + 1, d, cs =>
    match skipSpaces cs with
    | [] => .ok d.content
    | '\n' :: rest => lines steps d rest
    | cs => do
      let (d, rest) ← d.statement cs
      let rest ← skipComment (skipSpaces rest)
      match rest with
      | [] => return d.content
      | '\n' :: rest => lines steps d rest
      | rest => failAt .afterStatement rest

end Draft

/-- Line ends are line feeds, also where a carriage return stands before. -/
def plainLineEnds : List Char → List Char
  | '\r' :: '\n' :: cs => '\n' :: plainLineEnds cs
  | c :: cs => c :: plainLineEnds cs
  | [] => []

def readTable (cs : List Char) : Except Fault Table := Draft.lines (cs.length + 1) ⟨[], [], [], [], []⟩ cs

def read (text : List Char) : Except (Problem × String) Table :=
  let cs := plainLineEnds text
  (readTable cs).mapError fun fault => (fault.problem, fault.message cs)

end NoteQuery.Toml

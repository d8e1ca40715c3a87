import NoteQuery.Query.Basic
import NoteQuery.Query.Clause
import NoteQuery.Query.Literal

/-!
# Column lists

Columns are separated by commas. A column is a field path, or one of three functions called
on a field path, either with an alias after the keyword `AS`. What is no column is skipped.
-/

namespace NoteQuery.Query

def aggregateNames : List (List Char) := ["length", "count", "sum"].map String.toList

/-- The end of an alias: nothing, or one quote. -/
def aliasEnds : List Char → Bool
  | [] => true
  | [q] => isQuote q
  | _ => false

def plainAlias? (cs : List Char) : Option (List Char) :=
  match run? (!isQuote ·) cs with
  | some (inside, rest) => if aliasEnds rest then some inside else none
  | none => none

/-- The alias after the blanks that follow `AS`, which may stand between quotes. A lone quote
after two blanks or more leaves one blank as the alias. -/
def aliasText? (cs : List Char) : Option (List Char) :=
  let (blanks, body) := cs.span Text.isBlank
  if blanks.isEmpty then none
  else
    let quotedAlias? :=
      match body with
      | q :: inside => if isQuote q then plainAlias? inside else none
      | [] => none
    match quotedAlias? with
    | some inside => some inside
    | none =>
      match plainAlias? body with
      | some inside => some inside
      | none =>
        match body with
        | [q] => if isQuote q && 2 ≤ blanks.length then some (blanks.drop (blanks.length - 1)) else none
        | _ => none

def aliasClause? (cs : List Char) : Option String :=
  match run? Text.isBlank cs with
  | some (_, rest) =>
    ((Text.afterKeyword? ['a', 's'] rest).bind aliasText?).map (String.ofList ∘ Text.trim)
  | none => none

def callHead? (cs : List Char) : Option (List Char × List Char) :=
  aggregateNames.findSome? fun name =>
    match Text.afterKeyword? name cs with
    | some ('(' :: rest) => some (cs.take name.length, rest)
    | _ => none

def callColumn? (cs : List Char) : Option Column :=
  match callHead? cs with
  | none => none
  | some (name, inside) =>
    match run? Text.isFieldChar inside with
    | some (field, ')' :: rest) =>
      let column (a : Option String) : Column :=
        ⟨String.ofList field, a, some (.ofText (String.ofList (Text.lower name)))⟩
      if rest.isEmpty then some (column none) else (aliasClause? rest).map (column ∘ some)
    | _ => none

def fieldColumn? (cs : List Char) : Option Column :=
  match run? Text.isFieldChar cs with
  | some (field, rest) =>
    let column (a : Option String) : Column := ⟨String.ofList field, a, none⟩
    if rest.isEmpty then some (column none) else (aliasClause? rest).map (column ∘ some)
  | none => none

def column? (cs : List Char) : Option Column := callColumn? cs <|> fieldColumn? cs

def parseColumns (cs : List Char) : List Column :=
  (Text.cutAt ',' cs).filterMap fun part => column? (Text.trim part)

end NoteQuery.Query

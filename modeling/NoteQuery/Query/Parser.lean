import NoteQuery.Text.Segment
import NoteQuery.Query.Columns

/-!
# Parsing queries

The text of a query is squeezed first. Its kind and columns stand at the start; every other
clause is found wherever its keyword stands, so that their order does not matter.
-/

namespace NoteQuery

inductive QueryFault
  | empty
  | kind
  | columns
  | condition (part : String)
  /-- An integer has more digits than are read. -/
  | digits (count : Nat)
  deriving DecidableEq

namespace QueryFault

/-- Whether it is the wording of a text that is at fault, which is reported and not raised. -/
def isSyntax : QueryFault → Bool
  | .digits _ => false
  | _ => true

end QueryFault

namespace Query

/-- A `TABLE` query's head: the text of its column list, after an optional `WITHOUT ID`. -/
def tableHead? (cs : List Char) : Option (Bool × List Char) :=
  match afterWord? "table".toList cs with
  | none => none
  | some rest =>
    let bare? := ((afterWord? "without".toList rest).bind (afterWord? "id".toList)).bind freeClause?
    match bare? with
    | some (columns, _) => some (true, columns)
    | none =>
      let isWithout :=
        match Text.afterKeyword? "without".toList rest with
        | some more => wordEnds more
        | none => false
      if isWithout then none else (freeClause? rest).map fun (columns, _) => (false, columns)

def isListHead (cs : List Char) : Bool :=
  match Text.afterKeyword? "list".toList cs with
  | some [] => true
  | some (c :: _) => c == ' '
  | none => false

def folderClause? (cs : List Char) : Option Source :=
  match afterWord? "from".toList cs with
  | some ('"' :: inside) =>
    match run? (· != '"') inside with
    | some (path, '"' :: _) => some (.folder (String.ofList (Text.trim path)))
    | _ => none
  | _ => none

def tagClause? (cs : List Char) : Option Source :=
  match afterWord? "from".toList cs with
  | some ('#' :: inside) =>
    (run? (fun c => Text.isWord c || c == '/' || c == '-') inside).map
      fun (name, _) => .tag (String.ofList name)
  | _ => none

/-- A folder anywhere in the text goes before a tag. -/
def parseSource (cs : List Char) : Option Source := search folderClause? cs <|> search tagClause? cs

/-- Whether every quote is closed; inside quotes of one kind the other kind is plain. -/
def quotesClose : (inside : Option Char) → List Char → Bool
  | inside, [] => inside.isNone
  | none, c :: cs => quotesClose (if isQuote c then some c else none) cs
  | some q, c :: cs => quotesClose (if c == q then none else some q) cs

/-- Splits the text of a `WHERE` clause at each `AND` after which every quote is closed. The
first argument bounds the number of steps. -/
def splitAnd : Nat → List Char → List (List Char)
  | 0, cs => [cs]
  | _ + 1, [] => [[]]
  | steps + 1, c :: cs =>
    match (afterSpacedWord? "and".toList (c :: cs)).filter (quotesClose none) with
    | some rest => [] :: splitAnd steps rest
    | none =>
      match splitAnd steps cs with
      | [] => [[c]]
      | part :: parts => (c :: part) :: parts

def isBareChar (c : Char) : Bool :=
  Text.isWord c || c == '.' || c == '/' || c == '#' || c == '-'

def literal? (cs : List Char) : Option Value :=
  if (unquoted? cs).isSome || (!cs.isEmpty && cs.all isBareChar) then some (literalValue cs) else none

def dropSpace : List Char → List Char
  | ' ' :: cs => cs
  | cs => cs

def signs : List (List Char) := ["!=", ">=", "<=", "=", ">", "<"].map String.toList

/-- An operator at the start of a text, which the character `before` precedes, and the literal
after it. The word `contains` has to stand by itself. -/
def comparison? (before : Char) (cs : List Char) : Option (Operator × Value) :=
  let signed? := signs.findSome? fun sign =>
    ((Text.after? sign cs).bind (literal? ∘ dropSpace)).map
      fun value => (Operator.ofText (String.ofList sign), value)
  let worded? :=
    match Text.afterKeyword? "contains".toList cs with
    | some rest =>
      if !Text.isWord before && wordEnds rest then
        (literal? (dropSpace rest)).map
          fun value => (Operator.ofText (String.ofList (Text.lower (cs.take 8))), value)
      else none
    | none => none
  signed? <|> worded?

/-- Reads a condition whose field is the reversed run `taken`, or a shorter one. -/
def conditionFrom? : (taken rest : List Char) → Option Condition
  | [], _ => none
  | c :: taken, rest =>
    let found? :=
      match rest with
      | ' ' :: more => comparison? ' ' more
      | _ => comparison? c rest
    match found? with
    | some (operator, value) => some ⟨String.ofList (c :: taken).reverse, operator, value⟩
    | none => conditionFrom? taken (c :: rest)

def condition? (cs : List Char) : Option Condition :=
  let (field, rest) := cs.span Text.isFieldChar
  conditionFrom? field.reverse rest

def checkDigits (digits : List Char) : Except QueryFault Unit :=
  if Text.maxDigits < digits.length then .error (.digits digits.length) else .ok ()

/-- The digits of the integer that a condition compares with. It ends the text of the condition. -/
def literalDigits (cs : List Char) : Value → List Char
  | .int _ => finalDigits cs
  | _ => []

def parseCondition (cs : List Char) : Except QueryFault Condition :=
  match condition? cs with
  | some condition => (checkDigits (literalDigits cs condition.literal)).map fun _ => condition
  | none => .error (.condition (String.ofList cs))

def whereClauses : (steps : Nat) → (before : Option Char) → List Char → List (List Char)
  | 0, _, _ => []
  | _ + 1, _, [] => []
  | steps + 1, before, c :: cs =>
    let clause? :=
      if (before.map Text.isWord).getD false then none
      else (afterWord? "where".toList (c :: cs)).bind freeClause?
    match clause? with
    | some (inside, rest) => inside :: whereClauses steps none rest
    | none => whereClauses steps (some c) cs

def parseConditions (cs : List Char) : Except QueryFault (List Condition) :=
  ((whereClauses (cs.length + 1) none cs).flatMap fun clause => splitAnd (clause.length + 1) clause).mapM
    (parseCondition ∘ Text.trim)

def flattenClause? (cs : List Char) : Option Flatten :=
  match (afterWord? "flatten".toList cs).bind (run? Text.isFieldChar) with
  | some (field, rest) =>
    ((afterSpacedWord? "as".toList rest).bind (run? Text.isWord)).map
      fun (name, _) => ⟨String.ofList field, String.ofList name⟩
  | none => none

def groupClause? (cs : List Char) : Option String :=
  (((afterWord? "group".toList cs).bind (afterWord? "by".toList)).bind (run? Text.isFieldChar)).map
    fun (field, _) => String.ofList field

def isSortChar (c : Char) : Bool := Text.isFieldChar c || c == '(' || c == ')'

/-- A space and one of the two directions as a word; ascending otherwise. -/
def direction (cs : List Char) : Direction :=
  let isWord (keyword : List Char) : Bool :=
    match cs with
    | ' ' :: rest =>
      (match Text.afterKeyword? keyword rest with
      | some more => wordEnds more
      | none => false)
    | _ => false
  if isWord "desc".toList then .descending else .ascending

def sortClause? (cs : List Char) : Option (List Char × Direction) :=
  ((afterWord? "sort".toList cs).bind (run? isSortChar)).map fun (target, rest) => (target, direction rest)

def groupSizeCall : List Char := "length(rows)".toList

/-- Sorting by group size is asked for by the call itself or by the alias of its column. -/
def sortKey (columns : Option (List Column)) (target : List Char) : SortKey :=
  let name := String.ofList target
  let isAlias (c : Column) : Bool := c.isGroupSize && name != "" && c.title == some name
  if Text.lower target == groupSizeCall || (columns.getD []).any isAlias then .groupSize
  else .field name

def limitDigits? (cs : List Char) : Option (List Char) :=
  ((afterWord? "limit".toList cs).bind (run? Text.isDecimalDigit)).map (·.1)

def limitClause? (cs : List Char) : Option Nat := (limitDigits? cs).map Text.digitsValue

def parseHead (cs : List Char) : Except QueryFault Query :=
  if cs.isEmpty then .error .empty
  else
    match tableHead? cs with
    | some (withoutId, list) =>
      let columns := parseColumns list
      if columns.isEmpty then .error .columns
      else .ok { kind := .table, withoutId, columns := some columns }
    | none => if isListHead cs then .ok { kind := .list } else .error .kind

/-- Parses a squeezed text. A limit of zero is none. -/
def parseChars (cs : List Char) : Except QueryFault Query := do
  let head ← parseHead cs
  checkDigits ((search limitDigits? cs).getD [])
  let conditions ← parseConditions cs
  return { head with
    source := parseSource cs
    conditions
    flatten := search flattenClause? cs
    groupBy := search groupClause? cs
    sort := (search sortClause? cs).map fun (target, direction) =>
      ⟨sortKey head.columns target, direction⟩
    limit := ((search limitClause? cs).filter (0 < ·)).map fun n => .count n }

def parse (text : String) : Except QueryFault Query := parseChars (Text.squeeze text.toList)

end Query

end NoteQuery

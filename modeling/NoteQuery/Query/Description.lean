import NoteQuery.Query.Parser
import NoteQuery.Value.Shown

/-!
# Descriptions and messages

A query described in one line per clause, and the wording of faults in its text.
-/

namespace NoteQuery

def QueryFault.message : QueryFault → String
  | .empty => "Empty query"
  | .kind => "Query must start with TABLE or LIST"
  | .columns => "TABLE query requires at least one column"
  | .condition part => "Invalid WHERE condition: " ++ Text.quoted part
  | .digits count =>
    "Exceeds the limit (" ++ toString Text.maxDigits ++ " digits) for integer string conversion: value has " ++
      toString count ++ " digits; use sys.set_int_max_str_digits() to increase the limit"

def SortKey.text : SortKey → String
  | .field path => path
  | .groupSize => "length(rows)"

def Limit.text : Limit → String
  | .count n => toString n
  | .flag b => if b then "True" else "False"

namespace Query

def kindLine (q : Query) : String := q.kind.text ++ (if q.withoutId then " WITHOUT ID" else "")

def columnLines (q : Query) : List String :=
  if q.columnList.isEmpty then [] else ["columns: " ++ ", ".intercalate (q.columnList.map (·.label))]

def sourceLines : Option Source → List String
  | none => []
  | some (.folder path) => ["from: folder \"" ++ path ++ "\""]
  | some (.tag name) => ["from: tag #" ++ name]

def conditionLine (c : Condition) : String :=
  "where: " ++ c.field ++ " " ++ c.operator.text ++ " " ++ c.literal.shown

def flattenLines : Option Flatten → List String
  | none => []
  | some f => ["flatten: " ++ f.field ++ " as " ++ f.name]

def orderLines : Option RowOrder → List String
  | none => []
  | some o => ["sort: " ++ o.key.text ++ " " ++ o.direction.text]

/-- A limit of zero is passed over. -/
def limitLines (limit : Option Limit) : List String :=
  match limit.filter (·.toInt ≠ 0) with
  | none => []
  | some l => ["limit: " ++ l.text]

def describe (q : Query) : String :=
  "\n".intercalate ([q.kindLine] ++ q.columnLines ++ sourceLines q.source ++
    q.conditions.map conditionLine ++ flattenLines q.flatten ++
    (q.groupField?.toList.map fun field => "group by: " ++ field) ++ orderLines q.sort ++
    limitLines q.limit)

end Query

end NoteQuery

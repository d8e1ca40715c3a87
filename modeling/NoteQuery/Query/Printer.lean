import NoteQuery.Query.Description
import NoteQuery.Value.Text

/-!
# Written queries

The text of a query: a head with the kind and the columns, then clauses in any order, all
with single spaces between them. Aliases, folders and texts stand between double quotes.
-/

namespace NoteQuery.Query

def quoted (s : String) : List Char := '"' :: s.toList ++ ['"']

def columnText (c : Column) : List Char :=
  (match c.aggregate with
  | none => c.field.toList
  | some f => f.text.toList ++ '(' :: c.field.toList ++ [')']) ++
  (match c.title with
  | none => []
  | some a => " AS ".toList ++ quoted a)

def literalText : Value → List Char
  | .bool b => if b then ['t', 'r', 'u', 'e'] else ['f', 'a', 'l', 's', 'e']
  | .int n => Text.signedDecimal n
  | v => quoted v.toText

def conditionText (c : Condition) : List Char :=
  c.field.toList ++ ' ' :: c.operator.text.toList ++ ' ' :: literalText c.literal

inductive Clause
  | source (s : Source)
  | filter (conditions : List Condition)
  | flatten (f : Flatten)
  | group (field : String)
  | sort (o : RowOrder)
  | limit (l : Limit)

def Clause.text : Clause → List Char
  | .source (.folder path) => "FROM ".toList ++ quoted path
  | .source (.tag name) => "FROM #".toList ++ name.toList
  | .filter conditions => "WHERE ".toList ++ Text.joinWith " AND ".toList (conditions.map conditionText)
  | .flatten f => "FLATTEN ".toList ++ f.field.toList ++ " AS ".toList ++ f.name.toList
  | .group field => "GROUP BY ".toList ++ field.toList
  | .sort o => "SORT ".toList ++ o.key.text.toList ++ ' ' :: o.direction.text.toList
  | .limit l => "LIMIT ".toList ++ l.text.toList

def headText (q : Query) : List Char :=
  match q.columns with
  | none => q.kindLine.toList
  | some columns => q.kindLine.toList ++ ' ' :: Text.joinWith [',', ' '] (columns.map columnText)

def clauses (q : Query) : List Clause :=
  (q.source.map .source).toList ++ (q.flatten.map .flatten).toList ++
    (if q.conditions.isEmpty then [] else [.filter q.conditions]) ++
    (q.groupBy.map .group).toList ++ (q.sort.map .sort).toList ++ (q.limit.map .limit).toList

def textWith (q : Query) (clauses : List Clause) : List Char :=
  Text.joinWith [' '] (q.headText :: clauses.map Clause.text)

def text (q : Query) : String := String.ofList (q.textWith q.clauses)

end NoteQuery.Query

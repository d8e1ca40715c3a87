import NoteQuery.Value.Basic

/-!
# Queries

A query selects, filters, flattens, groups, sorts and limits the records of a vault, and
names the columns of the table that shows them.
-/

namespace NoteQuery

/-- What stands in the place of a closed choice: one of the choices, or a text that is none
of them and selects nothing. -/
inductive Operator
  | equal
  | unequal
  | greater
  | less
  | atLeast
  | atMost
  | contains
  | unknown (name : String)
  deriving DecidableEq

namespace Operator

def all : List (String × Operator) :=
  [("=", .equal), ("!=", .unequal), (">", .greater), ("<", .less), (">=", .atLeast),
    ("<=", .atMost), ("contains", .contains)]

def ofText (s : String) : Operator := (all.lookup s).getD (.unknown s)

def text : Operator → String
  | .equal => "="
  | .unequal => "!="
  | .greater => ">"
  | .less => "<"
  | .atLeast => ">="
  | .atMost => "<="
  | .contains => "contains"
  | .unknown name => name

end Operator

inductive Aggregate
  | length
  | count
  | sum
  | unknown (name : String)
  deriving DecidableEq

namespace Aggregate

def ofText (s : String) : Aggregate :=
  if s = "length" then .length else if s = "count" then .count else if s = "sum" then .sum
  else .unknown s

def text : Aggregate → String
  | .length => "length"
  | .count => "count"
  | .sum => "sum"
  | .unknown name => name

end Aggregate

structure Column where
  field : String
  title : Option String
  aggregate : Option Aggregate
  deriving DecidableEq

namespace Column

/-- The header of a column: its alias, or the call or field that it shows. An empty alias or
function name is passed over. -/
def label (c : Column) : String :=
  match c.title.filter (· ≠ "") with
  | some a => a
  | none =>
    match c.aggregate.filter (·.text ≠ "") with
    | some f => f.text ++ "(" ++ c.field ++ ")"
    | none => c.field

def isGroupSize (c : Column) : Bool := c.aggregate == some .length && c.field == "rows"

end Column

/-- The scope of a query: a folder with the folders below it, or a tag with its sub-tags. -/
inductive Source
  | folder (path : String)
  | tag (name : String)
  deriving DecidableEq

structure Condition where
  field : String
  operator : Operator
  literal : Value

/-- One row per item of a field, the item bound to a name. -/
structure Flatten where
  field : String
  name : String
  deriving DecidableEq

inductive SortKey
  | field (path : String)
  | groupSize
  deriving DecidableEq

inductive Direction
  | ascending
  | descending
  | unknown (name : String)
  deriving DecidableEq

namespace Direction

def ofText (s : String) : Direction :=
  if s = "ASC" then .ascending else if s = "DESC" then .descending else .unknown s

def text : Direction → String
  | .ascending => "ASC"
  | .descending => "DESC"
  | .unknown name => name

end Direction

structure RowOrder where
  key : SortKey
  direction : Direction
  deriving DecidableEq

namespace RowOrder

/-- Only an explicit request sorts downwards. -/
def isDescending (s : RowOrder) : Bool := s.direction == .descending

end RowOrder

/-- How many rows or groups are shown. A truth value counts as one or zero, and numbers below
one set no limit. -/
inductive Limit
  | count (n : Int)
  | flag (b : Bool)
  deriving DecidableEq

namespace Limit

def toInt : Limit → Int
  | .count n => n
  | .flag b => b.toNat

def effective? (l : Limit) : Option Nat := if 0 < l.toInt then some l.toInt.toNat else none

end Limit

inductive QueryKind
  | table
  | list
  | unknown (name : String)
  deriving DecidableEq

namespace QueryKind

def ofText (s : String) : QueryKind :=
  if s = "TABLE" then .table else if s = "LIST" then .list else .unknown s

def text : QueryKind → String
  | .table => "TABLE"
  | .list => "LIST"
  | .unknown name => name

end QueryKind

/-- A query. Its stages run in one order, however its text was written: source, flatten,
conditions, groups, sort, limit, columns. -/
structure Query where
  kind : QueryKind := .list
  withoutId : Bool := false
  columns : Option (List Column) := none
  source : Option Source := none
  conditions : List Condition := []
  flatten : Option Flatten := none
  groupBy : Option String := none
  sort : Option RowOrder := none
  limit : Option Limit := none

namespace Query

def groupField? (q : Query) : Option String := q.groupBy.filter (· ≠ "")

def columnList (q : Query) : List Column := q.columns.getD []

def isTable (q : Query) : Bool := q.kind == .table && !q.columnList.isEmpty

end Query

end NoteQuery

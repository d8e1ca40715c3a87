import NoteQuery.Result

/-!
# Table cells

What a column shows for a row or a group. Functions of a column run over the values of the
row's field, or of all rows of a group. Nothing to show is `missing`.
-/

namespace NoteQuery

inductive CellFault
  | tooLarge
  | text (fault : Value.TextFault)
  deriving DecidableEq

namespace Cell

/-- The values that a value contributes: the items of a list, itself otherwise, nothing
absent. -/
def contributions : Value → List Value
  | .missing | .null => []
  | .list items => items.filter (!·.isAbsent)
  | v => [v]

def total? (numbers : List Number) : Option Number :=
  numbers.foldl (fun sum n => sum.bind (·.add? n)) (some (.int 0))

/-- A whole sum is an integer, provided that it is in the range of floats. -/
def sumValue : Number → Except CellFault Value
  | .int n => if n.natAbs < Number.tooLarge then .ok (.int n) else .error .tooLarge
  | .float x => .ok (if Number.isWhole x then .int (Number.truncate x) else .float x)

def sum (values : List Value) : Except CellFault Value :=
  match values.filterMap (·.asNumber?) with
  | [] => .ok .missing
  | numbers =>
    match total? numbers with
    | some n => sumValue n
    | none => .error .tooLarge

def lengthOf : Value → Value
  | .list items => .int items.length
  | .text s => .int s.length
  | _ => .missing

def ofEntry (c : Column) (e : Entry) : Except CellFault Value :=
  let v := e.resolve c.field
  match c.aggregate with
  | none => .ok v
  | some .length => .ok (lengthOf v)
  | some .count => .ok (.int (contributions v).length)
  | some .sum => sum (contributions v)
  | some (.unknown _) => .ok .missing

/-- The cell of a group. A plain column shows the group key for the group field or the name
`key`, and the values of all rows otherwise. -/
def ofGroup (c : Column) (groupBy : Option String) (g : Group) : Except CellFault Value :=
  let values := g.rows.map (·.resolve c.field)
  match c.aggregate with
  | none =>
    .ok (if groupBy = some c.field ∨ c.field = "key" then (g.key.map .text).getD .missing
      else .seq values)
  | some .length =>
    .ok (.int (if c.field = "rows" then g.rows.length else (values.flatMap contributions).length))
  | some .count => .ok (.int (values.filter (!·.isAbsent)).length)
  | some .sum => sum (values.flatMap contributions)
  | some (.unknown _) => .ok .missing

def shown (v : Value) : Except CellFault Value :=
  match v.textFault? with
  | some fault => .error (.text fault)
  | none => .ok v

mutual

/-- The text of a cell: a dash for nothing, a link's name, a list's items after one another,
on one line. -/
def text : Value → String
  | .missing => "-"
  | .null => "-"
  | .link _ name => name
  | .list items => ", ".intercalate (itemTexts items)
  | v => String.ofList (v.toText.toList.map fun c => if c == '\n' then ' ' else c)

def itemTexts : List Value → List String
  | [] => []
  | item :: items => text item :: itemTexts items

end

end Cell

end NoteQuery

import NoteQuery.Cell

/-!
# Results as text

Lists show one path per line, under a heading for each group. Tables show aligned columns,
one line per row or group under a header and a rule.
-/

namespace NoteQuery

namespace Table

def pad (width : Nat) (s : String) : List Char := s.toList ++ List.replicate (width - s.length) ' '

def widths (header : List String) (rows : List (List String)) : List Nat :=
  rows.foldl (fun ws row => ws.zipWith (fun w cell => max w cell.length) row) (header.map (·.length))

def line (ws : List Nat) (cells : List String) : String :=
  String.ofList (Text.dropFinalBlanks (Text.joinWith [' ', ' '] (ws.zipWith pad cells)))

def rule (ws : List Nat) : String :=
  String.ofList (Text.joinWith [' ', ' '] (ws.map fun w => List.replicate w '-'))

def lines (header : List String) (rows : List (List String)) : List String :=
  let ws := widths header rows
  line ws header :: rule ws :: rows.map (line ws)

def render (header : List String) (rows : List (List String)) : String :=
  "\n".intercalate (lines header rows)

end Table

namespace Group

def heading (g : Group) : String := g.key.getD "-"

def block (g : Group) : String :=
  "\n".intercalate (("## " ++ g.heading ++ " (" ++ toString g.rows.length ++ ")") ::
    g.rows.map fun e => "- " ++ e.path)

end Group

namespace Result

def cellTexts (cells : List (Except CellFault Value)) : Except CellFault (List String) :=
  cells.mapM fun cell => cell.map Cell.text

/-- The cells of each shown row or group, without a leading column for the row itself. -/
def cells (q : Query) : Outcome → List (List (Except CellFault Value))
  | .rows entries => entries.map fun e => q.columnList.map fun c => (Cell.ofEntry c e).bind Cell.shown
  | .groups groups => groups.map fun g => q.columnList.map fun c => (Cell.ofGroup c q.groupBy g).bind Cell.shown
  | .failure _ _ => []

def rowNames : Outcome → List String
  | .rows entries => entries.map (·.path)
  | .groups groups => groups.map (·.heading)
  | .failure _ _ => []

/-- The table of a query's columns. The first column names the rows, unless the query asks
for a table without it. -/
def table (q : Query) (outcome : Outcome) : Except CellFault String := do
  let header := q.columnList.map (·.label)
  let body ← (cells q outcome).mapM cellTexts
  if q.withoutId then
    return Table.render header body
  else
    return Table.render (q.groupField?.getD "File" :: header) ((rowNames outcome).zipWith List.cons body)

def shownNote (shown total : Nat) : String :=
  if shown < total then "\n\n(" ++ toString shown ++ " of " ++ toString total ++ " shown)" else ""

def render (r : Result) : Except CellFault String :=
  let q := r.query.getD {}
  -- nothing to show needs no cells, so none of them can fail
  let finish (shown : Nat) (body : Except CellFault String) : Except CellFault String :=
    if shown = 0 then .ok "No results" else body.map (· ++ shownNote shown r.total)
  match r.outcome with
  | .failure message _ => .ok ("Error: " ++ message)
  | .rows entries =>
    finish entries.length
      (if q.isTable then table q r.outcome
      else .ok ("\n".intercalate (entries.map fun e => "- " ++ e.path)))
  | .groups groups =>
    finish groups.length
      (if q.isTable then table q r.outcome else .ok ("\n\n".intercalate (groups.map (·.block))))

end Result

end NoteQuery

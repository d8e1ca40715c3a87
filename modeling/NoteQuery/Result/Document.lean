import NoteQuery.Result
import NoteQuery.Value.Stored

/-!
# Results as JSON documents

What callers get of a result: its rows or groups, the total, and on failure the reason.
-/

namespace NoteQuery

open Value (Undocumented)

def Entry.toJson (e : Entry) : Except Undocumented Json := do
  let frontMatter ← Value.entriesToJson e.frontMatter
  return .object [("path", .text e.path), ("name", .text e.name), ("frontmatter", .object frontMatter)]

def Group.toJson (g : Group) : Except Undocumented Json := do
  let rows ← g.rows.mapM Entry.toJson
  return .object [("key", (g.key.map Json.text).getD .null), ("rows", .list rows)]

namespace Result

def entriesToJson : Outcome → Except Undocumented (List Json)
  | .rows entries => entries.mapM Entry.toJson
  | _ => .ok []

def groupsToJson : Outcome → Except Undocumented (List (String × Json))
  | .groups groups => do return [("groups", .list (← groups.mapM Group.toJson))]
  | _ => .ok []

def faultEntries : Outcome → List (String × Json)
  | .failure message needsIndex =>
    ("error", .text message) :: (if needsIndex then [("needsIndex", .bool true)] else [])
  | _ => []

def columnEntries (r : Result) : List (String × Json) :=
  (r.labels.map fun labels => ("columns", Json.list (labels.map .text))).toList

def toJson (r : Result) : Except Undocumented Json := do
  let entries ← entriesToJson r.outcome
  let groups ← groupsToJson r.outcome
  return .object ([("success", .bool r.isSuccess), ("entries", .list entries), ("totalCount", .int r.total)] ++
    groups ++ r.columnEntries ++ faultEntries r.outcome)

end Result

end NoteQuery

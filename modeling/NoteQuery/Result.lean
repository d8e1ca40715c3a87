import NoteQuery.Bucket
import NoteQuery.Condition
import NoteQuery.Scope

/-!
# Results

Running a query over a list of records. The stages run in a fixed order; the total is counted
before the limit is applied.
-/

namespace NoteQuery

/-- One shown row. The record is absent for rows that were not made from one. -/
structure Entry where
  path : String
  name : String
  frontMatter : Entries
  record : Option Record

namespace Entry

def ofRecord (r : Record) : Entry := ⟨r.path, r.name, r.frontMatter, some r⟩

def source (e : Entry) : Record := e.record.getD ⟨e.path, e.name, "", [], [], e.frontMatter, false⟩

def resolve (e : Entry) (field : String) : Value := e.source.resolve field

end Entry

/-- One shown group; its key is none for the rows without the group field. -/
structure Group where
  key : Option String
  rows : List Entry

namespace Group

def ofBucket (b : Bucket) : Group := ⟨b.key, b.records.map .ofRecord⟩

end Group

inductive Outcome
  | rows (entries : List Entry)
  | groups (groups : List Group)
  | failure (message : String) (needsIndex : Bool)

/-- The outcome of a query with its total before the limit. The query is absent when its text
could not be read. -/
structure Result where
  query : Option Query
  outcome : Outcome
  total : Nat

namespace Result

def failure (message : String) (query : Option Query) (needsIndex : Bool) : Result :=
  ⟨query, .failure message needsIndex, 0⟩

def isSuccess (r : Result) : Bool :=
  match r.outcome with
  | .failure _ _ => false
  | _ => true

def labels (r : Result) : Option (List String) :=
  if r.isSuccess then (r.query.bind (·.columns)).map fun cs => cs.map (·.label) else none

end Result

namespace Query

def candidates (q : Query) (records : List Record) : List Record :=
  q.conditions.foldl (fun rows c => rows.filter (c.matchesRecord ·))
    (Flatten.apply q.flatten (Source.select q.source records))

def applyLimit {α : Type} (q : Query) (items : List α) : List α :=
  match q.limit.bind (·.effective?) with
  | some n => items.take n
  | none => items

def buckets (q : Query) (field : String) (rows : List Record) : List Bucket :=
  let found := Bucket.ofRecords field rows
  match q.sort with
  | some order => Bucket.sort order found
  | none => found

def sortedRows (q : Query) (rows : List Record) : List Record :=
  match q.sort with
  | some order => sortRecords order rows
  | none => rows

def run (q : Query) (records : List Record) : Result :=
  let rows := q.candidates records
  match q.groupField? with
  | some field =>
    let buckets := q.buckets field rows
    ⟨some q, .groups ((q.applyLimit buckets).map .ofBucket), buckets.length⟩
  | none =>
    let rows := q.sortedRows rows
    ⟨some q, .rows ((q.applyLimit rows).map .ofRecord), rows.length⟩

/-! ## Texts that cannot be had -/

/-- The conditions are tried one after the other, each on the rows that the ones before it keep. -/
def conditionsFault? : List Condition → List Record → Option Value.TextFault
  | [], _ => none
  | c :: cs, rows => (rows.findSome? (c.fault? ·)).or (conditionsFault? cs (rows.filter (c.matchesRecord ·)))

def orderFault? (q : Query) (rows : List Record) : Option Value.TextFault := q.sort.bind fun o => rowsFault? o rows

def groupsFault? (q : Query) (field : String) (rows : List Record) : Option Value.TextFault :=
  (Bucket.recordsFault? field rows).or (q.sort.bind fun o => Bucket.sortFault? o (Bucket.ofRecords field rows))

/-- The first text that a query needs and that cannot be had. -/
def fault? (q : Query) (records : List Record) : Option Value.TextFault :=
  (conditionsFault? q.conditions (Flatten.apply q.flatten (Source.select q.source records))).or
    (match q.groupField? with
    | some field => q.groupsFault? field (q.candidates records)
    | none => q.orderFault? (q.candidates records))

def answer (q : Query) (records : List Record) : Except Value.TextFault Result :=
  match q.fault? records with
  | some fault => .error fault
  | none => .ok (q.run records)

end Query

end NoteQuery

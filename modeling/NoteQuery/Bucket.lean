import NoteQuery.Order

/-!
# Groups of records

Records are put together when the texts of their group field agree. Records without the
field share a bucket of their own, apart from every text.
-/

namespace NoteQuery

/-- The records of one group. `value` is that of its first record, by which groups sort. -/
structure Bucket where
  key : Option String
  value : Value
  records : List Record

namespace Bucket

/-- What tells groups apart: the text of the field, or none where it is missing. -/
def keyOf (v : Value) : Option String := if v.isMissing then none else some v.toText

def add (value : Value) (r : Record) : List Bucket → List Bucket
  | [] => [⟨keyOf value, value, [r]⟩]
  | b :: bs =>
    if b.key = keyOf value then { b with records := b.records ++ [r] } :: bs else b :: add value r bs

def ofRecords (field : String) (records : List Record) : List Bucket :=
  records.foldl (fun buckets r => add (r.resolve field) r buckets) []

/-- Sorts groups by their size, or else by their key, whatever field is named. -/
def sort (order : RowOrder) (buckets : List Bucket) : List Bucket :=
  match order.key with
  | .groupSize => sortBy (fun b => .int b.records.length) order.isDescending buckets
  | .field _ => sortBy (·.value) order.isDescending buckets

def recordsFault? (field : String) (records : List Record) : Option Value.TextFault :=
  records.findSome? fun r => (r.resolve field).textFault?

def sortFault? (order : RowOrder) (buckets : List Bucket) : Option Value.TextFault :=
  match order.key with
  | .groupSize => none
  | .field _ => NoteQuery.sortFault? (·.value) buckets

end Bucket

end NoteQuery

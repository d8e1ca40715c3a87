import NoteQuery.Query.Basic
import NoteQuery.Record.Field
import NoteQuery.Value.Fault

/-!
# Sorting

A stable sort by value: numbers by size, everything else by text. Items whose value is
missing go last in either direction, in their old order.
-/

namespace NoteQuery

namespace Value

/-- The order of two values: exact if both are numbers, otherwise that of their texts. -/
def order (a b : Value) : Ordering :=
  match a.number?, b.number? with
  | some m, some n => m.compare n
  | _, _ => compare a.toText b.toText

def orderFault? (a b : Value) : Option TextFault :=
  if a.isNumber && b.isNumber then none else a.textFault?.or b.textFault?

def isMissing : Value → Bool
  | .missing => true
  | _ => false

def mayPrecede (descending : Bool) (a b : Value) : Bool :=
  if descending then (a.order b).isGE else (a.order b).isLE

end Value

def sortBy {α : Type} (key : α → Value) (descending : Bool) (items : List α) : List α :=
  let (missing, defined) := items.partition fun item => (key item).isMissing
  defined.mergeSort (fun a b => Value.mayPrecede descending (key a) (key b)) ++ missing

def pairFault? : List Value → Option Value.TextFault
  | [] => none
  | v :: vs => (vs.findSome? v.orderFault?).or (pairFault? vs)

def sortFault? {α : Type} (key : α → Value) (items : List α) : Option Value.TextFault :=
  pairFault? ((items.map key).filter (!·.isMissing))

def sorted {α : Type} (key : α → Value) (descending : Bool) (items : List α) : Except Value.TextFault (List α) :=
  match sortFault? key items with
  | some fault => .error fault
  | none => .ok (sortBy key descending items)

theorem sortBy_perm {α : Type} (key : α → Value) (descending : Bool) (items : List α) :
    (sortBy key descending items).Perm items := by
  unfold sortBy
  rw [List.partition_eq_filter_filter]
  refine ((List.mergeSort_perm _ _).append_right _).trans ?_
  exact List.perm_append_comm.trans (List.filter_append_perm _ items)

/-- Sorts records by a field. Without groups there are no group sizes to sort by. -/
def sortRecords (order : RowOrder) (records : List Record) : List Record :=
  match order.key with
  | .field path => sortBy (·.resolve path) order.isDescending records
  | .groupSize => records

def rowsFault? (order : RowOrder) (records : List Record) : Option Value.TextFault :=
  match order.key with
  | .field path => sortFault? (·.resolve path) records
  | .groupSize => none

end NoteQuery

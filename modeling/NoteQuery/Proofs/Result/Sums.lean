import Mathlib
import NoteQuery.Cell
import NoteQuery.Proofs.Fallible
import NoteQuery.Proofs.Result.Grouping

/-!
# Sums of integers

A sum runs over the values that a row contributes, or all rows of a group. Integers add exactly at any
size. Only the whole sum is asked for as a float, and it is lost where floats do not reach so far.
-/

namespace NoteQuery

/-! ## Contributed values -/

def Entry.contributed (field : String) (e : Entry) : List Value := Cell.contributions (e.resolve field)

def Group.contributed (field : String) (g : Group) : List Value := g.rows.flatMap (·.contributed field)

namespace Cell

def IsSummand (v : Value) : Prop := v.asNumber? = none ∨ ∃ n, v = .int n

def integer? : Value → Option Int
  | .int n => some n
  | _ => none

instance (v : Value) : Decidable (IsSummand v) :=
  decidable_of_iff (v.asNumber?.isNone = true ∨ (integer? v).isSome = true) <| by
    unfold IsSummand
    rw [Option.isNone_iff_eq_none]
    cases v <;> simp [integer?]

def integers (values : List Value) : List Int := values.filterMap integer?

def amount (v : Value) : Int := (integer? v).getD 0

/-- The sum of the integers, missing if there are none. It is lost from half a step above the greatest
float on. -/
def integerSum (values : List Value) : Except CellFault Value :=
  if integers values = [] then .ok .missing
  else if (integers values).sum.natAbs < Number.tooLarge then .ok (.int (integers values).sum)
  else .error .tooLarge

/-! ## One sum -/

theorem foldl_add? (ns : List Int) : ∀ m : Int,
    (ns.map Number.int).foldl (fun (sum : Option Number) n => sum.bind (·.add? n)) (some (.int m)) =
      some (.int (m + ns.sum)) := by
  induction ns with
  | nil =>
    intro m
    simp
  | cons n ns ih =>
    intro m
    have hadd : (Number.int m).add? (.int n) = some (.int (m + n)) := rfl
    rw [List.map_cons, List.foldl_cons, Option.bind_some, hadd, ih, List.sum_cons, Int.add_assoc]

theorem total?_map_int (ns : List Int) : total? (ns.map .int) = some (.int ns.sum) := by
  unfold total?
  rw [foldl_add?, Int.zero_add]

theorem asNumber?_of_isSummand {v : Value} (h : IsSummand v) : v.asNumber? = (integer? v).map .int := by
  rcases h with hnone | ⟨n, rfl⟩
  · rw [hnone]
    cases v with
    | int n => cases hnone
    | _ => rfl
  · rfl

section
variable {values : List Value}

theorem filterMap_asNumber? (h : ∀ v ∈ values, IsSummand v) :
    values.filterMap (·.asNumber?) = (integers values).map .int := by
  rw [integers, List.map_filterMap]
  apply List.filterMap_congr
  intro v hv
  exact asNumber?_of_isSummand (h v hv)

theorem sum_of_isSummand (h : ∀ v ∈ values, IsSummand v) : sum values = integerSum values := by
  unfold sum integerSum
  rw [filterMap_asNumber? h]
  cases integers values with
  | nil => rfl
  | cons n ns =>
    rw [if_neg (List.cons_ne_nil n ns)]
    simp only [List.map_cons]
    rw [← List.map_cons, total?_map_int]
    rfl

theorem integerSum_of_lt (hne : integers values ≠ []) (hlt : (integers values).sum.natAbs < Number.tooLarge) :
    integerSum values = .ok (.int (integers values).sum) := by
  rw [integerSum, if_neg hne, if_pos hlt]

theorem integerSum_of_le (hle : Number.tooLarge ≤ (integers values).sum.natAbs) :
    integerSum values = .error .tooLarge := by
  have hne : integers values ≠ [] := by
    intro hnil
    rw [hnil] at hle
    exact absurd hle (by decide +kernel)
  rw [integerSum, if_neg hne, if_neg (Nat.not_lt.mpr hle)]

theorem amount_of_integerSum {v : Value} (h : integerSum values = .ok v) : amount v = (integers values).sum := by
  unfold integerSum at h
  split at h
  · rename_i hnil
    rw [← Except.ok.inj h, hnil]
    rfl
  · split at h
    · rw [← Except.ok.inj h]
      rfl
    · cases h

end

theorem sum_integers_flatMap {α : Type} (f : α → List Value) (l : List α) :
    (integers (l.flatMap f)).sum = (l.map fun a => (integers (f a)).sum).sum := by
  unfold integers
  rw [List.filterMap_flatMap, List.flatMap_def, List.sum_flatten, List.map_map]
  rfl

/-! ## Rows and groups -/

section
variable {c : Column} (hsum : c.aggregate = some .sum)
include hsum

theorem ofEntry_sum (e : Entry) : ofEntry c e = sum (e.contributed c.field) := by
  unfold ofEntry
  rw [hsum]
  rfl

theorem ofGroup_sum (g : Group) (groupBy : Option String) : ofGroup c groupBy g = sum (g.contributed c.field) := by
  unfold ofGroup Group.contributed
  rw [hsum]
  simp only [List.flatMap_map]
  rfl

theorem amount_of_ofEntry {e : Entry} (h : ∀ v ∈ e.contributed c.field, IsSummand v) {v : Value}
    (hcell : ofEntry c e = .ok v) : amount v = (integers (e.contributed c.field)).sum := by
  rw [ofEntry_sum hsum, sum_of_isSummand h] at hcell
  exact amount_of_integerSum hcell

theorem amount_of_ofGroup {g : Group} {groupBy : Option String} (h : ∀ v ∈ g.contributed c.field, IsSummand v)
    {v : Value} (hcell : ofGroup c groupBy g = .ok v) : amount v = (integers (g.contributed c.field)).sum := by
  rw [ofGroup_sum hsum, sum_of_isSummand h] at hcell
  exact amount_of_integerSum hcell

theorem sum_amount_rows {rows : List Entry} {cells : List Value}
    (h : ∀ e ∈ rows, ∀ v ∈ e.contributed c.field, IsSummand v) (hcells : rows.mapM (ofEntry c) = .ok cells) :
    (cells.map amount).sum = (integers (rows.flatMap (·.contributed c.field))).sum := by
  rw [sum_integers_flatMap, map_of_mapM hcells]
  intro e he v hv
  exact amount_of_ofEntry hsum (h e he) hv

theorem sum_amount_groups {groups : List Group} {groupBy : Option String} {cells : List Value}
    (h : ∀ g ∈ groups, ∀ v ∈ g.contributed c.field, IsSummand v) (hcells : groups.mapM (ofGroup c groupBy) = .ok cells) :
    (cells.map amount).sum = (integers ((groups.flatMap (·.rows)).flatMap (·.contributed c.field))).sum := by
  rw [List.flatMap_assoc]
  show _ = (integers (groups.flatMap (·.contributed c.field))).sum
  rw [sum_integers_flatMap, map_of_mapM hcells]
  intro g hg v hv
  exact amount_of_ofGroup hsum (h g hg) hv

end

end Cell

/-! ## A query with groups -/

namespace Query

theorem exists_groups_perm {q : Query} {field : String} (hfield : q.groupField? = some field) (records : List Record) :
    ∃ groups rows, ({ q with limit := none }.run records).outcome = .groups groups ∧
      ({ q with groupBy := none, limit := none }.run records).outcome = .rows rows ∧
      (groups.flatMap (·.rows)).Perm rows ∧ ∀ e ∈ rows, ∃ r ∈ q.candidates records, e = .ofRecord r := by
  have hbuckets := Bucket.buckets_perm { q with limit := none } field (q.candidates records)
  have hgrouped := (Bucket.complete_ofRecords field (q.candidates records)).grouped hbuckets
  have hsorted := sortedRows_perm q (q.candidates records)
  have hgroups := run_of_groupField (q := { q with limit := none }) hfield records
  refine ⟨_, (q.sortedRows (q.candidates records)).map .ofRecord, congrArg Result.outcome hgroups, rfl, ?_, ?_⟩
  · exact hgrouped.perm.trans (hsorted.map Entry.ofRecord).symm
  · intro e he
    obtain ⟨r, hr, rfl⟩ := List.mem_map.mp he
    exact ⟨r, hsorted.mem_iff.mp hr, rfl⟩

end Query

namespace Cell

/-- The cells of a sum, if everything that is summed is an integer or stands for no number. -/
structure SumsIntegers (c : Column) : Prop where
  row : ∀ e : Entry, (∀ v ∈ e.contributed c.field, IsSummand v) → ofEntry c e = integerSum (e.contributed c.field)
  group : ∀ (g : Group) (groupBy : Option String), (∀ v ∈ g.contributed c.field, IsSummand v) →
    ofGroup c groupBy g = integerSum (g.contributed c.field)
  rows_of_group : ∀ (g : Group) (groupBy : Option String) (total : Value) (cells : List Value),
    (∀ v ∈ g.contributed c.field, IsSummand v) → ofGroup c groupBy g = .ok total →
    g.rows.mapM (ofEntry c) = .ok cells → amount total = (cells.map amount).sum
  groups_of_query : ∀ (q : Query) (field : String) (records : List Record), q.groupField? = some field →
    (∀ r ∈ q.candidates records, ∀ v ∈ (Entry.ofRecord r).contributed c.field, IsSummand v) →
    ∃ groups rows, ({ q with limit := none }.run records).outcome = .groups groups ∧
      ({ q with groupBy := none, limit := none }.run records).outcome = .rows rows ∧
      ∀ totals cells, groups.mapM (ofGroup c q.groupBy) = .ok totals → rows.mapM (ofEntry c) = .ok cells →
        (totals.map amount).sum = (cells.map amount).sum

theorem sumsIntegers_of_sum {c : Column} (h : c.aggregate = some .sum) : SumsIntegers c where
  row := by
    intro e hsummands
    rw [ofEntry_sum h, sum_of_isSummand hsummands]
  group := by
    intro g groupBy hsummands
    rw [ofGroup_sum h, sum_of_isSummand hsummands]
  rows_of_group := by
    intro g groupBy total cells hsummands htotal hcells
    have hrows : ∀ e ∈ g.rows, ∀ v ∈ e.contributed c.field, IsSummand v := fun e he v hv =>
      hsummands v (List.mem_flatMap.mpr ⟨e, he, hv⟩)
    rw [amount_of_ofGroup h hsummands htotal, sum_amount_rows h hrows hcells]
    rfl
  groups_of_query := by
    intro q field records hfield hsummands
    obtain ⟨groups, rows, hgroups, hrows, hperm, hcandidates⟩ := Query.exists_groups_perm hfield records
    refine ⟨groups, rows, hgroups, hrows, ?_⟩
    intro totals cells htotals hcells
    have hrowsummands : ∀ e ∈ rows, ∀ v ∈ e.contributed c.field, IsSummand v := by
      intro e he
      obtain ⟨r, hr, rfl⟩ := hcandidates e he
      exact hsummands r hr
    -- a row of a group is a row of the query
    have hgroupsummands : ∀ g ∈ groups, ∀ v ∈ g.contributed c.field, IsSummand v := by
      intro g hg v hv
      obtain ⟨e, he, hv⟩ := List.mem_flatMap.mp hv
      have hrow := hperm.mem_iff.mp (List.mem_flatMap.mpr ⟨g, hg, he⟩)
      exact hrowsummands e hrow v hv
    have hvalues := (hperm.flatMap_right (·.contributed c.field)).filterMap integer?
    rw [sum_amount_groups h hgroupsummands htotals, sum_amount_rows h hrowsummands hcells]
    exact hvalues.sum_eq

def hoursColumn : Column := ⟨"hours", none, some .sum⟩

def hoursRecord (path state : String) (hours : Value) : Record :=
  ⟨path, path, "", [], [], [(.text "state", .text state), (.text "hours", hours)], false⟩

def hoursRecords : List Record :=
  [hoursRecord "a" "done" (.seq [.int 2, .null, .text "many", .int 3]), hoursRecord "b" "open" (.int (2 ^ 60 + 1)),
    hoursRecord "c" "done" (.int (-9))]

def hoursByState : Query := { groupBy := some "state", limit := some (.count 1) }

theorem sumsIntegers_hours : hoursColumn.aggregate = some .sum ∧
    ofEntry hoursColumn (.ofRecord (hoursRecord "b" "open" (.int (2 ^ 60 + 1)))) = .ok (.int (2 ^ 60 + 1)) ∧
    ofGroup hoursColumn (some "state") ⟨some "done", hoursRecords.map .ofRecord⟩ = .ok (.int (2 ^ 60 - 3)) ∧
    ∃ groups rows, ({ hoursByState with limit := none }.run hoursRecords).outcome = .groups groups ∧
      ({ hoursByState with groupBy := none, limit := none }.run hoursRecords).outcome = .rows rows ∧
      ∀ totals cells, groups.mapM (ofGroup hoursColumn (some "state")) = .ok totals →
        rows.mapM (ofEntry hoursColumn) = .ok cells → (totals.map amount).sum = (cells.map amount).sum := by
  have h := sumsIntegers_of_sum (c := hoursColumn) rfl
  refine ⟨rfl, ?_, ?_, ?_⟩
  · rw [h.row _ (by decide +kernel), integerSum_of_lt (by decide +kernel) (by decide +kernel)]
    rfl
  · rw [h.group _ _ (by decide +kernel), integerSum_of_lt (by decide +kernel) (by decide +kernel)]
    rfl
  · exact h.groups_of_query hoursByState "state" hoursRecords rfl (by decide +kernel)

theorem not_always_summed : ¬∀ (c : Column) (e : Entry), c.aggregate = some .sum →
    (∀ v ∈ e.contributed c.field, IsSummand v) → integers (e.contributed c.field) ≠ [] →
    ofEntry c e = .ok (.int (integers (e.contributed c.field)).sum) := by
  intro hall
  have hcell := hall hoursColumn (.ofRecord (hoursRecord "a" "done" (.int (10 ^ 309)))) rfl (by decide +kernel)
    (by decide +kernel)
  rw [ofEntry_sum rfl, sum_of_isSummand (by decide +kernel), integerSum_of_le (by decide +kernel)] at hcell
  cases hcell

end Cell

end NoteQuery

import NoteQuery.Index.Basic
import NoteQuery.Proofs.Lookup
import NoteQuery.Proofs.Text.Ascending

/-!
# Rows of an index

An index whose rows are keyed holds at most one record under each vault and path. Writing and
deleting keep the rows keyed, and what they change is said by one equation each. The records of a
vault are listed by strictly increasing path, so that the list is known from its members.
-/

namespace NoteQuery

namespace Index

/-! ## The record at a path -/

def rowAt (rows : List (VaultKey × Record)) (key : VaultKey) (path : String) : Option Record :=
  (rows.find? (isAt key path)).map (·.2)

def Keyed (rows : List (VaultKey × Record)) : Prop :=
  rows.Pairwise fun a b => ¬(a.1 = b.1 ∧ a.2.path = b.2.path)

theorem isAt_iff {key : VaultKey} {path : String} {row : VaultKey × Record} :
    isAt key path row = true ↔ row.1 = key ∧ row.2.path = path := by
  simp [isAt]

theorem rowAt_cons (row : VaultKey × Record) (rows : List (VaultKey × Record)) (key : VaultKey) (path : String) :
    rowAt (row :: rows) key path = if row.1 = key ∧ row.2.path = path then some row.2 else rowAt rows key path := by
  unfold rowAt
  by_cases h : row.1 = key ∧ row.2.path = path
  · rw [List.find?_cons_of_pos (isAt_iff.mpr h), if_pos h]
    rfl
  · rw [List.find?_cons_of_neg (fun hat => h (isAt_iff.mp hat)), if_neg h]

theorem mem_of_rowAt {rows : List (VaultKey × Record)} {key : VaultKey} {path : String} {r : Record}
    (h : rowAt rows key path = some r) : (key, r) ∈ rows ∧ r.path = path := by
  obtain ⟨row, hrow, rfl⟩ := Option.map_eq_some_iff.mp h
  obtain ⟨hkey, hpath⟩ := isAt_iff.mp (List.find?_some hrow)
  have hmem := List.mem_of_find?_eq_some hrow
  rw [show row = (key, row.2) from Prod.ext hkey rfl] at hmem
  exact ⟨hmem, hpath⟩

theorem rowAt_of_mem : ∀ {rows : List (VaultKey × Record)}, Keyed rows → ∀ {row : VaultKey × Record}, row ∈ rows →
    rowAt rows row.1 row.2.path = some row.2
  | other :: rows, hkeyed, row, hmem => by
    obtain ⟨hhead, htail⟩ := List.pairwise_cons.mp hkeyed
    rw [rowAt_cons]
    rcases List.mem_cons.mp hmem with rfl | hmem
    · simp
    · rw [if_neg (hhead row hmem), rowAt_of_mem htail hmem]

theorem rowAt_eq_some_iff {rows : List (VaultKey × Record)} (h : Keyed rows) {key : VaultKey} {path : String}
    {r : Record} : rowAt rows key path = some r ↔ (key, r) ∈ rows ∧ r.path = path := by
  constructor
  · exact mem_of_rowAt
  · rintro ⟨hmem, rfl⟩
    exact rowAt_of_mem h hmem

/-! ## Changes of rows -/

theorem rowAt_filter (keep : VaultKey → String → Bool) : ∀ (rows : List (VaultKey × Record)) (key : VaultKey)
    (path : String), rowAt (rows.filter fun row => keep row.1 row.2.path) key path =
      if keep key path = true then rowAt rows key path else none
  | [], key, path => by simp [rowAt]
  | row :: rows, key, path => by
    have ih := rowAt_filter keep rows key path
    rw [List.filter_cons]
    by_cases hkeep : keep row.1 row.2.path = true
    · rw [if_pos hkeep, rowAt_cons, rowAt_cons, ih]
      by_cases hat : row.1 = key ∧ row.2.path = path
      · rw [if_pos hat, if_pos hat, ← hat.1, ← hat.2, if_pos hkeep]
      · rw [if_neg hat, if_neg hat]
    · rw [if_neg hkeep, ih, rowAt_cons]
      by_cases hat : row.1 = key ∧ row.2.path = path
      · rw [hat.1, hat.2] at hkeep
        rw [if_neg hkeep, if_neg hkeep]
      · rw [if_neg hat]

theorem keyed_filter {rows : List (VaultKey × Record)} (h : Keyed rows) (p : VaultKey × Record → Bool) :
    Keyed (rows.filter p) :=
  List.Pairwise.filter p h

theorem rowAt_append (rows : List (VaultKey × Record)) (row : VaultKey × Record) (key : VaultKey) (path : String) :
    rowAt (rows ++ [row]) key path =
      (rowAt rows key path).or (if row.1 = key ∧ row.2.path = path then some row.2 else none) := by
  induction rows with
  | nil => rw [List.nil_append, rowAt_cons]; rfl
  | cons other rows ih =>
    rw [List.cons_append, rowAt_cons, rowAt_cons, ih]
    split <;> rfl

theorem rowAt_put (key : VaultKey) (r : Record) (rows : List (VaultKey × Record)) (other : VaultKey) (path : String) :
    rowAt (put key r rows) other path = if key = other ∧ r.path = path then some r else rowAt rows other path := by
  have hfilter := rowAt_filter (fun k p => !(k == key && p == r.path)) rows other path
  show rowAt (rows.filter (fun row => !(row.1 == key && row.2.path == r.path)) ++ [(key, r)]) other path = _
  rw [rowAt_append, hfilter]
  by_cases h : key = other ∧ r.path = path
  · simp [h.1, h.2]
  · have hkeep : (!(other == key && path == r.path)) = true := by
      simp only [Bool.not_eq_true', Bool.and_eq_false_iff, beq_eq_false_iff_ne]
      by_cases hkey : other = key
      · exact Or.inr fun hpath => h ⟨hkey.symm, hpath.symm⟩
      · exact Or.inl hkey
    rw [if_pos hkeep, if_neg h, if_neg h, Option.or_none]

theorem keyed_put {rows : List (VaultKey × Record)} (h : Keyed rows) (key : VaultKey) (r : Record) :
    Keyed (put key r rows) := by
  refine List.pairwise_append.mpr ⟨keyed_filter h _, List.pairwise_singleton _ _, fun row hrow other hother => ?_⟩
  obtain rfl := List.mem_singleton.mp hother
  have hnot := (List.mem_filter.mp hrow).2
  rw [Bool.not_eq_true'] at hnot
  exact fun hat => Bool.false_ne_true (hnot.symm.trans (isAt_iff.mpr hat))

/-! ## Lists of records -/

theorem mem_recordsOf {x : Index} {key : VaultKey} {r : Record} : r ∈ x.recordsOf key ↔ (key, r) ∈ x.rows := by
  rw [recordsOf, (List.mergeSort_perm _ _).mem_iff, List.mem_map]
  constructor
  · rintro ⟨row, hrow, rfl⟩
    obtain ⟨hmem, hkey⟩ := List.mem_filter.mp hrow
    rwa [← eq_of_beq hkey]
  · intro hmem
    exact ⟨(key, r), List.mem_filter.mpr ⟨hmem, beq_self_eq_true key⟩, rfl⟩

theorem recordsOf_ascending {x : Index} (h : Keyed x.rows) (key : VaultKey) :
    (x.recordsOf key).Pairwise fun a b => a.path < b.path := by
  have hrows : (x.rows.filter (·.1 == key)).Pairwise fun a b => a.2.path ≠ b.2.path := by
    refine (keyed_filter h _).imp_of_mem fun ha hb hab hpath => hab ⟨?_, hpath⟩
    rw [eq_of_beq (List.mem_filter.mp ha).2, eq_of_beq (List.mem_filter.mp hb).2]
  exact ascending_mergeSort (List.pairwise_map.mpr hrows)

theorem mem_recordsOf_iff {x : Index} (h : Keyed x.rows) {key : VaultKey} {r : Record} :
    r ∈ x.recordsOf key ↔ rowAt x.rows key r.path = some r := by
  rw [mem_recordsOf, rowAt_eq_some_iff h, and_iff_left rfl]

theorem find?_recordsOf {x : Index} (h : Keyed x.rows) (key : VaultKey) (path : String) :
    (x.recordsOf key).find? (·.path == path) = rowAt x.rows key path := by
  cases hfind : (x.recordsOf key).find? (·.path == path) with
  | some r =>
    have hmem := mem_recordsOf.mp (List.mem_of_find?_eq_some hfind)
    have hpath := List.find?_some hfind
    rw [beq_iff_eq] at hpath
    exact ((rowAt_eq_some_iff h).mpr ⟨hmem, hpath⟩).symm
  | none =>
    have hnone := List.find?_eq_none.mp hfind
    refine (Option.eq_none_iff_forall_ne_some.mpr fun r hr => ?_).symm
    obtain ⟨hmem, hpath⟩ := mem_of_rowAt hr
    exact hnone r (mem_recordsOf.mpr hmem) (beq_iff_eq.mpr hpath)

theorem recordsOf_congr {x y : Index} (hx : Keyed x.rows) (hy : Keyed y.rows) {key : VaultKey}
    (h : ∀ path, rowAt x.rows key path = rowAt y.rows key path) : x.recordsOf key = y.recordsOf key := by
  refine eq_of_ascending (recordsOf_ascending hx key) (recordsOf_ascending hy key) fun r => ?_
  rw [mem_recordsOf_iff hx, mem_recordsOf_iff hy, h]

end Index

end NoteQuery

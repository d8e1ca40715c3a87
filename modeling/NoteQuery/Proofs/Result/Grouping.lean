import Mathlib.Data.List.Nodup
import NoteQuery.Proofs.Result.Answer

/-!
# Groups of rows

The groups of a query hold the rows that the query has without them, each in the group of its key.
One record is put into buckets by one step, which keeps the buckets in the order of their first records
and complete; a sort only moves them, and a limit takes the first ones.
-/

namespace NoteQuery

theorem flatMap_filter_perm {α κ : Type} [DecidableEq κ] (key : α → κ) : ∀ {keys : List κ} {l : List α},
    keys.Nodup → (∀ a ∈ l, key a ∈ keys) → (keys.flatMap fun k => l.filter (key · = k)).Perm l
  | [], l, _, hall => by
    cases l with
    | nil => exact List.Perm.nil
    | cons a l => exact absurd (hall a List.mem_cons_self) List.not_mem_nil
  | k :: keys, l, hkeys, hall => by
    obtain ⟨hk, hkeys⟩ := List.nodup_cons.mp hkeys
    have hothers : ∀ a ∈ l.filter (fun a => !decide (key a = k)), key a ∈ keys := by
      intro a ha
      obtain ⟨hmem, hne⟩ := List.mem_filter.mp ha
      exact (List.mem_cons.mp (hall a hmem)).resolve_left (by simpa using hne)
    -- the first key takes its elements out, which are none of those of the other keys
    have hparts : (keys.flatMap fun k' => l.filter (key · = k')) =
        keys.flatMap fun k' => (l.filter fun a => !decide (key a = k)).filter (key · = k') := by
      refine List.flatMap_congr fun k' hk' => ?_
      rw [List.filter_filter]
      refine List.filter_congr fun a _ => ?_
      by_cases ha : key a = k'
      · have hne : k' ≠ k := fun heq => hk (heq ▸ hk')
        simp [ha, hne]
      · simp [ha]
    rw [List.flatMap_cons, hparts]
    exact ((flatMap_filter_perm key hkeys hothers).append_left _).trans (List.filter_append_perm (key · = k) l)

namespace Bucket

/-- Buckets in the order in which their keys come up, each with all the records of its key. -/
structure Complete (field : String) (records : List Record) (buckets : List Bucket) : Prop where
  keys : buckets.map (·.key) = (records.map fun r => keyOf (r.resolve field)).eraseDups
  distinct : (buckets.map (·.key)).Nodup
  records : ∀ b ∈ buckets, b.records = records.filter fun r => keyOf (r.resolve field) = b.key

/-! ## One record -/

theorem keys_add (value : Value) (r : Record) : ∀ buckets : List Bucket,
    (add value r buckets).map (·.key) =
      if keyOf value ∈ buckets.map (·.key) then buckets.map (·.key) else buckets.map (·.key) ++ [keyOf value]
  | [] => by simp [add]
  | b :: buckets => by
    have ih := keys_add value r buckets
    rw [add]
    by_cases hb : b.key = keyOf value
    · simp [hb]
    · rw [if_neg hb, List.map_cons, ih]
      by_cases hmem : keyOf value ∈ buckets.map (·.key)
      · simp [hmem]
      · simp [hmem, Ne.symm hb]

theorem records_add {field : String} {r : Record} {records : List Record} : ∀ {buckets : List Bucket},
    (buckets.map (·.key)).Nodup →
    (∀ b ∈ buckets, b.records = records.filter fun r => keyOf (r.resolve field) = b.key) →
    (keyOf (r.resolve field) ∉ buckets.map (·.key) →
      ∀ s ∈ records, keyOf (s.resolve field) ≠ keyOf (r.resolve field)) →
    ∀ b ∈ add (r.resolve field) r buckets,
      b.records = (records ++ [r]).filter fun r => keyOf (r.resolve field) = b.key
  | [], _, _, hnew, b, hb => by
    obtain rfl := List.mem_singleton.mp hb
    -- the key is new, so no earlier record has it
    have hnone : records.filter (fun s => keyOf (s.resolve field) = keyOf (r.resolve field)) = [] :=
      List.filter_eq_nil_iff.mpr fun s hs => by simpa using hnew List.not_mem_nil s hs
    simp [List.filter_append, hnone]
  | first :: buckets, hkeys, hall, hnew, b, hb => by
    obtain ⟨hfirst, hkeys⟩ := List.nodup_cons.mp hkeys
    obtain ⟨hhead, htail⟩ := List.forall_mem_cons.mp hall
    rw [add] at hb
    by_cases hkey : first.key = keyOf (r.resolve field)
    · rw [if_pos hkey] at hb
      rcases List.mem_cons.mp hb with rfl | hb
      · simp [List.filter_append, hhead, hkey]
      · -- no other bucket has the key of this one
        have hne : keyOf (r.resolve field) ≠ b.key := by
          rw [← hkey]
          exact fun heq => hfirst (List.mem_map.mpr ⟨b, hb, heq.symm⟩)
        simp [List.filter_append, htail b hb, hne]
    · rw [if_neg hkey] at hb
      rcases List.mem_cons.mp hb with rfl | hb
      · simp [List.filter_append, hhead, Ne.symm hkey]
      · refine records_add hkeys htail (fun hnot => hnew ?_) b hb
        rw [List.map_cons, List.mem_cons, not_or]
        exact ⟨Ne.symm hkey, hnot⟩

theorem Complete.add {field : String} {records : List Record} {buckets : List Bucket}
    (h : Complete field records buckets) (r : Record) :
    Complete field (records ++ [r]) (Bucket.add (r.resolve field) r buckets) where
  keys := by
    rw [keys_add, h.keys, List.map_append, List.eraseDups_append]
    generalize records.map (fun r => keyOf (r.resolve field)) = keys
    by_cases hmem : keyOf (r.resolve field) ∈ keys
    · simp [List.mem_eraseDups, List.removeAll, hmem]
    · simp [List.mem_eraseDups, List.removeAll, hmem, List.eraseDups_cons]
  distinct := by
    rw [keys_add]
    by_cases hmem : keyOf (r.resolve field) ∈ buckets.map (·.key)
    · rw [if_pos hmem]
      exact h.distinct
    · rw [if_neg hmem, ← List.concat_eq_append]
      exact h.distinct.concat hmem
  records := by
    refine records_add h.distinct h.records fun hnew s hs heq => hnew ?_
    rw [h.keys, List.mem_eraseDups, ← heq]
    exact List.mem_map_of_mem (f := fun r => keyOf (r.resolve field)) hs

/-! ## All records -/

theorem complete_ofRecords (field : String) (records : List Record) :
    Complete field records (ofRecords field records) := by
  have hstep : ∀ (more done : List Record) (buckets : List Bucket), Complete field done buckets →
      Complete field (done ++ more) (more.foldl (fun buckets r => Bucket.add (r.resolve field) r buckets) buckets) := by
    intro more
    induction more with
    | nil =>
      intro done buckets h
      rwa [List.append_nil]
    | cons r more ih =>
      intro done buckets h
      have hmore := ih (done ++ [r]) _ (h.add r)
      rwa [List.append_assoc] at hmore
  refine hstep records [] [] ⟨rfl, List.nodup_nil, ?_⟩
  intro b hb
  cases hb

theorem sort_perm (order : RowOrder) (buckets : List Bucket) : (sort order buckets).Perm buckets := by
  rw [sort]
  cases order.key with
  | groupSize => exact sortBy_perm _ _ _
  | field path => exact sortBy_perm _ _ _

theorem buckets_perm (q : Query) (field : String) (records : List Record) :
    (q.buckets field records).Perm (ofRecords field records) := by
  rw [Query.buckets]
  cases q.sort with
  | none => exact List.Perm.refl _
  | some order => exact sort_perm order _

end Bucket

/-! ## Groups -/

def Outcome.entries : Outcome → List Entry
  | .rows entries => entries
  | _ => []

/-- How rows are divided into groups by a field: by its text, and apart from that for the rows without
the field. -/
structure Grouped (field : String) (rows : List Entry) (groups : List Group) : Prop where
  distinct : groups.Pairwise fun g h => g.key ≠ h.key
  nonempty : ∀ g ∈ groups, g.rows ≠ []
  missing : ∀ g ∈ groups, g.key = none → g.rows = rows.filter fun e => (e.resolve field).isMissing
  text : ∀ g ∈ groups, ∀ s, g.key = some s →
    g.rows = rows.filter fun e => !(e.resolve field).isMissing && (e.resolve field).toText == s
  perm : (groups.flatMap (·.rows)).Perm rows

namespace Bucket

theorem keyOf_eq_none_iff {v : Value} : keyOf v = none ↔ v.isMissing = true := by
  unfold keyOf
  split <;> simp_all

theorem keyOf_eq_some_iff {v : Value} {s : String} :
    keyOf v = some s ↔ v.isMissing = false ∧ v.toText = s := by
  unfold keyOf
  split <;> simp_all

section
variable {field : String} {records : List Record} {buckets : List Bucket}
variable (h : Complete field records buckets)
include h

theorem Complete.mem_keys {k : Option String} :
    k ∈ buckets.map (·.key) ↔ ∃ r ∈ records, keyOf (r.resolve field) = k := by
  rw [h.keys, List.mem_eraseDups, List.mem_map]

theorem Complete.rows_ofBucket {b : Bucket} (hb : b ∈ buckets) :
    (Group.ofBucket b).rows = (records.map Entry.ofRecord).filter fun e => keyOf (e.resolve field) = b.key := by
  rw [List.filter_map, Group.ofBucket, h.records b hb]
  rfl

theorem Complete.grouped {others : List Bucket} (hperm : others.Perm buckets) :
    Grouped field (records.map Entry.ofRecord) (others.map Group.ofBucket) where
  distinct := by
    have hkeys : (others.map (·.key)).Nodup := (hperm.map (·.key)).nodup_iff.mpr h.distinct
    exact List.pairwise_map.mpr (List.pairwise_map.mp hkeys)
  nonempty := by
    intro g hg
    obtain ⟨b, hb, rfl⟩ := List.mem_map.mp hg
    have hb := hperm.mem_iff.mp hb
    obtain ⟨r, hr, hkey⟩ := h.mem_keys.mp (List.mem_map_of_mem (f := (·.key)) hb)
    rw [h.rows_ofBucket hb]
    exact List.ne_nil_of_mem (List.mem_filter.mpr ⟨List.mem_map_of_mem hr, decide_eq_true hkey⟩)
  missing := by
    intro g hg hkey
    obtain ⟨b, hb, rfl⟩ := List.mem_map.mp hg
    rw [h.rows_ofBucket (hperm.mem_iff.mp hb), show b.key = none from hkey]
    refine List.filter_congr fun e _ => ?_
    rw [Bool.eq_iff_iff, decide_eq_true_iff, keyOf_eq_none_iff]
  text := by
    intro g hg s hkey
    obtain ⟨b, hb, rfl⟩ := List.mem_map.mp hg
    rw [h.rows_ofBucket (hperm.mem_iff.mp hb), show b.key = some s from hkey]
    refine List.filter_congr fun e _ => ?_
    rw [Bool.eq_iff_iff, decide_eq_true_iff, keyOf_eq_some_iff, Bool.and_eq_true, Bool.not_eq_true', beq_iff_eq]
  perm := by
    -- group by group the rows are those of one key, and every row has the key of a group
    have hrows : (buckets.map Group.ofBucket).flatMap (·.rows) = (buckets.map (·.key)).flatMap fun k =>
        (records.map Entry.ofRecord).filter fun e => keyOf (e.resolve field) = k := by
      rw [List.flatMap_map, List.flatMap_map]
      exact List.flatMap_congr fun b hb => h.rows_ofBucket hb
    have hall : ∀ e ∈ records.map Entry.ofRecord, keyOf (e.resolve field) ∈ buckets.map (·.key) := by
      intro e he
      obtain ⟨r, hr, rfl⟩ := List.mem_map.mp he
      exact h.mem_keys.mpr ⟨r, hr, rfl⟩
    refine ((hperm.map Group.ofBucket).flatMap_right _).trans ?_
    rw [hrows]
    exact flatMap_filter_perm (fun e : Entry => keyOf (e.resolve field)) h.distinct hall

end

end Bucket

/-! ## A query with groups -/

namespace Query

theorem run_of_groupField {q : Query} {field : String} (h : q.groupField? = some field) (records : List Record) :
    q.run records = ⟨some q, .groups ((q.applyLimit (q.buckets field (q.candidates records))).map .ofBucket),
      (q.buckets field (q.candidates records)).length⟩ := by
  rw [run, h]

theorem sortedRows_perm (q : Query) (records : List Record) : (q.sortedRows records).Perm records := by
  unfold sortedRows
  cases q.sort with
  | none => exact List.Perm.refl _
  | some order =>
    show (sortRecords order records).Perm records
    unfold sortRecords
    cases order.key with
    | groupSize => exact List.Perm.refl _
    | field path => exact sortBy_perm _ _ _

/-- A query with groups divides the rows that it has without groups, order and limit. -/
theorem run_groups {q : Query} {field : String} (hfield : q.groupField? = some field) (records : List Record) :
    ∃ rows groups,
      ({ q with groupBy := none, sort := none, limit := none }.run records).outcome = .rows rows ∧
      ({ q with limit := none }.run records).outcome = .groups groups ∧
      ({ q with limit := none }.run records).outcome.entries = [] ∧
      Grouped field rows groups ∧
      (q.sort = none → groups.map (·.key) =
        (rows.map fun e => Bucket.keyOf (e.resolve field)).eraseDups) ∧
      ({ q with limit := none }.run records).total =
        (rows.map fun e => Bucket.keyOf (e.resolve field)).eraseDups.length ∧
      ∀ l : Limit, 1 ≤ l.toInt →
        ({ q with limit := some l }.run records).outcome = .groups (groups.take l.toInt.toNat) ∧
        ({ q with limit := some l }.run records).outcome.entries = [] ∧
        ({ q with limit := some l }.run records).total = ({ q with limit := none }.run records).total := by
  have hcomplete := Bucket.complete_ofRecords field (q.candidates records)
  have hperm := Bucket.buckets_perm q field (q.candidates records)
  have hkeys : ((q.candidates records).map Entry.ofRecord).map (fun e => Bucket.keyOf (e.resolve field)) =
      (q.candidates records).map fun r => Bucket.keyOf (r.resolve field) := List.map_map
  have hnone := run_of_groupField (q := { q with limit := none }) hfield records
  refine ⟨(q.candidates records).map .ofRecord, (q.buckets field (q.candidates records)).map .ofBucket,
    rfl, ?_, ?_, hcomplete.grouped hperm, fun hsort => ?_, ?_, fun l hl => ?_⟩
  · rw [hnone]
    rfl
  · rw [hnone]
    rfl
  · rw [hkeys, ← hcomplete.keys, List.map_map, buckets, hsort]
    rfl
  · rw [hkeys, ← hcomplete.keys, List.length_map, ← hperm.length_eq, hnone]
    rfl
  -- a limit cuts the list of groups and leaves its length to the total
  · have heffective : l.effective? = some l.toInt.toNat := if_pos (by omega)
    have hlimit : ∀ bs : List Bucket, { q with limit := some l }.applyLimit bs = bs.take l.toInt.toNat := by
      intro bs
      rw [applyLimit, Option.bind_some, heffective]
    rw [run_of_groupField (q := { q with limit := some l }) hfield records, hlimit, hnone, List.map_take]
    exact ⟨rfl, rfl, rfl⟩

theorem answer_groups {q : Query} {field : String} (hfield : q.groupField? = some field) (records : List Record) :
    ((∃ grouped, { q with limit := none }.answer records = .ok grouped) ↔ ∃ plain rows,
      { q with groupBy := none, sort := none, limit := none }.answer records = .ok plain ∧
      plain.outcome = .rows rows ∧ ∀ e ∈ rows, (e.resolve field).textFault? = none) ∧
    ∀ grouped, { q with limit := none }.answer records = .ok grouped → ∃ plain rows groups,
      { q with groupBy := none, sort := none, limit := none }.answer records = .ok plain ∧
      plain.outcome = .rows rows ∧ grouped.outcome = .groups groups ∧ grouped.outcome.entries = [] ∧
      Grouped field rows groups ∧
      (q.sort = none → groups.map (·.key) =
        (rows.map fun e => Bucket.keyOf (e.resolve field)).eraseDups) ∧
      grouped.total = (rows.map fun e => Bucket.keyOf (e.resolve field)).eraseDups.length ∧
      ∀ l : Limit, 1 ≤ l.toInt → ∃ shown, { q with limit := some l }.answer records = .ok shown ∧
        shown.outcome = .groups (groups.take l.toInt.toNat) ∧ shown.outcome.entries = [] ∧
        shown.total = grouped.total := by
  have hfault : { q with limit := none }.fault? records = none ↔ _ := fault?_of_groupField hfield
  have hplain := fault?_rows q records
  obtain ⟨rows, groups, hrows, hgroups, hentries, hdivided, hkeys, htotal, hlimit⟩ := run_groups hfield records
  constructor
  · constructor
    · rintro ⟨grouped, hgrouped⟩
      obtain ⟨hconditions, htexts⟩ := hfault.mp (answer_eq_ok.mp hgrouped).1
      refine ⟨_, _, answer_eq_ok.mpr ⟨hplain.trans hconditions, rfl⟩, rfl, fun e he => ?_⟩
      obtain ⟨r, hr, rfl⟩ := List.mem_map.mp he
      exact htexts r hr
    · rintro ⟨plain, rows, hanswer, hrows, htexts⟩
      obtain ⟨hconditions, rfl⟩ := answer_eq_ok.mp hanswer
      obtain rfl := Outcome.rows.inj hrows
      refine ⟨_, answer_eq_ok.mpr ⟨hfault.mpr ⟨hplain.symm.trans hconditions, fun r hr => ?_⟩, rfl⟩⟩
      exact htexts (Entry.ofRecord r) (List.mem_map_of_mem hr)
  · intro grouped hgrouped
    obtain ⟨hnone, rfl⟩ := answer_eq_ok.mp hgrouped
    refine ⟨_, rows, groups, answer_eq_ok.mpr ⟨hplain.trans (hfault.mp hnone).1, rfl⟩, hrows, hgroups, hentries,
      hdivided, hkeys, htotal, fun l hl => ?_⟩
    -- a limit takes none of the texts away that the groups need
    exact ⟨_, answer_eq_ok.mpr ⟨hnone, rfl⟩, hlimit l hl⟩

def stateRecord (path : String) (state : Option Value) : Record :=
  ⟨path, path, "", [], [], (state.map fun v => (Value.text "state", v)).toList, false⟩

/-- A state that is null has the text of the word, a missing one that of no word. -/
def stateRecords : List Record :=
  [stateRecord "a" (some (.text "undefined")), stateRecord "b" none, stateRecord "c" (some (.text "null")),
    stateRecord "d" (some .null), stateRecord "e" none]

def byState : Query := { groupBy := some "state", limit := some (.count 2) }

theorem answer_groups_byState : byState.groupField? = some "state" ∧ ∃ plain rows grouped groups shown,
    { byState with groupBy := none, sort := none, limit := none }.answer stateRecords = .ok plain ∧
    plain.outcome = .rows rows ∧ { byState with limit := none }.answer stateRecords = .ok grouped ∧
    grouped.outcome = .groups groups ∧ Grouped "state" rows groups ∧
    groups.map (·.key) = [some "undefined", none, some "null"] ∧ byState.answer stateRecords = .ok shown ∧
    shown.outcome = .groups (groups.take 2) ∧ shown.total = 3 := by
  obtain ⟨hanswers, hgroups⟩ := answer_groups (q := byState) rfl stateRecords
  obtain ⟨grouped, hgrouped⟩ := hanswers.mpr
    ⟨_, _, answer_eq_ok.mpr ⟨rfl, rfl⟩, rfl, by decide⟩
  obtain ⟨plain, rows, groups, hplain, hrows, hsame, -, hdivided, hkeys, htotal, hlimit⟩ := hgroups grouped hgrouped
  obtain ⟨shown, hshown, htaken, -, hcount⟩ := hlimit (.count 2) (by decide)
  have hall : rows = stateRecords.map .ofRecord := by
    rw [← (answer_eq_ok.mp hplain).2] at hrows
    exact Outcome.rows.inj hrows.symm
  refine ⟨rfl, plain, rows, grouped, groups, shown, hplain, hrows, hgrouped, hsame, hdivided, ?_, hshown, htaken, ?_⟩
  · rw [hkeys rfl, hall]
    decide
  · rw [hcount, htotal, hall]
    decide

theorem not_always_grouped : ¬ ∀ (q : Query) (field : String) (records : List Record), q.groupField? = some field →
    ∃ grouped groups, { q with limit := none }.answer records = .ok grouped ∧ grouped.outcome = .groups groups := by
  intro h
  obtain ⟨n, hn⟩ := exists_textFault
  obtain ⟨grouped, -, hgrouped, -⟩ := h { groupBy := some "m" } "m" [recordWith "m" (mapOf n)] rfl
  have htexts := ((fault?_of_groupField rfl).mp (answer_eq_ok.mp hgrouped).1).2
  have hnone : (mapOf n).textFault? = none := htexts _ (List.mem_singleton_self _)
  rw [hn] at hnone
  cases hnone

end Query

end NoteQuery

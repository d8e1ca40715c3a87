import NoteQuery.Proofs.Result.GroupOrder
import NoteQuery.Proofs.Value.Coercion

/-!
# From a group to its rows

The key of a group is the text of a value, and values of most kinds equal their text. So the rows of a group
are found again by a condition on its field.
-/

namespace NoteQuery

namespace Value

/-- Values that equal their text: all but lists, sets, NaN and integers that can be no floats. -/
def isKeyable : Value → Bool
  | .text _ | .bool _ | .date _ | .dateTime _ | .bytes _ | .link _ _ | .map _ => true
  | .float x => !Number.isNaN x
  | .int n => n.natAbs ≤ 2 ^ 53
  | _ => false

theorem equals_toText_of_number {v : Value} (h : v.isOrdinaryNumber = true)
    (hexact : ∀ n, v = .int n → Number.IsFloat n) : v.equals (.text v.toText) = true := by
  have hlist : ∀ t items, v ≠ @list t items := by
    intro t items heq
    rw [heq] at h
    cases h
  obtain ⟨m, p, hm, -, hp⟩ := exists_place? h
  have hnumber : v.isNumber = true := by rw [isNumber, hm, Option.isSome_some]
  rw [equals_of_not_list hlist, scalarEquals_iff (by rw [hnumber, Bool.true_or])]
  refine ⟨p, ?_, ?_⟩
  · rw [loosePlace?_of_isOrdinaryNumber h, hp]
  · rw [loosePlace?_toText h hexact, hp]

theorem equals_toText {v : Value} (h : v.isKeyable = true) : v.equals (.text v.toText) = true := by
  cases v with
  | text s => simp [equals, scalarEquals, toText]
  | bool b => cases b <;> decide +kernel
  | int n =>
    apply equals_toText_of_number rfl
    intro m hm
    obtain rfl := Value.int.inj hm
    exact Number.isFloat_of_le (of_decide_eq_true h)
  | float x =>
    apply equals_toText_of_number (v := .float x) h
    intro n hn
    cases hn
  | link path name => simp [equals, scalarEquals, isNumber, number?, toText]
  | date d => simp [equals, scalarEquals, isNumber, number?, toText]
  | dateTime t => simp [equals, scalarEquals, isNumber, number?, toText]
  | bytes bs => simp [equals, scalarEquals, isNumber, number?, toText]
  | map entries => simp [equals, scalarEquals, isNumber, number?, toText]
  | _ => cases h

theorem holds_toText {v : Value} (h : v.isKeyable = true) : Operator.equal.holds v (.text v.toText) = true := by
  have hpresent : v.isAbsent = false := by cases v <;> simp_all [isKeyable, isAbsent]
  rw [Operator.holds_of_present hpresent]
  exact equals_toText h

theorem test_toText {v : Value} (h : v.isKeyable = true) (htext : v.textFault? = none) :
    Operator.equal.test v (.text v.toText) = .ok true :=
  Operator.test_eq_ok.mpr ⟨Operator.equal.fault?_eq_none htext rfl, holds_toText h⟩

theorem keyOf_of_isKeyable {v : Value} (h : v.isKeyable = true) : Bucket.keyOf v = some v.toText := by
  apply Bucket.keyOf_eq_some_iff.mpr
  cases v <;> simp_all [isKeyable, isMissing]

end Value

namespace Query

/-- The query for the rows of the group with a key. -/
def drillDown (q : Query) (field key : String) : Query :=
  { q with groupBy := none, sort := none, limit := none, conditions := q.conditions ++ [⟨field, .equal, .text key⟩] }

theorem run_drillDown (q : Query) (field key : String) (records : List Record) :
    ((q.drillDown field key).run records).outcome =
      .rows (((q.candidates records).filter (Condition.matchesRecord ⟨field, .equal, .text key⟩ ·)).map .ofRecord) := by
  have hrows : (q.drillDown field key).candidates records =
      (q.candidates records).filter (Condition.matchesRecord ⟨field, .equal, .text key⟩ ·) := by
    unfold candidates drillDown
    simp [List.foldl_append]
  rw [← hrows]
  rfl

theorem mem_run_drillDown {q : Query} {field : String} (hfield : q.groupField? = some field) (records : List Record) :
    ∃ groups, (q.run records).outcome = .groups groups ∧
      ∀ g ∈ groups, ∀ e ∈ g.rows, (e.resolve field).isKeyable = true →
        ∃ key rows, g.key = some key ∧ ((q.drillDown field key).run records).outcome = .rows rows ∧ e ∈ rows := by
  have hcomplete := Bucket.complete_ofRecords field (q.candidates records)
  refine ⟨_, congrArg Result.outcome (run_of_groupField hfield records), ?_⟩
  intro g hg e he hkeyable
  obtain ⟨b, hb, rfl⟩ := List.mem_map.mp hg
  have hbucket : b ∈ Bucket.ofRecords field (q.candidates records) :=
    (Bucket.buckets_perm q field _).mem_iff.mp ((applyLimit_sublist q _).subset hb)
  rw [hcomplete.rows_ofBucket hbucket] at he
  obtain ⟨hmem, hkey⟩ := List.mem_filter.mp he
  obtain ⟨r, hr, rfl⟩ := List.mem_map.mp hmem
  have hkey := of_decide_eq_true hkey
  rw [Value.keyOf_of_isKeyable hkeyable] at hkey
  refine ⟨_, _, hkey.symm, run_drillDown q field _ records, ?_⟩
  apply List.mem_map_of_mem
  exact List.mem_filter.mpr ⟨hr, Value.holds_toText hkeyable⟩

theorem conditionsFault?_concat {c : Condition} {conditions : List Condition} {rows : List Record} :
    conditionsFault? (conditions ++ [c]) rows = none ↔ conditionsFault? conditions rows = none ∧
      ∀ r ∈ conditions.foldl (fun rows c => rows.filter (c.matchesRecord ·)) rows, c.fault? r = none := by
  induction conditions generalizing rows with
  | nil => simp [conditionsFault?]
  | cons first conditions ih =>
    rw [List.cons_append, conditionsFault?, conditionsFault?, Option.or_eq_none_iff, Option.or_eq_none_iff, ih, and_assoc]
    rfl

theorem fault?_drillDown {q : Query} {field : String} (hfield : q.groupField? = some field) {records : List Record}
    (h : q.fault? records = none) (key : String) : (q.drillDown field key).fault? records = none := by
  obtain ⟨hconditions, htexts⟩ := (fault?_of_groupField hfield).mp h
  unfold drillDown
  rw [fault?_rows { q with conditions := q.conditions ++ [⟨field, .equal, .text key⟩] }]
  refine conditionsFault?_concat.mpr ⟨hconditions, fun r hr => ?_⟩
  exact Operator.equal.fault?_eq_none (htexts r hr) rfl

/-- A group is found again by its key. -/
theorem mem_answer_drillDown {q : Query} {field : String} (hfield : q.groupField? = some field) (records : List Record) :
    (∀ v : Value, v.isKeyable = true → v.textFault? = none → Operator.equal.test v (.text v.toText) = .ok true) ∧
    ∀ grouped, q.answer records = .ok grouped → ∃ groups, grouped.outcome = .groups groups ∧
      ∀ g ∈ groups, ∀ e ∈ g.rows, (e.resolve field).isKeyable = true → ∃ key found rows,
        g.key = some key ∧ (q.drillDown field key).answer records = .ok found ∧ found.outcome = .rows rows ∧ e ∈ rows := by
  refine ⟨fun v => Value.test_toText, fun grouped hgrouped => ?_⟩
  obtain ⟨hnone, rfl⟩ := answer_eq_ok.mp hgrouped
  obtain ⟨groups, hgroups, hfound⟩ := mem_run_drillDown hfield records
  refine ⟨groups, hgroups, fun g hg e he hkeyable => ?_⟩
  obtain ⟨key, rows, hkey, hrows, hmem⟩ := hfound g hg e he hkeyable
  exact ⟨key, _, rows, hkey, answer_eq_ok.mpr ⟨fault?_drillDown hfield hnone key, rfl⟩, hrows, hmem⟩

/-- An integer and a float are put into one group, and are both found by its key. -/
def threeNotes : List Record :=
  [stateRecord "a" (some (.int 3)), stateRecord "b" (some (.map [(.text "n", .bool true)])),
    stateRecord "c" (some (.float (Number.ofRatio false 3 1)))]

theorem mem_answer_drillDown_three : byState.groupField? = some "state" ∧ ∃ grouped groups,
    byState.answer threeNotes = .ok grouped ∧ grouped.outcome = .groups groups ∧
    groups.map (fun g => (g.key, g.rows.map (·.path))) =
      [(some "3", ["a", "c"]), (some "\x7b\"n\":true\x7d", ["b"])] ∧
    (∀ g ∈ groups, ∀ e ∈ g.rows, (e.resolve "state").isKeyable = true) ∧
    ∀ g ∈ groups, ∀ e ∈ g.rows, ∃ key found rows, g.key = some key ∧
      (byState.drillDown "state" key).answer threeNotes = .ok found ∧ found.outcome = .rows rows ∧ e ∈ rows := by
  have hanswer : byState.answer threeNotes = .ok (byState.run threeNotes) := answer_eq_ok.mpr ⟨by decide +kernel, rfl⟩
  obtain ⟨-, hdrill⟩ := mem_answer_drillDown (q := byState) rfl threeNotes
  obtain ⟨groups, hgroups, hfound⟩ := hdrill _ hanswer
  have hall : ∀ g ∈ groups, ∀ e ∈ g.rows, (e.resolve "state").isKeyable = true := by
    obtain rfl := Outcome.groups.inj hgroups
    decide +kernel
  refine ⟨rfl, _, groups, hanswer, hgroups, ?_, hall, fun g hg e he => hfound g hg e he (hall g hg e he)⟩
  obtain rfl := Outcome.groups.inj hgroups
  decide +kernel

theorem not_always_equal_toText : ¬ ∀ v : Value, v.isKeyable = true →
    Operator.equal.test v (.text v.toText) = .ok true := by
  intro h
  obtain ⟨n, hn⟩ := exists_textFault
  have hnone : (mapOf n).textFault?.or none = none := (Operator.test_eq_ok.mp (h (mapOf n) rfl)).1
  rw [hn] at hnone
  cases hnone

end Query

end NoteQuery

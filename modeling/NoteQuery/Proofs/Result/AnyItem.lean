import NoteQuery.Proofs.Result.Answer

/-!
# Equality with any item

A list equals a literal when something in it does, however deep in lists it lies. Flattening lays the
items out as rows instead and compares row by row, which keeps the same records: a list without items
has one row, but no row equals anything that no item equals. The search of a list ends at the first item
that equals the literal, while every row is compared.
-/

namespace NoteQuery

namespace Value

/-- What a value comes down to through lists in lists. -/
inductive IsLeaf : Value → Value → Prop
  | self {v : Value} (h : ∀ t items, v ≠ @list t items) : IsLeaf v v
  | item {leaf item : Value} {t : Bool} {items : List Value} (hmem : item ∈ items) (hleaf : IsLeaf leaf item) :
      IsLeaf leaf (@list t items)

theorem holds_equal (v literal : Value) : Operator.equal.holds v literal = (!v.isAbsent && v.equals literal) := by
  unfold Operator.holds
  cases v.isAbsent <;> rfl

theorem anyEquals_eq (items : List Value) (literal : Value) :
    anyEquals items literal = items.any fun item => Operator.equal.holds item literal := by
  induction items with
  | nil => rfl
  | cons item items ih => simp [anyEquals, ih, holds_equal]

theorem holds_equal_list (t : Bool) (items : List Value) (literal : Value) :
    Operator.equal.holds (@list t items) literal = items.any fun item => Operator.equal.holds item literal := by
  rw [holds_equal, equals, anyEquals_eq]
  simp [isAbsent]

/-! ## Leaves -/

theorem holds_equal_of_isLeaf {leaf v literal : Value} (hleaf : IsLeaf leaf v)
    (h : Operator.equal.holds leaf literal = true) : Operator.equal.holds v literal = true := by
  induction hleaf with
  | self _ => exact h
  | item hmem _ ih =>
    rw [holds_equal_list, List.any_eq_true]
    exact ⟨_, hmem, ih⟩

theorem exists_isLeaf {literal : Value} (v : Value) : Operator.equal.holds v literal = true →
    ∃ leaf, IsLeaf leaf v ∧ Operator.equal.holds leaf literal = true := by
  apply equals.induct
    (fun v => Operator.equal.holds v literal = true → ∃ leaf, IsLeaf leaf v ∧ Operator.equal.holds leaf literal = true)
    (fun items => ∀ item ∈ items, Operator.equal.holds item literal = true →
      ∃ leaf, IsLeaf leaf item ∧ Operator.equal.holds leaf literal = true)
  case case1 =>
    intro t items ih h
    rw [holds_equal_list, List.any_eq_true] at h
    obtain ⟨item, hmem, hitem⟩ := h
    obtain ⟨leaf, hleaf, hequal⟩ := ih item hmem hitem
    exact ⟨leaf, .item hmem hleaf, hequal⟩
  case case2 =>
    intro v hv h
    exact ⟨v, .self hv, h⟩
  case case3 => simp
  case case4 =>
    intro item items ihitem ihitems
    simp only [List.forall_mem_cons]
    exact ⟨ihitem, ihitems⟩

theorem holds_equal_iff (v literal : Value) : Operator.equal.holds v literal = true ↔
    ∃ leaf, IsLeaf leaf v ∧ leaf.isAbsent = false ∧ Operator.equal.holds leaf literal = true := by
  constructor
  · intro h
    obtain ⟨leaf, hleaf, hequal⟩ := exists_isLeaf v h
    refine ⟨leaf, hleaf, ?_, hequal⟩
    rw [holds_equal] at hequal
    simp at hequal
    exact hequal.1
  · rintro ⟨leaf, hleaf, -, hequal⟩
    exact holds_equal_of_isLeaf hleaf hequal

/-! ## Searches that end -/

theorem fault?_equal_list (t : Bool) (items : List Value) (literal : Value) :
    Operator.equal.fault? (@list t items) literal = anyEqualsFault? items literal := rfl

theorem equalsFault?_of_fault? {v literal : Value} (h : Operator.equal.fault? v literal = none)
    (hpresent : v.isAbsent = false) : v.equalsFault? literal = none := by
  unfold Operator.fault? at h
  rwa [hpresent, if_neg Bool.false_ne_true] at h

theorem anyEqualsFault?_of_forall {items : List Value} {literal : Value}
    (h : ∀ item ∈ items, Operator.equal.fault? item literal = none) : anyEqualsFault? items literal = none := by
  induction items with
  | nil => rw [anyEqualsFault?]
  | cons item items ih =>
    obtain ⟨hitem, hitems⟩ := List.forall_mem_cons.mp h
    rw [anyEqualsFault?, ih hitems]
    split
    · rfl
    · rename_i hpresent
      rw [equalsFault?_of_fault? hitem (by simpa using hpresent), ite_self]
      rfl

/-- The leaf that a search ends at can be compared, whatever comes after it. -/
theorem exists_isLeaf_test {literal : Value} (v : Value) : Operator.equal.test v literal = .ok true →
    ∃ leaf, IsLeaf leaf v ∧ Operator.equal.test leaf literal = .ok true := by
  -- along the recursion of `equals`, with what it does to lists beside it
  apply equals.induct
    (fun v => Operator.equal.test v literal = .ok true →
      ∃ leaf, IsLeaf leaf v ∧ Operator.equal.test leaf literal = .ok true)
    (fun items => anyEqualsFault? items literal = none → anyEquals items literal = true →
      ∃ item ∈ items, ∃ leaf, IsLeaf leaf item ∧ Operator.equal.test leaf literal = .ok true)
  case case1 =>
    intro t items ih h
    obtain ⟨hfault, hholds⟩ := Operator.test_eq_ok.mp h
    rw [holds_equal_list, ← anyEquals_eq] at hholds
    obtain ⟨item, hmem, leaf, hleaf, hequal⟩ := ih hfault hholds
    exact ⟨leaf, .item hmem hleaf, hequal⟩
  case case2 =>
    intro v hv h
    exact ⟨v, .self hv, h⟩
  case case3 =>
    intro _ h
    cases h
  case case4 =>
    intro item items ihitem ihitems hfault hholds
    rw [anyEqualsFault?] at hfault
    rw [anyEquals] at hholds
    cases habsent : item.isAbsent with
    | true =>
      rw [habsent, if_pos rfl] at hfault
      rw [habsent, Bool.not_true, Bool.false_and, Bool.false_or] at hholds
      obtain ⟨other, hmem, hother⟩ := ihitems hfault hholds
      exact ⟨other, List.mem_cons_of_mem _ hmem, hother⟩
    | false =>
      rw [habsent, if_neg Bool.false_ne_true, Option.or_eq_none_iff] at hfault
      rw [habsent, Bool.not_false, Bool.true_and] at hholds
      -- the search ends here if the item is equal; what stands behind it is not looked at
      cases hitem : item.equals literal with
      | true =>
        have htest : Operator.equal.test item literal = .ok true := by
          refine Operator.test_eq_ok.mpr ⟨?_, ?_⟩
          · unfold Operator.fault?
            rw [habsent, if_neg Bool.false_ne_true]
            exact hfault.1
          · rw [holds_equal, habsent, hitem]
            rfl
        exact ⟨item, List.mem_cons_self, ihitem htest⟩
      | false =>
        rw [hitem, if_neg Bool.false_ne_true] at hfault
        rw [hitem, Bool.false_or] at hholds
        obtain ⟨other, hmem, hother⟩ := ihitems hfault.2 hholds
        exact ⟨other, List.mem_cons_of_mem _ hmem, hother⟩

theorem fault?_equal_of_leaves {literal : Value} (v : Value) :
    (∀ leaf, IsLeaf leaf v → Operator.equal.fault? leaf literal = none) → Operator.equal.fault? v literal = none := by
  apply equals.induct
    (fun v => (∀ leaf, IsLeaf leaf v → Operator.equal.fault? leaf literal = none) →
      Operator.equal.fault? v literal = none)
    (fun items => ∀ item ∈ items, (∀ leaf, IsLeaf leaf item → Operator.equal.fault? leaf literal = none) →
      Operator.equal.fault? item literal = none)
  case case1 =>
    intro t items ih h
    exact anyEqualsFault?_of_forall fun item hmem => ih item hmem fun leaf hleaf => h leaf (.item hmem hleaf)
  case case2 =>
    intro v hv h
    exact h v (.self hv)
  case case3 => simp
  case case4 =>
    intro item items ihitem ihitems
    simp only [List.forall_mem_cons]
    exact ⟨ihitem, ihitems⟩

/-- What a value equals is told by its leaves, if it can be told at all. -/
theorem test_equal_iff {v literal : Value} {b : Bool} (h : Operator.equal.test v literal = .ok b) :
    b = true ↔ ∃ leaf, IsLeaf leaf v ∧ leaf.isAbsent = false ∧ Operator.equal.test leaf literal = .ok true := by
  constructor
  · rintro rfl
    obtain ⟨leaf, hleaf, htest⟩ := exists_isLeaf_test v h
    have hequal := (Operator.test_eq_ok.mp htest).2
    rw [holds_equal, Bool.and_eq_true, Bool.not_eq_true'] at hequal
    exact ⟨leaf, hleaf, hequal.1, htest⟩
  · rintro ⟨leaf, hleaf, -, htest⟩
    rw [← (Operator.test_eq_ok.mp h).2]
    exact holds_equal_of_isLeaf hleaf (Operator.test_eq_ok.mp htest).2

/-! ## Flattened values -/

theorem fault?_equal_of_flattened {v literal : Value}
    (h : ∀ w ∈ v.flattened, Operator.equal.fault? w literal = none) : Operator.equal.fault? v literal = none := by
  cases v with
  | list items =>
    cases items with
    | nil => rw [fault?_equal_list, anyEqualsFault?]
    | cons item items => exact anyEqualsFault?_of_forall h
  | _ => exact h _ (List.mem_singleton_self _)

theorem any_flattened (v literal : Value) :
    (v.flattened.any fun item => Operator.equal.holds item literal) = Operator.equal.holds v literal := by
  cases v with
  | list items =>
    cases items with
    | nil => simp [flattened]
    | cons item items => rw [flattened, holds_equal_list]
  | _ => simp [flattened]

end Value

/-! ## Rows -/

theorem eraseDups_flatMap_replicate {α β : Type} [DecidableEq β] {key : α → β} (count : α → ℕ) :
    ∀ {l : List α}, l.Pairwise (fun a b => key a ≠ key b) →
      (l.flatMap fun a => List.replicate (count a) (key a)).eraseDups = (l.filter fun a => 0 < count a).map key
  | [], _ => rfl
  | a :: l, h => by
    obtain ⟨hhead, htail⟩ := List.pairwise_cons.mp h
    have ih := eraseDups_flatMap_replicate count htail
    cases hcount : count a with
    | zero => simp [hcount, ih]
    | succ n =>
      have hothers : ∀ k ∈ l.flatMap fun a => List.replicate (count a) (key a), (!k == key a) = true := by
        intro k hk
        obtain ⟨b, hb, hkb⟩ := List.mem_flatMap.mp hk
        rw [List.eq_of_mem_replicate hkb]
        simpa using (hhead b hb).symm
      have hrun : (List.replicate n (key a)).filter (fun k => !k == key a) = [] := by simp
      rw [List.flatMap_cons, hcount, List.replicate_succ, List.cons_append, List.eraseDups_cons, List.filter_append,
        List.filter_eq_self.mpr hothers, hrun, List.nil_append, ih]
      simp [hcount]

namespace Flatten

variable (f : Flatten) (literal : Value)

theorem paths_filter_rows (h : '.' ∉ f.name.toList) (r : Record) :
    ((f.rows r).filter (Condition.matchesRecord ⟨f.name, .equal, literal⟩ ·)).map (·.path) =
      List.replicate ((r.resolve f.field).flattened.countP fun v => Operator.equal.holds v literal) r.path := by
  have hrow : ∀ v, Condition.matchesRecord ⟨f.name, .equal, literal⟩ (bind f.name v r) = Operator.equal.holds v literal := by
    intro v
    unfold Condition.matchesRecord
    rw [resolve_bind_self h]
  have hpath : ∀ v, (bind f.name v r).path = r.path := by
    intro v
    rw [bind_eq]
  rw [rows_eq, List.filter_map, List.map_map, List.eq_replicate_iff]
  constructor
  · simp [List.countP_eq_length_filter, Function.comp_def, hrow]
  · intro path hmem
    obtain ⟨v, -, rfl⟩ := List.mem_map.mp hmem
    exact hpath v

theorem paths_filter_apply (h : '.' ∉ f.name.toList) {records : List Record}
    (hpaths : records.Pairwise fun r s => r.path ≠ s.path) :
    (((apply (some f) records).filter (Condition.matchesRecord ⟨f.name, .equal, literal⟩ ·)).map (·.path)).eraseDups =
      (records.filter (Condition.matchesRecord ⟨f.field, .equal, literal⟩ ·)).map (·.path) := by
  have hrecord : ∀ r : Record, decide (0 < (r.resolve f.field).flattened.countP fun v => Operator.equal.holds v literal) =
      Condition.matchesRecord ⟨f.field, .equal, literal⟩ r := by
    intro r
    rw [Condition.matchesRecord, ← Value.any_flattened, Bool.eq_iff_iff]
    simp [List.countP_pos_iff]
  unfold apply
  dsimp only
  rw [List.filter_flatMap, List.map_flatMap]
  simp only [paths_filter_rows f literal h]
  rw [eraseDups_flatMap_replicate _ hpaths]
  simp only [hrecord]

end Flatten

namespace Query

theorem run_flatten_equal (q : Query) (f : Flatten) (literal : Value) (h : '.' ∉ f.name.toList) {records : List Record}
    (hpaths : records.Pairwise fun r s => r.path ≠ s.path) :
    ∃ rows kept,
      ({ q with flatten := some f, conditions := [⟨f.name, .equal, literal⟩],
                groupBy := none, sort := none, limit := none }.run records).outcome = .rows rows ∧
      ({ q with flatten := none, conditions := [⟨f.field, .equal, literal⟩],
                groupBy := none, sort := none, limit := none }.run records).outcome = .rows kept ∧
      (rows.map (·.path)).eraseDups = kept.map (·.path) := by
  refine ⟨_, _, rfl, rfl, ?_⟩
  have hscope : (Source.select q.source records).Pairwise fun r s => r.path ≠ s.path := by
    unfold Source.select
    cases q.source with
    | none => exact hpaths
    | some s => exact hpaths.filter _
  have hshown : ∀ rows : List Record, (rows.map Entry.ofRecord).map (·.path) = rows.map (·.path) := by
    intro rows
    rw [List.map_map]
    rfl
  rw [applyLimit, applyLimit, sortedRows, sortedRows]
  dsimp only [Option.bind]
  rw [hshown, hshown, candidates, candidates]
  exact Flatten.paths_filter_apply f literal h hscope

theorem conditionsFault?_singleton {c : Condition} {rows : List Record} :
    conditionsFault? [c] rows = none ↔ ∀ r ∈ rows, c.fault? r = none := by
  rw [conditionsFault?, conditionsFault?, Option.or_none, List.findSome?_eq_none_iff]

theorem forall_fault?_apply {f : Flatten} {literal : Value} (h : '.' ∉ f.name.toList) {records : List Record} :
    (∀ row ∈ Flatten.apply (some f) records, Condition.fault? ⟨f.name, .equal, literal⟩ row = none) ↔
      ∀ r ∈ records, ∀ v ∈ (r.resolve f.field).flattened, Operator.equal.fault? v literal = none := by
  have hrow : ∀ v r, Condition.fault? ⟨f.name, .equal, literal⟩ (Flatten.bind f.name v r) =
      Operator.equal.fault? v literal := by
    intro v r
    rw [Condition.fault?, Flatten.resolve_bind_self h]
  unfold Flatten.apply
  simp only [List.forall_mem_flatMap, Flatten.rows_eq, List.forall_mem_map, hrow]

theorem fault?_flatten_equal (q : Query) {f : Flatten} {literal : Value} (h : '.' ∉ f.name.toList)
    {records : List Record} :
    { q with flatten := some f, conditions := [⟨f.name, .equal, literal⟩],
             groupBy := none, sort := none, limit := none }.fault? records = none ↔
      ∀ r ∈ Source.select q.source records, ∀ v ∈ (r.resolve f.field).flattened,
        Operator.equal.fault? v literal = none := by
  rw [fault?_rows { q with flatten := some f, conditions := [⟨f.name, .equal, literal⟩] }, conditionsFault?_singleton]
  exact forall_fault?_apply h

/-- To flatten a field and compare each row keeps the records for which the field itself compares. -/
theorem answer_flatten_equal (q : Query) (f : Flatten) (literal : Value) (h : '.' ∉ f.name.toList)
    {records : List Record} (hpaths : records.Pairwise fun r s => r.path ≠ s.path) :
    (∀ v b, Operator.equal.test v literal = .ok b → (b = true ↔
      ∃ leaf, Value.IsLeaf leaf v ∧ leaf.isAbsent = false ∧ Operator.equal.test leaf literal = .ok true)) ∧
    (∀ v, (∀ leaf, Value.IsLeaf leaf v → ∃ b, Operator.equal.test leaf literal = .ok b) →
      ∃ b, Operator.equal.test v literal = .ok b) ∧
    ((∃ flat, { q with flatten := some f, conditions := [⟨f.name, .equal, literal⟩],
                       groupBy := none, sort := none, limit := none }.answer records = .ok flat) ↔
      ∀ r ∈ Source.select q.source records, ∀ v ∈ (r.resolve f.field).flattened,
        ∃ b, Operator.equal.test v literal = .ok b) ∧
    ∀ flat, { q with flatten := some f, conditions := [⟨f.name, .equal, literal⟩],
                     groupBy := none, sort := none, limit := none }.answer records = .ok flat →
      ∃ plain rows kept,
        { q with flatten := none, conditions := [⟨f.field, .equal, literal⟩],
                 groupBy := none, sort := none, limit := none }.answer records = .ok plain ∧
        flat.outcome = .rows rows ∧ plain.outcome = .rows kept ∧ (rows.map (·.path)).eraseDups = kept.map (·.path) := by
  have hfault : Query.fault? _ records = none ↔ ∀ r ∈ Source.select q.source records,
      ∀ v ∈ (r.resolve f.field).flattened, Operator.equal.fault? v literal = none := fault?_flatten_equal q h
  refine ⟨fun v b => Value.test_equal_iff, fun v hleaves => ?_, ?_, fun flat hflat => ?_⟩
  · rw [Operator.exists_test_eq_ok]
    exact Value.fault?_equal_of_leaves v fun leaf hleaf => Operator.exists_test_eq_ok.mp (hleaves leaf hleaf)
  · simp only [Operator.exists_test_eq_ok]
    exact exists_answer_eq_ok.trans hfault
  · obtain ⟨hnone, rfl⟩ := answer_eq_ok.mp hflat
    obtain ⟨rows, kept, hrows, hkept, hsame⟩ := run_flatten_equal q f literal h hpaths
    refine ⟨_, rows, kept, answer_eq_ok.mpr ⟨?_, rfl⟩, hrows, hkept, hsame⟩
    rw [fault?_rows { q with flatten := none, conditions := [⟨f.field, .equal, literal⟩] }, conditionsFault?_singleton]
    exact fun r hr => Value.fault?_equal_of_flattened (hfault.mp hnone r hr)

def partsNote (path : String) (parts : Option Value) : Record :=
  ⟨path, path, "", [], [], (parts.map fun v => (Value.text "parts", v)).toList, false⟩

/-- The first has the part twice, the second in no row, the third not at all and the last as no list. -/
def partsNotes : List Record :=
  [partsNote "a" (some (.seq [.seq [.null, .text "X"], .text "x"])), partsNote "b" (some (.seq [])),
    partsNote "c" none, partsNote "d" (some (.text "x"))]

theorem answer_flatten_equal_parts : '.' ∉ "parts".toList ∧ partsNotes.Pairwise (fun r s => r.path ≠ s.path) ∧
    ∃ flat plain rows kept,
      { flatten := some ⟨"parts", "parts"⟩, conditions := [⟨"parts", .equal, .text "x"⟩] : Query }.answer
        partsNotes = .ok flat ∧
      { conditions := [⟨"parts", .equal, .text "x"⟩] : Query }.answer partsNotes = .ok plain ∧
      flat.outcome = .rows rows ∧ plain.outcome = .rows kept ∧
      rows.map (·.path) = ["a", "a", "d"] ∧ kept.map (·.path) = ["a", "d"] := by
  have hpaths : partsNotes.Pairwise (fun r s => r.path ≠ s.path) := by decide
  obtain ⟨-, -, -, hanswer⟩ := answer_flatten_equal {} ⟨"parts", "parts"⟩ (.text "x") (by decide) hpaths
  have hflat : Query.answer { flatten := some ⟨"parts", "parts"⟩, conditions := [⟨"parts", .equal, .text "x"⟩] }
      partsNotes = .ok _ := answer_eq_ok.mpr ⟨by decide +kernel, rfl⟩
  obtain ⟨plain, rows, kept, hplain, hrows, hkept, hsame⟩ := hanswer _ hflat
  have hall : rows.map (·.path) = ["a", "a", "d"] := by
    obtain rfl := Outcome.rows.inj hrows
    decide +kernel
  refine ⟨by decide, hpaths, _, plain, rows, kept, hflat, hplain, hrows, hkept, hall, ?_⟩
  rw [← hsame, hall]
  decide

theorem not_always_flatten_equal : ¬ ∀ (q : Query) (f : Flatten) (literal : Value) (records : List Record),
    '.' ∉ f.name.toList → (records.Pairwise fun r s => r.path ≠ s.path) →
    ∀ plain, { q with flatten := none, conditions := [⟨f.field, .equal, literal⟩],
                      groupBy := none, sort := none, limit := none }.answer records = .ok plain →
    ∃ flat rows kept,
      { q with flatten := some f, conditions := [⟨f.name, .equal, literal⟩],
               groupBy := none, sort := none, limit := none }.answer records = .ok flat ∧
      flat.outcome = .rows rows ∧ plain.outcome = .rows kept ∧ (rows.map (·.path)).eraseDups = kept.map (·.path) := by
  intro h
  obtain ⟨n, hn⟩ := exists_textFault
  obtain ⟨flat, -, -, hflat, -⟩ := h {} ⟨"f", "g"⟩ (.text "x") [recordWith "f" (.seq [.text "x", mapOf n])]
    (by decide) (List.pairwise_singleton _ _) _ (answer_eq_ok.mpr ⟨rfl, rfl⟩)
  have hitems := (fault?_flatten_equal {} (by decide)).mp (answer_eq_ok.mp hflat).1 _ (List.mem_singleton_self _)
  have hnone : (mapOf n).textFault?.or none = none := hitems (mapOf n) (List.mem_cons_of_mem _ List.mem_cons_self)
  rw [hn] at hnone
  cases hnone

end Query

end NoteQuery

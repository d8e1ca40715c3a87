import NoteQuery.Proofs.Result.Grouping
import NoteQuery.Proofs.Value.Rank

/-!
# The order of groups

Groups that are sorted by their keys do not depend on the order of the records. The value by which a
bucket is sorted is that of whichever record came first, but values with one text have one rank, and
buckets with different texts never tie.
-/

namespace NoteQuery

/-! ## Rows -/

section

variable {records others : List Record} (h : records.Perm others)
include h

theorem Source.select_perm (source : Option Source) : (select source records).Perm (select source others) := by
  cases source with
  | none => exact h
  | some s => exact h.filter _

theorem Flatten.apply_perm (f : Option Flatten) : (apply f records).Perm (apply f others) := by
  cases f with
  | none => exact h
  | some f => exact h.flatMap_right _

theorem Query.candidates_perm (q : Query) : (q.candidates records).Perm (q.candidates others) := by
  have hfilter : ∀ (conditions : List Condition) {rows others : List Record}, rows.Perm others →
      (conditions.foldl (fun rows c => rows.filter (c.matchesRecord ·)) rows).Perm
        (conditions.foldl (fun rows c => rows.filter (c.matchesRecord ·)) others) := by
    intro conditions
    induction conditions with
    | nil => exact fun hrows => hrows
    | cons c conditions ih => exact fun hrows => ih (hrows.filter _)
  exact hfilter q.conditions (Flatten.apply_perm (Source.select_perm h q.source) q.flatten)

end

/-! ## Sorted items -/

section

variable {α β κ : Type} [LinearOrder κ] {rank : Value → κ} {vs : List Value} {key : α → Value} {look : α → β}

def rankPrecedes (descending : Bool) (p q : κ × β) : Bool := if descending then q.1 ≤ p.1 else p.1 ≤ q.1

theorem rankPrecedes_trans (descending : Bool) (p q r : κ × β) (hpq : rankPrecedes descending p q = true)
    (hqr : rankPrecedes descending q r = true) : rankPrecedes descending p r = true := by
  cases descending with
  | true => exact decide_eq_true (le_trans (of_decide_eq_true hqr) (of_decide_eq_true hpq))
  | false => exact decide_eq_true (le_trans (of_decide_eq_true hpq) (of_decide_eq_true hqr))

theorem rankPrecedes_total (descending : Bool) (p q : κ × β) :
    (rankPrecedes descending p q || rankPrecedes descending q p) = true := by
  cases descending with
  | true => simpa [rankPrecedes] using le_total q.1 p.1
  | false => simpa [rankPrecedes] using le_total p.1 q.1

theorem pairwise_mergeSort_rank (descending : Bool) (l : List (κ × β)) :
    (l.mergeSort (rankPrecedes descending)).Pairwise fun p q => rankPrecedes descending p q = true :=
  List.pairwise_mergeSort (rankPrecedes_trans descending) (rankPrecedes_total descending) l

theorem rank_eq_of_precedes {descending : Bool} {p q : κ × β} (hpq : rankPrecedes descending p q = true)
    (hqp : rankPrecedes descending q p = true) : p.1 = q.1 := by
  cases descending with
  | true => exact le_antisymm (of_decide_eq_true hqp) (of_decide_eq_true hpq)
  | false => exact le_antisymm (of_decide_eq_true hpq) (of_decide_eq_true hqp)

variable (hrank : Value.IsRanking rank vs)
include hrank

theorem map_mergeSort_rank (descending : Bool) {l : List α} (hl : ∀ a ∈ l, key a ∈ vs) :
    (l.mergeSort fun a b => Value.mayPrecede descending (key a) (key b)).map (fun a => (rank (key a), look a)) =
      (l.map fun a => (rank (key a), look a)).mergeSort (rankPrecedes descending) := by
  refine List.map_mergeSort fun a ha b hb => ?_
  rw [Bool.eq_iff_iff, hrank.mayPrecede_iff descending (hl a ha) (hl b hb)]
  cases descending <;> simp [rankPrecedes]

/-- Sorted items look the same whatever their order was, if items of one rank look the same. -/
theorem map_mergeSort_eq (descending : Bool) {l m : List α} (hl : ∀ a ∈ l, key a ∈ vs) (hm : ∀ b ∈ m, key b ∈ vs)
    (hperm : (l.map fun a => (rank (key a), look a)).Perm (m.map fun b => (rank (key b), look b)))
    (hlook : ∀ a ∈ l, ∀ b ∈ m, rank (key a) = rank (key b) → look a = look b) :
    (l.mergeSort fun a b => Value.mayPrecede descending (key a) (key b)).map look =
      (m.mergeSort fun a b => Value.mayPrecede descending (key a) (key b)).map look := by
  have hsorted : (l.map fun a => (rank (key a), look a)).mergeSort (rankPrecedes descending) =
      (m.map fun b => (rank (key b), look b)).mergeSort (rankPrecedes descending) := by
    refine List.Perm.eq_of_pairwise ?_ (pairwise_mergeSort_rank descending _) (pairwise_mergeSort_rank descending _)
      ((List.mergeSort_perm _ _).trans (hperm.trans (List.mergeSort_perm _ _).symm))
    intro p q hp hq hpq hqp
    obtain ⟨a, ha, rfl⟩ := List.mem_map.mp (List.mem_mergeSort.mp hp)
    obtain ⟨b, hb, rfl⟩ := List.mem_map.mp (List.mem_mergeSort.mp hq)
    have heq := rank_eq_of_precedes hpq hqp
    exact Prod.ext heq (hlook a ha b hb heq)
  rw [← map_mergeSort_rank hrank descending hl, ← map_mergeSort_rank hrank descending hm] at hsorted
  have hlooks := congrArg (List.map Prod.snd) hsorted
  rwa [List.map_map, List.map_map] at hlooks

end

theorem sortBy_eq {α : Type} (key : α → Value) (descending : Bool) (items : List α) :
    sortBy key descending items =
      ((items.filter fun a => !(key a).isMissing).mergeSort fun a b => Value.mayPrecede descending (key a) (key b)) ++
        items.filter fun a => (key a).isMissing := by
  rw [sortBy, List.partition_eq_filter_filter]
  rfl

/-! ## Buckets -/

def definedValues (field : String) (records : List Record) : List Value :=
  (records.map (·.resolve field)).filter fun v => !v.isMissing

theorem mem_definedValues {field : String} {records : List Record} {v : Value} :
    v ∈ definedValues field records ↔ (∃ r ∈ records, r.resolve field = v) ∧ v.isMissing = false := by
  rw [definedValues, List.mem_filter, List.mem_map, Bool.not_eq_true']

namespace Bucket

def count (b : Bucket) : Option String × ℕ := (b.key, b.records.length)

theorem ofRecords_concat (field : String) (records : List Record) (r : Record) :
    ofRecords field (records ++ [r]) = add (r.resolve field) r (ofRecords field records) := by
  rw [ofRecords, List.foldl_append]
  rfl

theorem mem_add {value : Value} {r : Record} : ∀ {buckets : List Bucket} {b : Bucket}, b ∈ add value r buckets →
    b.value = value ∧ b.key = keyOf value ∨ ∃ c ∈ buckets, b.value = c.value ∧ b.key = c.key
  | [], b, hb => by
    obtain rfl := List.mem_singleton.mp hb
    exact Or.inl ⟨rfl, rfl⟩
  | first :: buckets, b, hb => by
    rw [add] at hb
    split at hb
    · rcases List.mem_cons.mp hb with rfl | hb
      · exact Or.inr ⟨first, List.mem_cons_self, rfl, rfl⟩
      · exact Or.inr ⟨b, List.mem_cons_of_mem _ hb, rfl, rfl⟩
    · rcases List.mem_cons.mp hb with rfl | hb
      · exact Or.inr ⟨b, List.mem_cons_self, rfl, rfl⟩
      · refine (mem_add hb).imp_right ?_
        rintro ⟨c, hc, heq⟩
        exact ⟨c, List.mem_cons_of_mem _ hc, heq⟩

theorem value_of_mem {field : String} {records : List Record} {b : Bucket} (hb : b ∈ ofRecords field records) :
    (∃ r ∈ records, r.resolve field = b.value) ∧ b.key = keyOf b.value := by
  induction records using List.reverseRecOn generalizing b with
  | nil => cases hb
  | append_singleton records r ih =>
    rw [ofRecords_concat] at hb
    rcases mem_add hb with ⟨hvalue, hkey⟩ | ⟨c, hc, hvalue, hkey⟩
    · refine ⟨⟨r, ?_, hvalue.symm⟩, ?_⟩
      · exact List.mem_append_right _ List.mem_cons_self
      · rw [hkey, hvalue]
    · obtain ⟨⟨s, hs, hresolve⟩, hcKey⟩ := ih hc
      refine ⟨⟨s, List.mem_append_left _ hs, ?_⟩, ?_⟩
      · rw [hresolve, hvalue]
      · rw [hkey, hcKey, hvalue]

theorem isMissing_value {field : String} {records : List Record} {b : Bucket} (hb : b ∈ ofRecords field records) :
    b.value.isMissing = b.key.isNone := by
  rw [(value_of_mem hb).2, Bool.eq_iff_iff, Option.isNone_iff_eq_none, keyOf_eq_none_iff]

section

variable {field : String} {records others : List Record} (h : records.Perm others)
include h

theorem count_eq_of_key {b c : Bucket} (hb : b ∈ ofRecords field records) (hc : c ∈ ofRecords field others)
    (hkey : b.key = c.key) : b.count = c.count := by
  have hrecords := (complete_ofRecords field records).records b hb
  have hothers := (complete_ofRecords field others).records c hc
  rw [count, count, hrecords, hothers, hkey, (h.filter _).length_eq]

theorem exists_same_key {b : Bucket} (hb : b ∈ ofRecords field records) : ∃ c ∈ ofRecords field others, c.key = b.key := by
  obtain ⟨r, hr, hkey⟩ := (complete_ofRecords field records).mem_keys.mp (List.mem_map_of_mem (f := (·.key)) hb)
  exact List.mem_map.mp ((complete_ofRecords field others).mem_keys.mpr ⟨r, h.mem_iff.mp hr, hkey⟩)

theorem map_filter_perm {β : Type} {look : Bucket → β} (p : Option String → Bool)
    (hkey : ∀ b c, look b = look c → b.key = c.key)
    (hlook : ∀ b ∈ ofRecords field records, ∀ c ∈ ofRecords field others, b.key = c.key → p b.key = true →
      look b = look c) :
    (((ofRecords field records).filter (p ·.key)).map look).Perm
      (((ofRecords field others).filter (p ·.key)).map look) := by
  -- no two groups of one list look alike, so the lists need only have the same members
  have hnodup : ∀ rows, (((ofRecords field rows).filter (p ·.key)).map look).Nodup := by
    intro rows
    have hdistinct := List.pairwise_map.mp (complete_ofRecords field rows).distinct
    exact List.pairwise_map.mpr ((hdistinct.filter _).imp fun hne heq => hne (hkey _ _ heq))
  refine (List.perm_ext_iff_of_nodup (hnodup records) (hnodup others)).mpr fun a => ⟨?_, ?_⟩
  · intro ha
    obtain ⟨b, hb, rfl⟩ := List.mem_map.mp ha
    obtain ⟨hb, hp⟩ := List.mem_filter.mp hb
    obtain ⟨c, hc, hsame⟩ := exists_same_key h hb
    exact List.mem_map.mpr ⟨c, List.mem_filter.mpr ⟨hc, by rwa [hsame]⟩, (hlook b hb c hc hsame.symm hp).symm⟩
  · intro ha
    obtain ⟨c, hc, rfl⟩ := List.mem_map.mp ha
    obtain ⟨hc, hp⟩ := List.mem_filter.mp hc
    obtain ⟨b, hb, hsame⟩ := exists_same_key h.symm hc
    exact List.mem_map.mpr ⟨b, List.mem_filter.mpr ⟨hb, by rwa [hsame]⟩, hlook b hb c hc hsame (by rwa [hsame])⟩

end

/-! ## Sorted buckets -/

theorem sortBy_ofRecords (descending : Bool) (field : String) (records : List Record) :
    sortBy (·.value) descending (ofRecords field records) =
      (((ofRecords field records).filter (·.key.isSome)).mergeSort fun b c =>
        Value.mayPrecede descending b.value c.value) ++ (ofRecords field records).filter (·.key.isNone) := by
  have hdefined : (ofRecords field records).filter (fun b => !b.value.isMissing) =
      (ofRecords field records).filter (·.key.isSome) :=
    List.filter_congr fun b hb => by rw [isMissing_value hb, Option.not_isNone]
  rw [sortBy_eq, hdefined, List.filter_congr fun b hb => isMissing_value hb]

theorem pairwise_sortBy (descending : Bool) (field : String) (records : List Record) :
    (sortBy (·.value) descending (ofRecords field records)).Pairwise fun b _ => b.key ≠ none := by
  have hsome : ∀ b ∈ ((ofRecords field records).filter (·.key.isSome)).mergeSort fun b c =>
      Value.mayPrecede descending b.value c.value, b.key ≠ none := by
    intro b hb
    exact Option.isSome_iff_ne_none.mp (List.mem_filter.mp (List.mem_mergeSort.mp hb)).2
  rw [sortBy_ofRecords, List.pairwise_append]
  refine ⟨List.pairwise_of_forall_mem_list fun b hb _ _ => hsome b hb, ?_, fun b hb _ _ => hsome b hb⟩
  have hdistinct := List.pairwise_map.mp (complete_ofRecords field records).distinct
  refine (hdistinct.filter _).imp_of_mem fun {b c} hb hc hne => ?_
  have hnone : b.key = c.key := by
    rw [Option.isNone_iff_eq_none.mp (List.mem_filter.mp hb).2, Option.isNone_iff_eq_none.mp (List.mem_filter.mp hc).2]
  exact absurd hnone hne

section

variable {field : String} {records others : List Record} (h : records.Perm others)
include h

/-- At most one bucket is without a key, so it looks the same wherever it came up. -/
theorem map_count_missing :
    ((ofRecords field records).filter (·.key.isNone)).map count =
      ((ofRecords field others).filter (·.key.isNone)).map count := by
  have hperm : (((ofRecords field records).filter (·.key.isNone)).map count).Perm
      (((ofRecords field others).filter (·.key.isNone)).map count) :=
    map_filter_perm h Option.isNone (fun b c heq => congrArg (·.1) heq) fun b hb c hc hkey _ =>
      count_eq_of_key h hb hc hkey
  have hall : ∀ l : List (Option String × ℕ), l.Pairwise fun _ _ => True := fun l =>
    List.pairwise_of_forall fun _ _ => trivial
  refine hperm.eq_of_pairwise ?_ (hall _) (hall _)
  intro p q hp hq _ _
  obtain ⟨b, hb, rfl⟩ := List.mem_map.mp hp
  obtain ⟨c, hc, rfl⟩ := List.mem_map.mp hq
  obtain ⟨hb, hbnone⟩ := List.mem_filter.mp hb
  obtain ⟨hc, hcnone⟩ := List.mem_filter.mp hc
  refine count_eq_of_key h hb hc ?_
  rw [Option.isNone_iff_eq_none.mp hbnone, Option.isNone_iff_eq_none.mp hcnone]

theorem value_mem_definedValues {c : Bucket} (hc : c ∈ ofRecords field others) (hsome : c.key.isSome = true) :
    c.value ∈ definedValues field records := by
  obtain ⟨⟨r, hr, hresolve⟩, -⟩ := value_of_mem hc
  refine mem_definedValues.mpr ⟨⟨r, h.mem_iff.mpr hr, hresolve⟩, ?_⟩
  rw [isMissing_value hc, ← Option.not_isSome, hsome, Bool.not_true]

section

variable {κ : Type} [LinearOrder κ] {rank : Value → κ} (hrank : Value.IsRanking rank (definedValues field records))
include hrank

theorem rank_eq_iff {b c : Bucket} (hb : b ∈ ofRecords field records) (hc : c ∈ ofRecords field others)
    (hbsome : b.key.isSome = true) (hcsome : c.key.isSome = true) : rank b.value = rank c.value ↔ b.key = c.key := by
  obtain ⟨s, hs⟩ := Option.isSome_iff_exists.mp hbsome
  obtain ⟨t, ht⟩ := Option.isSome_iff_exists.mp hcsome
  have hbtext := (keyOf_eq_some_iff.mp ((value_of_mem hb).2.symm.trans hs)).2
  have hctext := (keyOf_eq_some_iff.mp ((value_of_mem hc).2.symm.trans ht)).2
  rw [hrank.text _ (value_mem_definedValues (List.Perm.refl _) hb hbsome) _ (value_mem_definedValues h hc hcsome),
    hbtext, hctext, hs, ht, Option.some_inj]

theorem map_count_defined (descending : Bool) :
    (((ofRecords field records).filter (·.key.isSome)).mergeSort fun b c =>
        Value.mayPrecede descending b.value c.value).map count =
      (((ofRecords field others).filter (·.key.isSome)).mergeSort fun b c =>
        Value.mayPrecede descending b.value c.value).map count := by
  refine map_mergeSort_eq hrank descending ?_ ?_ ?_ ?_
  · intro b hb
    obtain ⟨hb, hsome⟩ := List.mem_filter.mp hb
    exact value_mem_definedValues (List.Perm.refl _) hb hsome
  · intro c hc
    obtain ⟨hc, hsome⟩ := List.mem_filter.mp hc
    exact value_mem_definedValues h hc hsome
  · refine map_filter_perm h Option.isSome (fun b c heq => congrArg (·.2.1) heq) fun b hb c hc hkey hsome => ?_
    exact Prod.ext ((rank_eq_iff h hrank hb hc hsome (hkey ▸ hsome)).mpr hkey) (count_eq_of_key h hb hc hkey)
  · intro b hb c hc heq
    obtain ⟨hb, hbsome⟩ := List.mem_filter.mp hb
    obtain ⟨hc, hcsome⟩ := List.mem_filter.mp hc
    exact count_eq_of_key h hb hc ((rank_eq_iff h hrank hb hc hbsome hcsome).mp heq)

end

theorem map_count_sortBy (halike : Value.Alike (definedValues field records)) (descending : Bool) :
    (sortBy (·.value) descending (ofRecords field records)).map count =
      (sortBy (·.value) descending (ofRecords field others)).map count := by
  obtain ⟨κ, _, rank, hrank⟩ := halike.exists_isRanking
  rw [sortBy_ofRecords, sortBy_ofRecords, List.map_append, List.map_append, map_count_defined h hrank,
    map_count_missing h]

end

end Bucket

/-! ## Groups -/

def Group.count (g : Group) : Option String × ℕ := (g.key, g.rows.length)

theorem Group.count_ofBucket (b : Bucket) : (ofBucket b).count = b.count := by
  rw [count, ofBucket, Bucket.count, List.length_map]

namespace Query

theorem map_applyLimit {α β : Type} (q : Query) (f : α → β) (items : List α) :
    (q.applyLimit items).map f = q.applyLimit (items.map f) := by
  rw [applyLimit, applyLimit]
  split
  · exact List.map_take
  · rfl

theorem applyLimit_sublist {α : Type} (q : Query) (items : List α) : (q.applyLimit items).Sublist items := by
  rw [applyLimit]
  split
  · exact List.take_sublist _ _
  · exact List.Sublist.refl items

theorem conditionsFault?_perm : ∀ {conditions : List Condition} {rows others : List Record}, rows.Perm others →
    (conditionsFault? conditions rows = none ↔ conditionsFault? conditions others = none)
  | [], _, _, _ => Iff.rfl
  | c :: conditions, rows, others, h => by
    have hrest : conditionsFault? conditions _ = none ↔ _ := conditionsFault?_perm (h.filter (c.matchesRecord ·))
    have hrows : (∀ r ∈ rows, c.fault? r = none) ↔ ∀ r ∈ others, c.fault? r = none :=
      forall_congr' fun _ => imp_congr_left h.mem_iff
    rw [conditionsFault?, conditionsFault?, Option.or_eq_none_iff, Option.or_eq_none_iff, List.findSome?_eq_none_iff,
      List.findSome?_eq_none_iff, hrows, hrest]

theorem fault?_perm {q : Query} {field : String} (hfield : q.groupField? = some field) {records others : List Record}
    (h : records.Perm others) : q.fault? records = none ↔ q.fault? others = none := by
  have hscanned : (q.scanned records).Perm (q.scanned others) :=
    Flatten.apply_perm (Source.select_perm h q.source) q.flatten
  rw [fault?_of_groupField hfield, fault?_of_groupField hfield, conditionsFault?_perm hscanned]
  exact and_congr_right fun _ => forall_congr' fun _ => imp_congr_left (candidates_perm h q).mem_iff

theorem run_groups_of_perm {q : Query} {field path : String} {direction : Direction}
    (hfield : q.groupField? = some field) (hsort : q.sort = some ⟨.field path, direction⟩)
    {records others : List Record} (hperm : records.Perm others)
    (halike : Value.Alike (definedValues field (q.candidates records))) :
    ∃ groups moved,
      (q.run records).outcome = .groups groups ∧
      (q.run others).outcome = .groups moved ∧
      groups.map Group.count = moved.map Group.count ∧
      (∀ g ∈ groups.dropLast, g.key ≠ none) ∧
      (q.limit = none → Grouped field ((q.candidates records).map .ofRecord) groups) := by
  have hbuckets : ∀ rows, q.buckets field rows =
      sortBy (·.value) (RowOrder.isDescending ⟨.field path, direction⟩) (Bucket.ofRecords field rows) := by
    intro rows
    rw [buckets, hsort]
    rfl
  refine ⟨_, _, congrArg Result.outcome (run_of_groupField hfield records),
    congrArg Result.outcome (run_of_groupField hfield others), ?_, ?_, fun hlimit => ?_⟩
  · have hcount : Group.count ∘ Group.ofBucket = Bucket.count := funext Group.count_ofBucket
    rw [List.map_map, List.map_map, hcount, map_applyLimit, map_applyLimit, hbuckets, hbuckets,
      Bucket.map_count_sortBy (candidates_perm hperm q) halike]
  · intro g hg
    -- the bucket without a key is the last one, so what is left of the list has keys
    have hlast : ((q.applyLimit (q.buckets field (q.candidates records))).map Group.ofBucket).Pairwise
        fun g _ => g.key ≠ none := by
      rw [hbuckets]
      exact List.pairwise_map.mpr ((Bucket.pairwise_sortBy _ field _).sublist (q.applyLimit_sublist _))
    have hne : (q.applyLimit (q.buckets field (q.candidates records))).map Group.ofBucket ≠ [] := by
      intro hnil
      rw [hnil] at hg
      cases hg
    rw [← List.dropLast_append_getLast hne, List.pairwise_append] at hlast
    exact hlast.2.2 g hg _ (List.mem_singleton.mpr rfl)
  · rw [applyLimit, hlimit]
    exact (Bucket.complete_ofRecords field _).grouped (Bucket.buckets_perm q field _)

/-- Sorted groups come in the same order and sizes whatever the order of the records is. -/
theorem answer_groups_of_perm {q : Query} {field path : String} {direction : Direction}
    (hfield : q.groupField? = some field) (hsort : q.sort = some ⟨.field path, direction⟩)
    {records others : List Record} (hperm : records.Perm others)
    (halike : Value.Alike (definedValues field (q.candidates records))) :
    ((∃ r, q.answer records = .ok r) ↔ ∃ s, q.answer others = .ok s) ∧
    (∀ r, q.answer records = .ok r → ∃ s groups moved,
      q.answer others = .ok s ∧
      r.outcome = .groups groups ∧
      s.outcome = .groups moved ∧
      groups.map Group.count = moved.map Group.count ∧
      (∀ g ∈ groups.dropLast, g.key ≠ none) ∧
      (q.limit = none → Grouped field ((q.candidates records).map .ofRecord) groups)) ∧
    ∀ v w : Value, Value.Alike [v, w] → v.textFault? = none → w.textFault? = none →
      (v.order w = .eq ↔ v.toText = w.toText) := by
  have hfault := fault?_perm hfield hperm
  refine ⟨?_, fun r hr => ?_, fun v w hvw _ _ => hvw.order_eq_iff (by simp) (by simp)⟩
  · rw [exists_answer_eq_ok, exists_answer_eq_ok]
    exact hfault
  · obtain ⟨hnone, rfl⟩ := answer_eq_ok.mp hr
    obtain ⟨groups, moved, hgroups, hmoved, hrest⟩ := run_groups_of_perm hfield hsort hperm halike
    exact ⟨_, groups, moved, answer_eq_ok.mpr ⟨hfault.mp hnone, rfl⟩, hgroups, hmoved, hrest⟩

def byStateDown : Query :=
  { groupBy := some "state", sort := some ⟨.field "name", .descending⟩, limit := some (.count 2) }

/-- One, once as an integer and once as a float, and two and a half. -/
def numberedRecords : List Record :=
  [stateRecord "a" (some (.int 1)), stateRecord "b" none,
    stateRecord "c" (some (.float (Float.ofBits 0x3ff0000000000000))),
    stateRecord "d" (some (.float (Float.ofBits 0x4004000000000000)))]

theorem answer_groups_reversed : byStateDown.groupField? = some "state" ∧
    Value.Alike (definedValues "state" (byStateDown.candidates numberedRecords)) ∧ ∃ r s groups moved,
      byStateDown.answer numberedRecords = .ok r ∧
      byStateDown.answer numberedRecords.reverse = .ok s ∧
      r.outcome = .groups groups ∧
      s.outcome = .groups moved ∧
      groups.map Group.count = moved.map Group.count ∧ ∀ g ∈ groups.dropLast, g.key ≠ none := by
  have halike : Value.Alike (definedValues "state" (byStateDown.candidates numberedRecords)) := Or.inl (by decide +kernel)
  have hanswer : byStateDown.answer numberedRecords = .ok (byStateDown.run numberedRecords) :=
    answer_eq_ok.mpr ⟨by decide +kernel, rfl⟩
  obtain ⟨-, hsame, -⟩ :=
    answer_groups_of_perm (q := byStateDown) rfl rfl (List.reverse_perm numberedRecords).symm halike
  obtain ⟨s, groups, moved, hs, hgroups, hmoved, hcounts, hlast, -⟩ := hsame _ hanswer
  exact ⟨rfl, halike, _, s, groups, moved, hanswer, hs, hgroups, hmoved, hcounts, hlast⟩

theorem not_always_sorted_groups : ¬ ∀ (q : Query) (field path : String) (direction : Direction)
    (records others : List Record), q.groupField? = some field → q.sort = some ⟨.field path, direction⟩ →
    records.Perm others → Value.Alike (definedValues field (q.candidates records)) →
    ∃ r groups, q.answer records = .ok r ∧ r.outcome = .groups groups := by
  intro h
  obtain ⟨n, hn⟩ := exists_textFault
  have halike : Value.Alike [mapOf n] := Or.inr (by simp [mapOf, Value.isNumber, Value.number?])
  obtain ⟨r, -, hr, -⟩ := h { groupBy := some "m", sort := some ⟨.field "m", .ascending⟩ } "m" "m" .ascending
    [recordWith "m" (mapOf n)] _ rfl rfl (List.Perm.refl _) halike
  have htexts := ((fault?_of_groupField rfl).mp (answer_eq_ok.mp hr).1).2
  have hnone : (mapOf n).textFault? = none := htexts _ (List.mem_singleton_self _)
  rw [hn] at hnone
  cases hnone

end Query

end NoteQuery

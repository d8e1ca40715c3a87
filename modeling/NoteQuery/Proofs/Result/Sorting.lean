import NoteQuery.Proofs.Result.GroupOrder

/-!
# Sorted items

A sort moves the items without a value to the end and orders the others by the ranks of their values.
Items of one rank stay as they were in either direction, because a descending sort asks the opposite
question about two items and does not turn the sorted list around.
-/

namespace NoteQuery

def definedKeys {α : Type} (key : α → Value) (items : List α) : List Value :=
  (items.map key).filter fun v => !v.isMissing

namespace Value

structure IsPreordered (vs : List Value) : Prop where
  refl : ∀ v ∈ vs, v.order v = .eq
  swap : ∀ v ∈ vs, ∀ w ∈ vs, w.order v = (v.order w).swap
  trans : ∀ u ∈ vs, ∀ v ∈ vs, ∀ w ∈ vs, (u.order v).isLE → (v.order w).isLE → (u.order w).isLE

theorem IsRanking.subset {κ : Type} [LinearOrder κ] {rank : Value → κ} {vs ws : List Value} (h : IsRanking rank vs)
    (hsub : ws ⊆ vs) : IsRanking rank ws :=
  ⟨fun v hv w hw => h.order v (hsub hv) w (hsub hw), fun v hv w hw => h.text v (hsub hv) w (hsub hw)⟩

theorem Alike.isPreordered {vs : List Value} (h : Alike vs) : IsPreordered vs := by
  obtain ⟨κ, _, rank, hrank⟩ := h.exists_isRanking
  have hle : ∀ v ∈ vs, ∀ w ∈ vs, (v.order w).isLE = true ↔ rank v ≤ rank w := fun v hv w hw =>
    hrank.mayPrecede_iff false hv hw
  refine ⟨fun v hv => ?_, fun v hv w hw => ?_, fun u hu v hv w hw huv hvw => ?_⟩
  · rw [hrank.order v hv v hv, compare_eq_iff_eq]
  · rw [hrank.order v hv w hw, hrank.order w hw v hv]
    exact (Std.OrientedOrd.eq_swap (a := rank w) (b := rank v))
  · exact (hle u hu w hw).mpr (((hle u hu v hv).mp huv).trans ((hle v hv w hw).mp hvw))

end Value

/-! ## Lists in the order of their ranks -/

section

variable {α κ : Type} [DecidableEq κ]

theorem mem_of_filter_rank {rank : α → κ} {l m : List α} (h : ∀ k, l.filter (rank · = k) = m.filter (rank · = k))
    {a : α} (ha : a ∈ l) : a ∈ m := by
  have hmem : a ∈ l.filter (rank · = rank a) := List.mem_filter.mpr ⟨ha, decide_eq_true rfl⟩
  rw [h] at hmem
  exact List.mem_of_mem_filter hmem

theorem eq_of_filter_rank (le : κ → κ → Prop) (rank : α → κ) (hrefl : ∀ k, le k k)
    (hanti : ∀ j k, le j k → le k j → j = k) : ∀ {l m : List α},
    l.Pairwise (fun a b => le (rank a) (rank b)) → m.Pairwise (fun a b => le (rank a) (rank b)) →
    (∀ k, l.filter (rank · = k) = m.filter (rank · = k)) → l = m
  | [], [], _, _, _ => rfl
  | [], b :: m, _, _, hfilter => by
    have hb : b ∈ [] := mem_of_filter_rank (fun k => (hfilter k).symm) List.mem_cons_self
    cases hb
  | a :: l, [], _, _, hfilter => by
    have ha : a ∈ [] := mem_of_filter_rank hfilter List.mem_cons_self
    cases ha
  | a :: l, b :: m, hl, hm, hfilter => by
    obtain ⟨hla, hl⟩ := List.pairwise_cons.mp hl
    obtain ⟨hmb, hm⟩ := List.pairwise_cons.mp hm
    have ha : a ∈ b :: m := mem_of_filter_rank hfilter List.mem_cons_self
    have hb : b ∈ a :: l := mem_of_filter_rank (fun k => (hfilter k).symm) List.mem_cons_self
    have hab : le (rank a) (rank b) := (List.mem_cons.mp hb).elim (fun h => h ▸ hrefl _) (hla b)
    have hba : le (rank b) (rank a) := (List.mem_cons.mp ha).elim (fun h => h ▸ hrefl _) (hmb a)
    have hrank := hanti _ _ hab hba
    -- each is the first item of the rank that they share
    have hhead := hfilter (rank a)
    simp only [List.filter_cons, hrank, decide_true, if_true] at hhead
    have htail : ∀ k, l.filter (rank · = k) = m.filter (rank · = k) := by
      intro k
      have hk := hfilter k
      by_cases hb : rank b = k
      · simp only [List.filter_cons, hrank, hb, decide_true, if_true] at hk
        exact (List.cons.inj hk).2
      · simpa [List.filter_cons, hrank, hb] using hk
    rw [(List.cons.inj hhead).1, eq_of_filter_rank le rank hrefl hanti hl hm htail]

end

section

variable {α κ : Type} [LinearOrder κ] {rank : Value → κ} {vs : List Value} {key : α → Value}
  (hrank : Value.IsRanking rank vs) (descending : Bool)
include hrank

theorem pairwise_mergeSort_key {l : List α} (hl : ∀ a ∈ l, key a ∈ vs) :
    (l.mergeSort fun a b => Value.mayPrecede descending (key a) (key b)).Pairwise fun a b =>
      Value.mayPrecede descending (key a) (key b) = true := by
  have hsorted := pairwise_mergeSort_rank descending (l.map fun a => (rank (key a), a))
  rw [← map_mergeSort_rank hrank descending hl, List.pairwise_map] at hsorted
  refine hsorted.imp_of_mem fun {a b} ha hb hab => ?_
  rw [hrank.mayPrecede_iff descending (hl a (List.mem_mergeSort.mp ha)) (hl b (List.mem_mergeSort.mp hb))]
  cases descending <;> simpa [rankPrecedes] using hab

theorem filter_mergeSort_rank {l : List α} (hl : ∀ a ∈ l, key a ∈ vs) (k : κ) :
    (l.mergeSort fun a b => Value.mayPrecede descending (key a) (key b)).filter (fun a => rank (key a) = k) =
      l.filter fun a => rank (key a) = k := by
  have hpairs : ∀ pairs : List (κ × α),
      (pairs.mergeSort (rankPrecedes descending)).filter (·.1 = k) = pairs.filter (·.1 = k) := by
    intro pairs
    have hone : (pairs.filter (·.1 = k)).Pairwise fun p q => rankPrecedes descending p q = true := by
      refine List.pairwise_of_forall_mem_list fun p hp q hq => ?_
      have hpk : p.1 = k := of_decide_eq_true (List.mem_filter.mp hp).2
      have hqk : q.1 = k := of_decide_eq_true (List.mem_filter.mp hq).2
      cases descending <;> simp [rankPrecedes, hpk, hqk]
    -- what is in order beforehand stays as a sublist, which has all the items of this rank
    have hsub := (List.sublist_mergeSort (rankPrecedes_trans descending) (rankPrecedes_total descending) hone
      List.filter_sublist).filter (·.1 = k)
    rw [List.filter_filter] at hsub
    simp only [Bool.and_self] at hsub
    exact (hsub.eq_of_length ((List.mergeSort_perm _ _).filter _).length_eq.symm).symm
  have hlist := hpairs (l.map fun a => (rank (key a), a))
  rw [← map_mergeSort_rank hrank descending hl, List.filter_map, List.filter_map] at hlist
  have hitems := congrArg (List.map Prod.snd) hlist
  rw [List.map_map, List.map_map] at hitems
  simpa [Function.comp_def] using hitems

end

/-! ## Stable sorts -/

section

variable {α : Type} (key : α → Value)

def tied (a b : α) : Bool := !(key b).isMissing && (key a).order (key b) == .eq

/-- A sorted list of some items: those with a value come first, in the order of their values, those that
tie as they were; those without one come last, as they were. -/
structure IsStableSort (descending : Bool) (items sorted : List α) : Prop where
  perm : sorted.Perm items
  missing : sorted = (sorted.filter fun a => !(key a).isMissing) ++ items.filter fun a => (key a).isMissing
  ordered : (sorted.filter fun a => !(key a).isMissing).Pairwise fun a b =>
    if descending then ((key a).order (key b)).isGE else ((key a).order (key b)).isLE
  stable : ∀ a ∈ items, (key a).isMissing = false → sorted.filter (tied key a) = items.filter (tied key a)

variable {key}

theorem mem_definedKeys {items : List α} {a : α} (ha : a ∈ items) (hdefined : (key a).isMissing = false) :
    key a ∈ definedKeys key items :=
  List.mem_filter.mpr ⟨List.mem_map_of_mem ha, by simp [hdefined]⟩

theorem key_mem_of_filter {items : List α} : ∀ a ∈ items.filter (fun a => !(key a).isMissing),
    key a ∈ definedKeys key items := by
  intro a ha
  obtain ⟨ha, hdefined⟩ := List.mem_filter.mp ha
  exact mem_definedKeys ha (by simpa using hdefined)

theorem filter_isMissing_sortBy (descending : Bool) (items : List α) :
    (sortBy key descending items).filter (fun a => !(key a).isMissing) =
      (items.filter fun a => !(key a).isMissing).mergeSort fun a b => Value.mayPrecede descending (key a) (key b) := by
  rw [sortBy_eq, List.filter_append]
  have hdefined : ∀ a ∈ (items.filter fun a => !(key a).isMissing).mergeSort fun a b =>
      Value.mayPrecede descending (key a) (key b), (!(key a).isMissing) = true := by
    intro a ha
    exact (List.mem_filter.mp (List.mem_mergeSort.mp ha)).2
  rw [List.filter_eq_self.mpr hdefined, List.filter_filter]
  simp

theorem sortBy_missing (descending : Bool) (items : List α) : sortBy key descending items =
    ((sortBy key descending items).filter fun a => !(key a).isMissing) ++ items.filter fun a => (key a).isMissing := by
  rw [filter_isMissing_sortBy, sortBy_eq]

section

variable {κ : Type} [LinearOrder κ] {rank : Value → κ} {items : List α}
  (hrank : Value.IsRanking rank (definedKeys key items))
include hrank

theorem tied_eq {a b : α} (ha : a ∈ items) (hb : b ∈ items) (hdefined : (key a).isMissing = false) :
    tied key a b = (!(key b).isMissing && decide (rank (key b) = rank (key a))) := by
  unfold tied
  cases hmissing : (key b).isMissing with
  | true => rfl
  | false =>
    rw [hrank.order _ (mem_definedKeys ha hdefined) _ (mem_definedKeys hb hmissing), Bool.not_false, Bool.true_and,
      Bool.true_and, Bool.eq_iff_iff, beq_iff_eq, compare_eq_iff_eq, decide_eq_true_iff, eq_comm]

theorem filter_tied {a : α} (ha : a ∈ items) (hdefined : (key a).isMissing = false) {l : List α}
    (hl : l ⊆ items) :
    l.filter (tied key a) = (l.filter fun b => !(key b).isMissing).filter fun b => rank (key b) = rank (key a) := by
  rw [List.filter_filter]
  apply List.filter_congr
  intro b hb
  rw [tied_eq hrank ha (hl hb) hdefined, Bool.and_comm]

theorem isStableSort_sortBy (descending : Bool) : IsStableSort key descending items (sortBy key descending items) := by
  have hperm := sortBy_perm key descending items
  refine ⟨hperm, sortBy_missing descending items, ?_, ?_⟩
  · rw [filter_isMissing_sortBy]
    exact pairwise_mergeSort_key hrank descending key_mem_of_filter
  · intro a ha hdefined
    rw [filter_tied hrank ha hdefined hperm.subset, filter_tied hrank ha hdefined (List.Subset.refl items),
      filter_isMissing_sortBy, filter_mergeSort_rank hrank descending key_mem_of_filter]

namespace IsStableSort

variable {descending : Bool} {sorted : List α} (h : IsStableSort key descending items sorted)
include h

theorem filter_rank (k : κ) :
    (sorted.filter fun a => !(key a).isMissing).filter (fun a => rank (key a) = k) =
      (items.filter fun a => !(key a).isMissing).filter fun a => rank (key a) = k := by
  by_cases hk : ∃ a ∈ items, (key a).isMissing = false ∧ rank (key a) = k
  · obtain ⟨a, ha, hdefined, rfl⟩ := hk
    rw [← filter_tied hrank ha hdefined h.perm.subset, ← filter_tied hrank ha hdefined (List.Subset.refl items),
      h.stable a ha hdefined]
  · have hnone : ∀ l ⊆ items, (l.filter fun a => !(key a).isMissing).filter (fun a => rank (key a) = k) = [] := by
      intro l hl
      rw [List.filter_filter, List.filter_eq_nil_iff]
      intro a ha hak
      simp only [Bool.and_eq_true, Bool.not_eq_true', decide_eq_true_eq] at hak
      exact hk ⟨a, hl ha, hak.2, hak.1⟩
    rw [hnone sorted h.perm.subset, hnone items (List.Subset.refl items)]

theorem pairwise_rank : (sorted.filter fun a => !(key a).isMissing).Pairwise fun a b =>
    if descending then rank (key b) ≤ rank (key a) else rank (key a) ≤ rank (key b) := by
  have hkeys : ∀ a ∈ sorted.filter fun a => !(key a).isMissing, key a ∈ definedKeys key items := by
    intro a ha
    exact key_mem_of_filter a ((h.perm.filter _).mem_iff.mp ha)
  refine h.ordered.imp_of_mem fun {a b} ha hb hab => ?_
  rw [← hrank.mayPrecede_iff descending (hkeys a ha) (hkeys b hb), Value.mayPrecede]
  exact hab

theorem eq_sortBy : sorted = sortBy key descending items := by
  have hsort := isStableSort_sortBy hrank descending
  have hdefined : (sorted.filter fun a => !(key a).isMissing) =
      (sortBy key descending items).filter fun a => !(key a).isMissing := by
    refine eq_of_filter_rank (fun j k => if descending then k ≤ j else j ≤ k) (fun a => rank (key a))
      ?_ ?_ (h.pairwise_rank hrank) (hsort.pairwise_rank hrank) fun k => ?_
    · intro k
      simp
    · intro j k hjk hkj
      cases descending with
      | true => exact le_antisymm hkj hjk
      | false => exact le_antisymm hjk hkj
    · rw [h.filter_rank hrank, hsort.filter_rank hrank]
  rw [h.missing, hsort.missing, hdefined]

end IsStableSort

end

theorem IsStableSort.self {descending : Bool} {items sorted : List α} (h : IsStableSort key descending items sorted) :
    IsStableSort key descending sorted sorted := by
  have hmissing : sorted.filter (fun a => (key a).isMissing) = items.filter fun a => (key a).isMissing := by
    rw [h.missing, List.filter_append, List.filter_filter, List.filter_filter]
    simp
  refine ⟨List.Perm.refl sorted, ?_, h.ordered, fun _ _ _ => rfl⟩
  rw [hmissing]
  exact h.missing

end

/-! ## Sorts -/

theorem sortBy_stable {α : Type} (key : α → Value) (descending : Bool) (items : List α) :
    (sortBy key descending items).Perm items ∧
    sortBy key descending items = ((sortBy key descending items).filter fun a => !(key a).isMissing) ++
      items.filter (fun a => (key a).isMissing) ∧
    (Value.Alike (definedKeys key items) →
      (∀ s, IsStableSort key descending items s ↔ s = sortBy key descending items) ∧
      sortBy key descending (sortBy key descending items) = sortBy key descending items) := by
  refine ⟨sortBy_perm key descending items, sortBy_missing descending items, fun halike => ?_⟩
  obtain ⟨κ, _, rank, hrank⟩ := halike.exists_isRanking
  have hsort := isStableSort_sortBy hrank descending
  refine ⟨fun s => ⟨fun h => h.eq_sortBy hrank, ?_⟩, ?_⟩
  · rintro rfl
    exact hsort
  · have hkeys : definedKeys key (sortBy key descending items) ⊆ definedKeys key items :=
      ((hsort.perm.map key).filter _).subset
    exact (hsort.self.eq_sortBy (hrank.subset hkeys)).symm

/-! ## Sorts that need no text that cannot be had -/

theorem pairFault?_of_isNumber : ∀ {vs : List Value}, (∀ v ∈ vs, v.isNumber = true) → pairFault? vs = none
  | [], _ => rfl
  | v :: vs, h => by
    obtain ⟨hv, hvs⟩ := List.forall_mem_cons.mp h
    refine Value.or_eq_none (List.findSome?_eq_none_iff.mpr fun w hw => ?_) (pairFault?_of_isNumber hvs)
    rw [Value.orderFault?, hv, hvs w hw]
    rfl

theorem orderFault?_of_isNumber {v w : Value} (hv : v.isNumber = false) :
    v.orderFault? w = none ↔ v.textFault? = none ∧ w.textFault? = none := by
  rw [Value.orderFault?, hv, Bool.false_and, if_neg Bool.false_ne_true, Option.or_eq_none_iff]

/-- Two values or more that are no numbers are put in order by their texts, so each needs one. -/
theorem pairFault?_eq_none_iff : ∀ {vs : List Value}, (∀ v ∈ vs, v.isNumber = false) →
    (pairFault? vs = none ↔ vs.length < 2 ∨ ∀ v ∈ vs, v.textFault? = none)
  | [], _ => by simp [pairFault?]
  | [v], _ => by simp [pairFault?]
  | v :: w :: vs, h => by
    obtain ⟨hv, hrest⟩ := List.forall_mem_cons.mp h
    have ih := pairFault?_eq_none_iff hrest
    -- one value is compared with each behind it, so its text is needed as soon as there is another
    have hfirst : (w :: vs).findSome? v.orderFault? = none ↔
        v.textFault? = none ∧ ∀ u ∈ w :: vs, u.textFault? = none := by
      rw [List.findSome?_eq_none_iff]
      constructor
      · intro hall
        refine ⟨((orderFault?_of_isNumber hv).mp (hall w List.mem_cons_self)).1, fun u hu => ?_⟩
        exact ((orderFault?_of_isNumber hv).mp (hall u hu)).2
      · rintro ⟨hvtext, htexts⟩ u hu
        exact (orderFault?_of_isNumber hv).mpr ⟨hvtext, htexts u hu⟩
    rw [pairFault?, Option.or_eq_none_iff, hfirst, ih]
    constructor
    · rintro ⟨hall, -⟩
      exact Or.inr (List.forall_mem_cons.mpr hall)
    · rintro (hshort | htexts)
      · simp at hshort
      · have hall := List.forall_mem_cons.mp htexts
        exact ⟨hall, Or.inr hall.2⟩

section

variable {α : Type} {key : α → Value} {descending : Bool} {items : List α}

theorem sorted_eq_ok {s : List α} :
    sorted key descending items = .ok s ↔ sortFault? key items = none ∧ s = sortBy key descending items := by
  unfold sorted
  cases sortFault? key items <;> simp [eq_comm]

theorem sortFault?_eq_none_iff (halike : Value.Alike (definedKeys key items)) :
    sortFault? key items = none ↔ (∀ v ∈ definedKeys key items, v.isNumber = true) ∨
      (definedKeys key items).length < 2 ∨ ∀ v ∈ definedKeys key items, v.textFault? = none := by
  rcases halike with hnumbers | hothers
  · have hall : ∀ v ∈ definedKeys key items, v.isNumber = true := by
      intro v hv
      obtain ⟨m, p, hm, -⟩ := Value.exists_place? (hnumbers v hv)
      rw [Value.isNumber, hm]
      rfl
    exact iff_of_true (pairFault?_of_isNumber hall) (Or.inl hall)
  · refine (pairFault?_eq_none_iff hothers).trans ⟨Or.inr, ?_⟩
    rintro (hnumbers | hrest)
    · -- values that are numbers and are none: there is no value
      refine Or.inr fun v hv => ?_
      have hboth := (hnumbers v hv).symm.trans (hothers v hv)
      cases hboth
    · exact hrest

end

/-- A sort is the one stable sort, for values of one kind. -/
theorem sorted_stable {α : Type} (key : α → Value) (descending : Bool) (items : List α) :
    ((∀ v ∈ definedKeys key items, v.textFault? = none) → ∃ s, sorted key descending items = .ok s) ∧
    (Value.Alike (definedKeys key items) → ((∃ s, sorted key descending items = .ok s) ↔
      (∀ v ∈ definedKeys key items, v.isNumber = true) ∨ (definedKeys key items).length < 2 ∨
        ∀ v ∈ definedKeys key items, v.textFault? = none)) ∧
    (∀ s, sorted key descending items = .ok s →
      s.Perm items ∧
      s = (s.filter fun a => !(key a).isMissing) ++ items.filter (fun a => (key a).isMissing) ∧
      (Value.Alike (definedKeys key items) →
        Value.IsPreordered (definedKeys key items) ∧
        (∀ t, IsStableSort key descending items t ↔ t = s) ∧
        sorted key descending s = .ok s)) ∧
    ∀ direction records, rowsFault? ⟨.groupSize, direction⟩ records = none ∧
      sortRecords ⟨.groupSize, direction⟩ records = records := by
  refine ⟨fun htexts => ?_, fun halike => ?_, fun s hs => ?_, fun _ _ => ⟨rfl, rfl⟩⟩
  · refine ⟨_, sorted_eq_ok.mpr ⟨sortFault?_eq_none fun a ha => ?_, rfl⟩⟩
    cases hmissing : (key a).isMissing with
    | false => exact htexts _ (mem_definedKeys ha hmissing)
    | true =>
      revert hmissing
      cases key a <;> intro hmissing <;> first | rfl | cases hmissing
  · rw [← sortFault?_eq_none_iff halike]
    constructor
    · rintro ⟨s, hs⟩
      exact (sorted_eq_ok.mp hs).1
    · exact fun hnone => ⟨_, sorted_eq_ok.mpr ⟨hnone, rfl⟩⟩
  · obtain ⟨hnone, rfl⟩ := sorted_eq_ok.mp hs
    obtain ⟨hperm, hmissing, hstable⟩ := sortBy_stable key descending items
    refine ⟨hperm, hmissing, fun halike => ?_⟩
    obtain ⟨hunique, hagain⟩ := hstable halike
    -- sorting again meets the same keys, so it can do what it could before
    have hkeys : (definedKeys key (sortBy key descending items)).Perm (definedKeys key items) :=
      (hperm.map key).filter _
    have halike' : Value.Alike (definedKeys key (sortBy key descending items)) :=
      halike.imp (fun h v hv => h v (hkeys.mem_iff.mp hv)) (fun h v hv => h v (hkeys.mem_iff.mp hv))
    refine ⟨halike.isPreordered, hunique, sorted_eq_ok.mpr ⟨(sortFault?_eq_none_iff halike').mpr ?_, hagain.symm⟩⟩
    rw [hkeys.length_eq]
    refine ((sortFault?_eq_none_iff halike).mp hnone).imp (fun h v hv => h v (hkeys.mem_iff.mp hv)) ?_
    exact Or.imp_right fun h v hv => h v (hkeys.mem_iff.mp hv)

/-- One, both as a float and as an integer, half and infinity; the second and the last item have no value. -/
def mixedKey (n : ℕ) : Value :=
  [.float (Float.ofBits 0x3ff0000000000000), .missing, .float (Float.ofBits 0x3fe0000000000000), .int 1,
    .float (Float.ofBits 0x7ff0000000000000)].getD n .missing

theorem sorted_stable_mixed : Value.Alike (definedKeys mixedKey [0, 1, 2, 3, 4, 5]) ∧
    sorted mixedKey false [0, 1, 2, 3, 4, 5] = .ok [2, 0, 3, 4, 1, 5] ∧
    sorted mixedKey true [0, 1, 2, 3, 4, 5] = .ok [4, 0, 3, 2, 1, 5] := by
  have halike : Value.Alike (definedKeys mixedKey [0, 1, 2, 3, 4, 5]) := Or.inl (by decide +kernel)
  have htexts : ∀ v ∈ definedKeys mixedKey [0, 1, 2, 3, 4, 5], v.textFault? = none := by decide +kernel
  have hup : IsStableSort mixedKey false [0, 1, 2, 3, 4, 5] [2, 0, 3, 4, 1, 5] :=
    ⟨by decide, by decide +kernel, by decide +kernel, by decide +kernel⟩
  have hdown : IsStableSort mixedKey true [0, 1, 2, 3, 4, 5] [4, 0, 3, 2, 1, 5] :=
    ⟨by decide, by decide +kernel, by decide +kernel, by decide +kernel⟩
  refine ⟨halike, ?_, ?_⟩
  · obtain ⟨hexists, -, hsorted, -⟩ := sorted_stable mixedKey false [0, 1, 2, 3, 4, 5]
    obtain ⟨s, hs⟩ := hexists htexts
    rw [hs, (((hsorted s hs).2.2 halike).2.1 _).mp hup]
  · obtain ⟨hexists, -, hsorted, -⟩ := sorted_stable mixedKey true [0, 1, 2, 3, 4, 5]
    obtain ⟨s, hs⟩ := hexists htexts
    rw [hs, (((hsorted s hs).2.2 halike).2.1 _).mp hdown]

theorem not_always_sorted : ¬ ∀ (key : ℕ → Value) (descending : Bool) (items : List ℕ),
    ∃ s, sorted key descending items = .ok s := by
  intro h
  obtain ⟨n, hn⟩ := exists_textFault
  obtain ⟨s, hs⟩ := h (fun _ => mapOf n) false [0, 1]
  have hkeys : ∀ v ∈ definedKeys (fun _ : ℕ => mapOf n) [0, 1], v.isNumber = false := by
    intro v hv
    obtain ⟨a, -, rfl⟩ := List.mem_map.mp (List.mem_filter.mp hv).1
    rfl
  rcases (pairFault?_eq_none_iff hkeys).mp (sorted_eq_ok.mp hs).1 with hshort | htexts
  · exact absurd hshort (by simp [definedKeys, mapOf, Value.isMissing])
  · have hnone := htexts (mapOf n) List.mem_cons_self
    rw [hn] at hnone
    cases hnone

end NoteQuery

import NoteQuery.Proofs.Value.Coercion

/-!
# Equality and order

Nothing that stands for no number equals a number, whereas the order falls back on texts then. The two agree
nevertheless: the text of a number stands for a number, so that it is not the text of the other value.
-/

namespace NoteQuery

namespace Value

def isScalar : Value → Bool
  | .text _ | .bool _ => true
  | v => v.isOrdinaryNumber

theorem isOrdinaryNumber_of_isScalar {v : Value} (h : v.isScalar = true) (hnumber : v.isNumber = true) :
    v.isOrdinaryNumber = true := by
  cases v <;> simp_all [isScalar, isNumber, number?, isOrdinaryNumber]

theorem eq_text_of_isScalar {v : Value} (h : v.isScalar = true) (hnone : v.loosePlace? = none) : ∃ s, v = .text s := by
  by_cases hnumber : v.isOrdinaryNumber = true
  · obtain ⟨-, p, -, -, hp⟩ := exists_place? hnumber
    rw [loosePlace?_of_isOrdinaryNumber hnumber, hp] at hnone
    cases hnone
  · cases v with
    | text s => exact ⟨s, rfl⟩
    | bool b =>
      obtain ⟨p, -, hp⟩ := exists_loosePlace? (v := .bool b) rfl
      rw [hp] at hnone
      cases hnone
    | _ => exact absurd h hnumber

theorem toText_ne {v w : Value} (hv : v.isScalar = true) (hnone : v.loosePlace? = none) (hw : w.isOrdinaryNumber = true) :
    v.toText ≠ w.toText := by
  intro heq
  obtain ⟨s, rfl⟩ := eq_text_of_isScalar hv hnone
  apply loosePlace?_toText_ne_none hw
  rw [← heq, toText]
  exact hnone

section

variable {v literal : Value} (hv : v.isScalar = true) (hliteral : literal.isScalar = true)
  (hnumber : (v.isNumber || literal.isNumber) = true)
include hv hliteral hnumber

theorem toText_ne_of_loosePlace? (hnone : v.loosePlace? = none ∨ literal.loosePlace? = none) :
    v.toText ≠ literal.toText := by
  rcases hnone with hnone | hnone
  · obtain ⟨s, rfl⟩ := eq_text_of_isScalar hv hnone
    exact toText_ne hv hnone (isOrdinaryNumber_of_isScalar hliteral hnumber)
  · obtain ⟨s, rfl⟩ := eq_text_of_isScalar hliteral hnone
    rw [Bool.or_eq_true] at hnumber
    have hother := hnumber.resolve_right Bool.false_ne_true
    exact (toText_ne hliteral hnone (isOrdinaryNumber_of_isScalar hv hother)).symm

theorem equals_iff_compareLoosely : v.equals literal = true ↔ v.compareLoosely literal = .eq := by
  have hlist : ∀ t items, v ≠ @list t items := by
    intro t items heq
    rw [heq] at hv
    cases hv
  rw [equals_of_not_list hlist, scalarEquals_iff hnumber]
  by_cases hnone : v.loosePlace? = none ∨ literal.loosePlace? = none
  · rw [compareLoosely_of_none hnone, compare_eq_iff_eq]
    refine iff_of_false ?_ (toText_ne_of_loosePlace? hv hliteral hnumber hnone)
    rintro ⟨p, hp, hq⟩
    simp [hp, hq] at hnone
  · simp only [not_or, ← ne_eq, Option.ne_none_iff_exists'] at hnone
    obtain ⟨⟨p, hp⟩, q, hq⟩ := hnone
    rw [compareLoosely_of_some hp hq, compare_eq_iff_eq, Number.Place.height_injective.eq_iff, hp, hq]
    constructor
    · rintro ⟨r, hr, hr'⟩
      exact Option.some.inj (hr.trans hr'.symm)
    · intro heq
      exact ⟨p, rfl, congrArg some heq.symm⟩

omit hliteral in
theorem equalsFault?_of_isScalar : v.equalsFault? literal = none := by
  have hscalar : v.scalarEqualsFault? literal = none := by
    unfold scalarEqualsFault?
    split
    · rfl
    · rw [if_pos hnumber]
  unfold equalsFault?
  cases v <;> first | exact hscalar | exact nomatch hv

end

theorem textFault?_of_isScalar {v : Value} (hv : v.isScalar = true) (hnone : v.asNumber? = none) :
    v.textFault? = none := by
  cases v <;> first | rfl | simp_all [isScalar, isOrdinaryNumber, asNumber?]

theorem compareFault?_of_isScalar {v literal : Value} (hv : v.isScalar = true) (hliteral : literal.isScalar = true)
    (hshort : v.asNumber? = none → literal.textFault? = none)
    (hshort' : literal.asNumber? = none → v.textFault? = none) : v.compareFault? literal = none := by
  unfold compareFault?
  cases hm : v.asNumber? with
  | none =>
    rw [textFault?_of_isScalar hv hm, hshort hm]
    rfl
  | some m =>
    cases hn : literal.asNumber? with
    | none =>
      rw [textFault?_of_isScalar hliteral hn, hshort' hn]
      rfl
    | some n => rfl

end Value

namespace Operator

def ofOrdering : Ordering → Operator
  | .lt => .less
  | .eq => .equal
  | .gt => .greater

theorem holds_of_isScalar {v : Value} (hv : v.isScalar = true) (literal : Value) (op : Operator) :
    op.holds v literal = op.holdsFor v literal := by
  apply holds_of_present
  cases v <;> simp_all [Value.isScalar, Value.isAbsent, Value.isOrdinaryNumber]

section

variable {v literal : Value} (hv : v.isScalar = true) (hliteral : literal.isScalar = true)
  (hnumber : (v.isNumber || literal.isNumber) = true)
include hv hliteral hnumber

theorem holds_iff_ofOrdering {op : Operator} (hop : op ∈ [less, equal, greater]) :
    op.holds v literal = true ↔ op = ofOrdering (v.compareLoosely literal) := by
  have hequal := Value.equals_iff_compareLoosely hv hliteral hnumber
  rw [holds_of_isScalar hv]
  simp only [List.mem_cons, List.not_mem_nil, or_false] at hop
  rcases hop with rfl | rfl | rfl
  · cases hc : v.compareLoosely literal <;> simp [holdsFor, ofOrdering, hc]
  · simp only [holdsFor, hequal]
    cases v.compareLoosely literal <;> simp [ofOrdering]
  · cases hc : v.compareLoosely literal <;> simp [holdsFor, ofOrdering, hc]

theorem holds_trichotomy :
    (equal.holds v literal = true ↔ atLeast.holds v literal = true ∧ atMost.holds v literal = true) ∧
    (unequal.holds v literal = true ↔ less.holds v literal = true ∨ greater.holds v literal = true) ∧
    ∃! op, op ∈ [less, equal, greater] ∧ op.holds v literal = true := by
  have hholds := holds_of_isScalar hv literal
  have hequal := Value.equals_iff_compareLoosely hv hliteral hnumber
  refine ⟨?_, ?_, ofOrdering (v.compareLoosely literal), ?_, ?_⟩
  · simp only [hholds, holdsFor, hequal]
    cases v.compareLoosely literal <;> simp
  · simp only [hholds, holdsFor, Bool.not_eq_true', ← Bool.not_eq_true, hequal]
    cases v.compareLoosely literal <;> simp
  · have hmem : ofOrdering (v.compareLoosely literal) ∈ [less, equal, greater] := by
      cases v.compareLoosely literal <;> simp [ofOrdering]
    exact ⟨hmem, (holds_iff_ofOrdering hv hliteral hnumber hmem).mpr rfl⟩
  · intro op h
    exact (holds_iff_ofOrdering hv hliteral hnumber h.1).mp h.2

variable (hshort : v.asNumber? = none → literal.textFault? = none)
  (hshort' : literal.asNumber? = none → v.textFault? = none)
include hshort hshort'

theorem fault?_of_isScalar {op : Operator} (hop : op ∈ [equal, unequal, greater, less, atLeast, atMost]) :
    op.fault? v literal = none := by
  have hcompare := Value.compareFault?_of_isScalar hv hliteral hshort hshort'
  have hequal := Value.equalsFault?_of_isScalar hv hnumber
  unfold fault?
  split
  · rfl
  · simp only [List.mem_cons, List.not_mem_nil, or_false] at hop
    rcases hop with rfl | rfl | rfl | rfl | rfl | rfl
    · exact hequal
    · exact hequal
    · exact hcompare
    · exact hcompare
    · exact hcompare
    · exact hcompare

theorem test_of_isScalar {op : Operator} (hop : op ∈ [equal, unequal, greater, less, atLeast, atMost]) :
    op.test v literal = .ok true ↔ op.holds v literal = true := by
  rw [test_eq_ok, and_iff_right (fault?_of_isScalar hv hliteral hnumber hshort hshort' hop)]

end

end Operator

end NoteQuery

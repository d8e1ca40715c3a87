import NoteQuery.Condition
import NoteQuery.Proofs.Number.Whole
import NoteQuery.Proofs.Value.Rank

/-!
# Values as numbers

A comparison looks at the numbers that two values stand for, and only at the places of those. A number is
written as a text that stands for a number as well: for the same one, unless it is an integer that is no float.
-/

namespace NoteQuery

theorem Operator.holds_of_present {v : Value} (h : v.isAbsent = false) (literal : Value) (op : Operator) :
    op.holds v literal = op.holdsFor v literal := by
  unfold holds
  rw [h, if_neg Bool.false_ne_true]

namespace Value

/-- The place of the number that a value stands for. -/
def loosePlace? (v : Value) : Option Number.Place := v.asNumber?.bind (·.place?)

section

variable {v literal : Value}

theorem isOrdinaryNumber_ofNumber {m : Number} (h : v.asNumber? = some m) : (ofNumber m).isOrdinaryNumber = true := by
  cases v with
  | bool b =>
    obtain rfl := Option.some.inj h
    simp [ofNumber, isOrdinaryNumber, Number.isNaN_ofRatio]
  | int n =>
    obtain rfl := Option.some.inj h
    rfl
  | float x =>
    simp only [asNumber?] at h
    split at h
    · cases h
    · rename_i hnan
      obtain rfl := Option.some.inj h
      simpa [ofNumber, isOrdinaryNumber] using hnan
  | text s =>
    simp only [asNumber?, textNumber?, Option.map_eq_some_iff, Option.filter_eq_some_iff] at h
    obtain ⟨x, ⟨-, hnan⟩, rfl⟩ := h
    exact hnan
  | _ => cases h

theorem exists_loosePlace? {m : Number} (h : v.asNumber? = some m) : ∃ p, m.place? = some p ∧ v.loosePlace? = some p := by
  have hnumber : (ofNumber m).number? = some m := by cases m <;> rfl
  obtain ⟨n, p, hn, hp, -⟩ := exists_place? (isOrdinaryNumber_ofNumber h)
  rw [hnumber] at hn
  obtain rfl := Option.some.inj hn
  refine ⟨p, hp, ?_⟩
  rw [loosePlace?, h, Option.bind_some, hp]

theorem loosePlace?_of_isOrdinaryNumber (h : v.isOrdinaryNumber = true) : v.loosePlace? = v.place? := by
  cases v with
  | int n => rfl
  | float x =>
    have hnan : Number.isNaN x = false := by simpa [isOrdinaryNumber] using h
    simp [loosePlace?, asNumber?, hnan, place?, number?]
  | _ => cases h

/-! ## Comparisons -/

theorem equals_of_not_list (h : ∀ t items, v ≠ @list t items) : v.equals literal = v.scalarEquals literal := by
  unfold equals
  split
  · exact absurd rfl (h _ _)
  · rfl

theorem scalarEquals_iff (h : (v.isNumber || literal.isNumber) = true) :
    v.scalarEquals literal = true ↔ ∃ p, v.loosePlace? = some p ∧ literal.loosePlace? = some p := by
  unfold scalarEquals
  split
  · simp [isNumber, number?] at h
  rw [if_pos h]
  cases hv : v.asNumber? with
  | none => simp [loosePlace?, hv]
  | some m =>
    cases hl : literal.asNumber? with
    | none => simp [loosePlace?, hl]
    | some n =>
      -- two numbers are the same if they have one place
      obtain ⟨p, hm, hp⟩ := exists_loosePlace? hv
      obtain ⟨q, hn, hq⟩ := exists_loosePlace? hl
      simp only [Number.same, hm, hn, hp, hq, beq_iff_eq, Option.some_inj]
      constructor
      · intro heq
        exact ⟨p, rfl, heq.symm⟩
      · rintro ⟨o, hpo, hqo⟩
        exact hpo.trans hqo.symm

theorem compareLoosely_of_some {p q : Number.Place} (hv : v.loosePlace? = some p) (hl : literal.loosePlace? = some q) :
    v.compareLoosely literal = compare p.height q.height := by
  obtain ⟨m, hm, hp⟩ := Option.bind_eq_some_iff.mp hv
  obtain ⟨n, hn, hq⟩ := Option.bind_eq_some_iff.mp hl
  unfold compareLoosely
  rw [hm, hn]
  simp only [Number.compare, hp, hq, Number.Place.compare_eq]

theorem compareLoosely_of_none (h : v.loosePlace? = none ∨ literal.loosePlace? = none) :
    v.compareLoosely literal = compare v.toText literal.toText := by
  unfold compareLoosely
  split
  · rename_i m n hm hn
    obtain ⟨p, -, hp⟩ := exists_loosePlace? hm
    obtain ⟨q, -, hq⟩ := exists_loosePlace? hn
    simp [hp, hq] at h
  · rfl

end

/-! ## The text of a number -/

theorem loosePlace?_text {s : String} {x : Float} (h : Number.readFloat? s.toList = some x)
    (hnan : Number.isNaN x = false) : (text s).loosePlace? = (Number.float x).place? := by
  simp [loosePlace?, asNumber?, textNumber?, h, Option.filter, hnan]

theorem loosePlace?_signedDecimal (n : ℤ) : (text (String.ofList (Text.signedDecimal n))).loosePlace? =
    (Number.float (Number.nearest n)).place? := by
  apply loosePlace?_text
  · rw [String.toList_ofList]
    exact Number.readFloat?_signedDecimal n
  · exact Number.isNaN_nearest n

theorem loosePlace?_floatText {x : Float} (hnan : Number.isNaN x = false) :
    (text (Number.floatText x)).loosePlace? = (Number.float x).place? := by
  apply loosePlace?_text _ hnan
  rw [Number.floatText, String.toList_ofList]
  exact Number.readFloat?_floatChars hnan

theorem loosePlace?_toText_ne_none {v : Value} (h : v.isOrdinaryNumber = true) : (text v.toText).loosePlace? ≠ none := by
  have hfloat : ∀ x, Number.isNaN x = false → (Number.float x).place? ≠ none := by
    intro x hnan
    simp [Number.place?, hnan]
    split <;> simp
  rcases ordinary_cases h with ⟨n, -, htext⟩ | ⟨x, -, hnan, -, htext⟩
  · rw [htext, loosePlace?_signedDecimal]
    exact hfloat _ (Number.isNaN_nearest n)
  · rw [htext, loosePlace?_floatText hnan]
    exact hfloat x hnan

theorem loosePlace?_toText {v : Value} (h : v.isOrdinaryNumber = true) (hexact : ∀ n, v = .int n → Number.IsFloat n) :
    (text v.toText).loosePlace? = v.place? := by
  cases v with
  | int n =>
    rw [toText, loosePlace?_signedDecimal, (Number.place?_nearest_iff n).mpr (hexact n rfl)]
    rfl
  | float x =>
    have hnan : Number.isNaN x = false := by simpa [isOrdinaryNumber] using h
    have hplace : (float x).place? = (Number.float x).place? := rfl
    rw [toText, floatText, hplace]
    by_cases hwhole : Number.isWhole x = true
    · have hfloat := Number.isFloat_truncate hwhole
      rw [if_pos hwhole, loosePlace?_signedDecimal, (Number.place?_nearest_iff _).mpr hfloat]
      exact (Number.place?_of_isWhole hnan hwhole).symm
    · rw [if_neg hwhole, loosePlace?_floatText hnan]
  | _ => cases h

end Value

end NoteQuery

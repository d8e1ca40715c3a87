import NoteQuery.Order
import NoteQuery.Proofs.Number.Place
import NoteQuery.Proofs.Text.Digits

/-!
# Ranks of values

Two numbers are ordered by their places, and two values that are no numbers by their texts. Either way
two values tie just if they have the same text, although a number can be an integer or a float.
-/

namespace NoteQuery

/-! ## The text of a float that is not whole -/

namespace Number

theorem Decimal.exists_mark (d : Decimal) : ∃ c ∈ d.text, c = '.' ∨ c = 'e' := by
  rw [text]
  dsimp only
  split
  · refine ⟨'.', ?_, Or.inl rfl⟩
    split
    · simp
    split
    · simp
    · simp
  · exact ⟨'e', List.mem_append_right _ List.mem_cons_self, Or.inr rfl⟩

theorem exists_mark_sizeChars (x : Float) : ∃ c ∈ sizeChars x, c = '.' ∨ c = 'e' ∨ c = 'i' := by
  rw [sizeChars]
  split
  · exact ⟨'i', List.mem_cons_self, Or.inr (Or.inr rfl)⟩
  split
  · exact ⟨'.', by simp, Or.inl rfl⟩
  · obtain ⟨c, hc, hmark⟩ := (shortest x).exists_mark
    exact ⟨c, hc, hmark.imp_right Or.inl⟩

theorem floatText_ne_signedDecimal {x : Float} (hnan : isNaN x = false) (n : ℤ) :
    floatText x ≠ String.ofList (Text.signedDecimal n) := by
  intro h
  obtain ⟨c, hc, hmark⟩ := exists_mark_sizeChars x
  have hmem : c ∈ Text.signedDecimal n := by
    rw [← String.ofList_injective h, floatChars_eq hnan]
    split
    · exact List.mem_cons_of_mem _ hc
    · exact hc
  rcases Text.mem_signedDecimal hmem with rfl | hdigit
  · exact absurd hmark (by decide)
  · rcases hmark with rfl | rfl | rfl <;> exact absurd hdigit (by decide)

end Number

/-! ## Numbers with a place -/

namespace Value

def isOrdinaryNumber : Value → Bool
  | .int _ => true
  | .float x => !Number.isNaN x
  | _ => false

def place? (v : Value) : Option Number.Place := v.number?.bind (·.place?)

/-- A number is written as the integer that it equals, or it is a float that equals none. -/
theorem ordinary_cases {v : Value} (h : v.isOrdinaryNumber = true) :
    (∃ n : ℤ, v.place? = some (.at (n * Number.unit)) ∧ v.toText = String.ofList (Text.signedDecimal n)) ∨
      ∃ x, v.place? = (Number.float x).place? ∧ Number.isNaN x = false ∧ Number.isWhole x = false ∧
        v.toText = Number.floatText x := by
  cases v with
  | int n =>
    refine Or.inl ⟨n, rfl, ?_⟩
    rw [toText]
  | float x =>
    have hnan : Number.isNaN x = false := by simpa [isOrdinaryNumber] using h
    cases hwhole : Number.isWhole x with
    | true =>
      refine Or.inl ⟨Number.truncate x, Number.place?_of_isWhole hnan hwhole, ?_⟩
      rw [toText, floatText, if_pos hwhole]
    | false =>
      refine Or.inr ⟨x, rfl, hnan, hwhole, ?_⟩
      rw [toText, floatText, hwhole, if_neg Bool.false_ne_true]
  | _ => cases h

theorem place?_eq_iff {v w : Value} (hv : v.isOrdinaryNumber = true) (hw : w.isOrdinaryNumber = true) :
    v.place? = w.place? ↔ v.toText = w.toText := by
  rcases ordinary_cases hv with ⟨m, hm, hvtext⟩ | ⟨x, hx, hxnan, hxwhole, hvtext⟩
  · rcases ordinary_cases hw with ⟨n, hn, hwtext⟩ | ⟨y, hy, hynan, hywhole, hwtext⟩
    · have hunit : (Number.unit : ℤ) ≠ 0 := Int.natCast_ne_zero.mpr Number.unit_pos.ne'
      rw [hm, hn, hvtext, hwtext, Option.some_inj, Number.Place.at.injEq, Int.mul_eq_mul_right_iff hunit,
        String.ofList_inj, Text.signedDecimal_inj]
    · rw [hm, hy, hvtext, hwtext]
      exact iff_of_false (Number.place?_ne_of_not_isWhole hywhole m).symm
        (Number.floatText_ne_signedDecimal hynan m).symm
  · rcases ordinary_cases hw with ⟨n, hn, hwtext⟩ | ⟨y, hy, hynan, hywhole, hwtext⟩
    · rw [hx, hn, hvtext, hwtext]
      exact iff_of_false (Number.place?_ne_of_not_isWhole hxwhole n) (Number.floatText_ne_signedDecimal hxnan n)
    · rw [hx, hy, hvtext, hwtext]
      constructor
      · intro hplace
        rw [Number.eq_of_place? hxnan hynan hxwhole hplace]
      · intro htext
        rw [Number.floatText_injOn hxnan hynan htext]

/-! ## Ranks -/

/-- Values of one kind, either numbers other than NaN or no numbers at all. -/
def Alike (vs : List Value) : Prop := (∀ v ∈ vs, v.isOrdinaryNumber = true) ∨ ∀ v ∈ vs, v.isNumber = false

/-- Ranks by which some values are ordered, and which tell their texts apart. -/
structure IsRanking {κ : Type} [LinearOrder κ] (rank : Value → κ) (vs : List Value) : Prop where
  order : ∀ v ∈ vs, ∀ w ∈ vs, v.order w = compare (rank v) (rank w)
  text : ∀ v ∈ vs, ∀ w ∈ vs, rank v = rank w ↔ v.toText = w.toText

/-- The height of a number; values without a place are left at the bottom. -/
def height (v : Value) : WithBot (WithTop ℤ) := v.place?.elim ⊥ Number.Place.height

theorem exists_place? {v : Value} (h : v.isOrdinaryNumber = true) :
    ∃ m p, v.number? = some m ∧ m.place? = some p ∧ v.place? = some p := by
  cases v with
  | int n => exact ⟨_, _, rfl, rfl, rfl⟩
  | float x =>
    have hnan : Number.isNaN x = false := by simpa [isOrdinaryNumber] using h
    obtain ⟨p, hp⟩ : ∃ p, (Number.float x).place? = some p := by
      simp only [Number.place?, hnan, Bool.false_eq_true, if_false]
      split
      · exact ⟨_, rfl⟩
      · exact ⟨_, rfl⟩
    exact ⟨_, p, rfl, hp, hp⟩
  | _ => cases h

theorem isRanking_height {vs : List Value} (h : ∀ v ∈ vs, v.isOrdinaryNumber = true) : IsRanking height vs where
  order := by
    intro v hv w hw
    obtain ⟨m, p, hm, hp, hvp⟩ := exists_place? (h v hv)
    obtain ⟨n, q, hn, hq, hwq⟩ := exists_place? (h w hw)
    rw [order, hm, hn]
    dsimp only
    rw [Number.compare, hp, hq, height, height, hvp, hwq]
    exact p.compare_eq q
  text := by
    intro v hv w hw
    obtain ⟨-, p, -, -, hvp⟩ := exists_place? (h v hv)
    obtain ⟨-, q, -, -, hwq⟩ := exists_place? (h w hw)
    rw [← place?_eq_iff (h v hv) (h w hw), height, height, hvp, hwq, Option.some_inj]
    exact Number.Place.height_injective.eq_iff

theorem isRanking_toText {vs : List Value} (h : ∀ v ∈ vs, v.isNumber = false) : IsRanking toText vs where
  order := by
    intro v hv w hw
    have hnone : v.number? = none := by simpa [isNumber] using h v hv
    rw [order, hnone]
  text := fun _ _ _ _ => Iff.rfl

theorem Alike.exists_isRanking {vs : List Value} (h : Alike vs) :
    ∃ (κ : Type) (_ : LinearOrder κ) (rank : Value → κ), IsRanking rank vs := by
  rcases h with hnumbers | hothers
  · exact ⟨_, inferInstance, height, isRanking_height hnumbers⟩
  · exact ⟨_, inferInstance, toText, isRanking_toText hothers⟩

theorem Alike.order_eq_iff {vs : List Value} (h : Alike vs) {v w : Value} (hv : v ∈ vs) (hw : w ∈ vs) :
    v.order w = .eq ↔ v.toText = w.toText := by
  obtain ⟨κ, _, rank, hrank⟩ := h.exists_isRanking
  rw [hrank.order v hv w hw, compare_eq_iff_eq, hrank.text v hv w hw]

theorem IsRanking.mayPrecede_iff {κ : Type} [LinearOrder κ] {rank : Value → κ} {vs : List Value} (h : IsRanking rank vs)
    (descending : Bool) {v w : Value} (hv : v ∈ vs) (hw : w ∈ vs) :
    mayPrecede descending v w = true ↔ if descending then rank w ≤ rank v else rank v ≤ rank w := by
  rw [mayPrecede, h.order v hv w hw]
  cases descending with
  | true => exact Ordering.isGE_iff_ne_lt.trans compare_ge_iff_ge
  | false => exact Ordering.isLE_iff_ne_gt.trans compare_le_iff_le

end Value

end NoteQuery

import NoteQuery.Number.Basic
import NoteQuery.Proofs.Number.FloatText

/-!
# Places of numbers

The order of places is that of the integers with an end on either side. Floats that are whole stand
where an integer stands; every other float has a place to itself.
-/

namespace NoteQuery.Number

namespace Place

def height : Place → WithBot (WithTop ℤ)
  | .below => ⊥
  | .at n => ((n : WithTop ℤ) : WithBot (WithTop ℤ))
  | .above => ((⊤ : WithTop ℤ) : WithBot (WithTop ℤ))

theorem height_injective : Function.Injective height := by
  intro p q h
  cases p <;> cases q <;> simp_all [height]

theorem compare_eq (p q : Place) : p.compare q = Ord.compare p.height q.height := by
  have hbelow : ∀ a : WithTop ℤ, (⊥ : WithBot (WithTop ℤ)) < a := WithBot.bot_lt_coe
  have habove : ∀ n : ℤ, ((n : WithTop ℤ) : WithBot (WithTop ℤ)) < ((⊤ : WithTop ℤ) : WithBot (WithTop ℤ)) :=
    fun n => WithBot.coe_lt_coe.mpr (WithTop.coe_lt_top n)
  -- both ends and the integers between them, against each other
  cases p with
  | below =>
    cases q with
    | below => exact (compare_eq_iff_eq.mpr rfl).symm
    | «at» n => exact (compare_lt_iff_lt.mpr (hbelow _)).symm
    | above => exact (compare_lt_iff_lt.mpr (hbelow _)).symm
  | «at» m =>
    cases q with
    | below => exact (compare_gt_iff_gt.mpr (hbelow _)).symm
    | above => exact (compare_lt_iff_lt.mpr (habove m)).symm
    | «at» n =>
      rw [Place.compare]
      rcases lt_trichotomy m n with hlt | rfl | hgt
      · rw [compare_lt_iff_lt.mpr hlt]
        exact (compare_lt_iff_lt.mpr (WithBot.coe_lt_coe.mpr (WithTop.coe_lt_coe.mpr hlt))).symm
      · rw [compare_eq_iff_eq.mpr rfl]
        exact (compare_eq_iff_eq.mpr rfl).symm
      · rw [compare_gt_iff_gt.mpr hgt]
        exact (compare_gt_iff_gt.mpr (WithBot.coe_lt_coe.mpr (WithTop.coe_lt_coe.mpr hgt))).symm
  | above =>
    cases q with
    | below => exact (compare_gt_iff_gt.mpr (hbelow _)).symm
    | «at» n => exact (compare_gt_iff_gt.mpr (habove n)).symm
    | above => exact (compare_eq_iff_eq.mpr rfl).symm

end Place

/-! ## Floats by their magnitude -/

section

variable {x y : Float}

theorem lastPlace_mono (h : magnitude x ≤ magnitude y) : lastPlace x ≤ lastPlace y := by
  by_contra hlt
  obtain ⟨k, hk⟩ := Nat.exists_eq_add_of_lt (Nat.not_le.mp hlt)
  have hx := le_significand x (by omega)
  have hy := significand_lt y
  have hpow : 2 ^ lastPlace x = 2 * 2 ^ k * 2 ^ lastPlace y := by
    rw [hk, pow_succ, pow_add]
    ring
  have hsmall : magnitude y < 2 ^ 53 * 2 ^ lastPlace y := Nat.mul_lt_mul_of_pos_right hy (Nat.two_pow_pos _)
  have hlarge : 2 ^ 53 * 2 ^ lastPlace y ≤ magnitude x := by
    calc 2 ^ 53 * 2 ^ lastPlace y ≤ 2 ^ 53 * (2 ^ k * 2 ^ lastPlace y) :=
          Nat.mul_le_mul_left _ (Nat.le_mul_of_pos_left _ (Nat.two_pow_pos k))
      _ = 2 ^ 52 * 2 ^ lastPlace x := by
          rw [hpow]
          ring
      _ ≤ magnitude x := Nat.mul_le_mul_right _ hx
  omega

theorem sizeBits_of_magnitude (h : magnitude x = magnitude y) : sizeBits x = sizeBits y := by
  have hplace := Nat.le_antisymm (lastPlace_mono h.le) (lastPlace_mono h.ge)
  have hsignificand : significand x = significand y := by
    rw [magnitude, magnitude, hplace] at h
    exact Nat.eq_of_mul_eq_mul_right (Nat.two_pow_pos _) h
  rw [sizeBits_eq x, sizeBits_eq y, hplace, hsignificand]

theorem natAbs_units (x : Float) : (units x).natAbs = magnitude x := by
  rw [units]
  split
  · rw [Int.natAbs_neg, Int.natAbs_natCast]
  · rw [Int.natAbs_natCast]

theorem eq_of_units (h : units x = units y) (hne : magnitude x ≠ 0) : x = y := by
  have hmagnitude : magnitude x = magnitude y := by rw [← natAbs_units, ← natAbs_units, h]
  refine eq_of_bits ?_ (sizeBits_of_magnitude hmagnitude)
  rw [units, units, ← hmagnitude] at h
  cases hx : isNegative x <;> cases hy : isNegative y <;> simp only [hx, hy, if_true, if_false, Bool.false_eq_true] at h
  · rfl
  · omega
  · omega
  · rfl

/-! ## Whole floats -/

theorem dvd_units_iff (x : Float) : (unit : ℤ) ∣ units x ↔ magnitude x % unit = 0 := by
  rw [Int.natCast_dvd, natAbs_units, Nat.dvd_iff_mod_eq_zero]

theorem place?_of_isWhole (hnan : isNaN x = false) (h : isWhole x = true) :
    place? (.float x) = some (.at (truncate x * unit)) := by
  rw [isWhole, Bool.and_eq_true, beq_iff_eq] at h
  obtain ⟨hfinite, hdvd⟩ := h
  have hunits : units x = truncate x * unit := (Int.tdiv_mul_cancel ((dvd_units_iff x).mpr hdvd)).symm
  simp only [place?, hnan, hfinite, if_true, Bool.false_eq_true, if_false, hunits]

theorem place?_ne_of_not_isWhole (h : isWhole x = false) (n : ℤ) : place? (.float x) ≠ some (.at (n * unit)) := by
  intro hplace
  rw [place?] at hplace
  split at hplace
  · cases hplace
  split at hplace
  · rename_i hfinite
    have hunits : units x = n * unit := Place.at.inj (Option.some.inj hplace)
    have hdvd : (unit : ℤ) ∣ units x := ⟨n, by rw [hunits, mul_comm]⟩
    rw [isWhole, hfinite, Bool.true_and, beq_eq_false_iff_ne] at h
    exact h ((dvd_units_iff x).mp hdvd)
  · split at hplace <;> cases hplace

theorem eq_of_place? (hx : isNaN x = false) (hy : isNaN y = false) (hwhole : isWhole x = false)
    (h : place? (.float x) = place? (.float y)) : x = y := by
  simp only [place?, hx, hy, Bool.false_eq_true, if_false] at h
  cases hfx : isFinite x with
  | true =>
    cases hfy : isFinite y with
    | true =>
      simp only [hfx, hfy, if_true] at h
      -- zero is the only place of two floats, and it is whole
      refine eq_of_units (Place.at.inj (Option.some.inj h)) fun hzero => ?_
      rw [isWhole, hfx, hzero, Nat.zero_mod] at hwhole
      cases hwhole
    | false =>
      simp only [hfx, hfy, if_true, Bool.false_eq_true, if_false] at h
      split at h <;> cases h
  | false =>
    cases hfy : isFinite y with
    | true =>
      simp only [hfx, hfy, if_true, Bool.false_eq_true, if_false] at h
      split at h <;> cases h
    | false =>
      have hsign : isNegative x = isNegative y := by
        cases hnx : isNegative x <;> cases hny : isNegative y <;> simp_all
      rw [eq_infinity hx hfx, eq_infinity hy hfy, hsign]

end

end NoteQuery.Number

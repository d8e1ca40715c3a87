import NoteQuery.Proofs.Number.Place

/-!
# Integers as floats

The decimal text of an integer is read as the float nearest to it. That is the integer itself if its bits
from the first to the last one that is set are no more than 53, and if it is in the range of floats.
-/

namespace NoteQuery.Number

/-! ## Bits of a rounded ratio -/

section

variable (negative : Bool) (num den : ℕ)

theorem toNat_toBits_ofRatio : (ofRatio negative num den).toBits.toNat =
    (if negative then 2 ^ 63 else 0) + if num = 0 then 0 else nearestBits num den := by
  have hle : (if num = 0 then 0 else nearestBits num den) ≤ 2047 * 2 ^ 52 := by
    split
    · exact Nat.zero_le _
    · exact nearestBits_le num den
  unfold ofRatio
  dsimp only
  generalize (if num = 0 then 0 else nearestBits num den) = bits at hle ⊢
  have hword : (if negative = true then twoTo 63 + bits else bits) = (if negative then 2 ^ 63 else 0) + bits := by
    cases negative <;> simp [twoTo_eq]
  rw [hword]
  have hlt : (if negative then 2 ^ 63 else 0) + bits < 2 ^ 64 := by
    split <;> omega
  have hn : (UInt64.ofNat ((if negative then 2 ^ 63 else 0) + bits)).toNat = (if negative then 2 ^ 63 else 0) + bits :=
    UInt64.toNat_ofNat_of_lt' hlt
  rw [toBits_ofBits, hn]
  rw [hn]
  simp only [twoTo_eq]
  split <;> omega

theorem sizeBits_ofRatio : sizeBits (ofRatio negative num den) = if num = 0 then 0 else nearestBits num den := by
  have hle := nearestBits_le num den
  unfold sizeBits
  rw [toNat_toBits_ofRatio]
  simp only [twoTo_eq] at hle ⊢
  split <;> split <;> omega

theorem isNegative_ofRatio : isNegative (ofRatio negative num den) = negative := by
  have hle := nearestBits_le num den
  unfold isNegative
  rw [toNat_toBits_ofRatio, Bool.eq_iff_iff, beq_iff_eq]
  simp only [twoTo_eq] at hle ⊢
  cases negative <;> simp <;> split <;> omega

end

/-- The significand carries into the exponent if it is rounded up to 54 bits. -/
theorem magnitude_of_sizeBits {x : Float} {k r : ℕ} (h : sizeBits x = k * 2 ^ 52 + r) (hlow : 2 ^ 52 ≤ r)
    (hhigh : r ≤ 2 ^ 53) : magnitude x = r * 2 ^ k := by
  have hcases := significand_cases x
  have hplace := lastPlace_eq x
  unfold magnitude
  rw [twoTo_eq]
  by_cases hcarry : r = 2 ^ 53
  · have hsignificand : significand x = 2 ^ 52 := by omega
    have hlast : lastPlace x = k + 1 := by omega
    rw [hsignificand, hlast, hcarry]
    ring
  · have hsignificand : significand x = r := by omega
    have hlast : lastPlace x = k := by omega
    rw [hsignificand, hlast]

/-! ## Rounding to 53 bits -/

/-- The natural number nearest to `n` of those that have only zeros behind their first 53 bits. -/
def rounded (n : ℕ) : ℕ := roundRatio n (2 ^ (n.log2 - 52)) * 2 ^ (n.log2 - 52)

theorem roundRatio_of_dvd {n d : ℕ} (hd : 0 < d) (h : d ∣ n) : roundRatio n d = n / d := by
  unfold roundRatio
  simp [Nat.mod_eq_zero_of_dvd h, hd]

theorem rounded_eq_iff (n : ℕ) : rounded n = n ↔ 2 ^ (n.log2 - 52) ∣ n := by
  unfold rounded
  constructor
  · intro h
    exact ⟨_, (h.symm.trans (Nat.mul_comm _ _))⟩
  · intro h
    rw [roundRatio_of_dvd (Nat.two_pow_pos _) h, Nat.div_mul_cancel h]

theorem pow_eq_unit {i : ℕ} (h : i = 1074) : 2 ^ i = unit := by
  rw [unit, ← h, twoTo_eq]

theorem pow_add_unit {i j : ℕ} (h : i = j + 1074) : 2 ^ i = 2 ^ j * unit := by
  obtain ⟨k, rfl⟩ : ∃ k, i = j + k := ⟨_, h⟩
  rw [Nat.pow_add, pow_eq_unit (Nat.add_left_cancel h)]

section

variable {n : ℕ} (hn : 0 < n)
include hn

theorem scaleOf_one : scaleOf n 1 = n.log2 - 52 := by
  have hlog : Int.log 2 ((n : ℚ) / (1 : ℕ)) = n.log2 := by
    rw [Nat.cast_one, div_one, Int.log_natCast, Nat.log2_eq_log_two]
  rw [scaleOf_eq hn Nat.one_pos, hlog]
  omega

theorem pow_log2_le : 2 ^ n.log2 ≤ n ∧ n < 2 ^ (n.log2 + 1) :=
  ⟨Nat.log2_self_le hn.ne', Nat.lt_log2_self⟩

theorem roundedOn_of_large (h : 52 ≤ n.log2) : 2 ^ 52 ≤ roundedOn (n.log2 - 52) n 1 ∧
    roundedOn (n.log2 - 52) n 1 ≤ 2 ^ 53 ∧ roundedOn (n.log2 - 52) n 1 * 2 ^ (1022 + n.log2) = rounded n * unit := by
  obtain ⟨hlow, hhigh⟩ := pow_log2_le hn
  obtain ⟨j, hj⟩ := Nat.exists_eq_add_of_le h
  have hscale : ((n.log2 : ℤ) - 52).toNat = j := by omega
  have hsub : n.log2 - 52 = j := by omega
  have hpow : 2 ^ (1022 + n.log2) = 2 ^ j * unit := pow_add_unit (by omega)
  rw [hj, Nat.pow_add] at hlow
  rw [hj, show 52 + j + 1 = 53 + j by omega, Nat.pow_add] at hhigh
  have hge : 2 ^ 52 ≤ n / 2 ^ j := (Nat.le_div_iff_mul_le (Nat.two_pow_pos j)).mpr hlow
  have hlt : n / 2 ^ j < 2 ^ 53 := (Nat.div_lt_iff_lt_mul (Nat.two_pow_pos j)).mpr hhigh
  have hround := roundRatio_cases n (2 ^ j)
  unfold roundedOn rounded
  rw [if_pos (by omega), hscale, hsub, Nat.one_mul, twoTo_eq, hpow]
  refine ⟨by omega, by omega, ?_⟩
  rw [Nat.mul_assoc]

theorem roundedOn_of_small (h : n.log2 ≤ 52) : 2 ^ 52 ≤ roundedOn (n.log2 - 52) n 1 ∧
    roundedOn (n.log2 - 52) n 1 ≤ 2 ^ 53 ∧ roundedOn (n.log2 - 52) n 1 * 2 ^ (1022 + n.log2) = rounded n * unit := by
  obtain ⟨hlow, hhigh⟩ := pow_log2_le hn
  obtain ⟨i, hi⟩ := Nat.exists_eq_add_of_le h
  -- nothing is rounded: the number is scaled up until it has 53 bits
  have hon : roundedOn (n.log2 - 52) n 1 = n * 2 ^ i := by
    unfold roundedOn
    by_cases hzero : i = 0
    · have hscale : ((n.log2 : ℤ) - 52).toNat = 0 := by omega
      rw [if_pos (by omega), hscale, hzero, twoTo_eq]
      simp [roundRatio_of_dvd]
    · have hscale : (-((n.log2 : ℤ) - 52)).toNat = i := by omega
      rw [if_neg (by omega), hscale, twoTo_eq]
      simp [roundRatio_of_dvd]
  have hself : rounded n = n := by
    rw [rounded_eq_iff, show n.log2 - 52 = 0 by omega]
    exact Nat.one_dvd n
  have hpow : 2 ^ (i + (1022 + n.log2)) = unit := pow_eq_unit (by omega)
  have hge := Nat.mul_le_mul_right (2 ^ i) hlow
  have hle := Nat.mul_le_mul_right (2 ^ i) hhigh.le
  rw [← Nat.pow_add] at hge hle
  rw [show n.log2 + i = 52 by omega] at hge
  rw [show n.log2 + 1 + i = 53 by omega] at hle
  rw [hon, hself]
  refine ⟨hge, hle, ?_⟩
  rw [Nat.mul_assoc, ← Nat.pow_add, hpow]

/-- On its own scale a positive integer has 53 bits, or is rounded up to 54. -/
theorem roundedOn_one : 2 ^ 52 ≤ roundedOn (n.log2 - 52) n 1 ∧ roundedOn (n.log2 - 52) n 1 ≤ 2 ^ 53 ∧
    roundedOn (n.log2 - 52) n 1 * 2 ^ (1022 + n.log2) = rounded n * unit := by
  by_cases h : 52 ≤ n.log2
  · exact roundedOn_of_large hn h
  · exact roundedOn_of_small hn (Nat.le_of_not_le h)

theorem nearestBits_one : nearestBits n 1 =
    min ((1022 + n.log2) * 2 ^ 52 + roundedOn (n.log2 - 52) n 1) (2047 * 2 ^ 52) := by
  have hscale : ((n.log2 : ℤ) - 52 + 1074).toNat = 1022 + n.log2 := by omega
  rw [nearestBits_eq, scaleOf_one hn, hscale, twoTo_eq]

theorem isFinite_ofRatio_one (negative : Bool) : isFinite (ofRatio negative n 1) = true ↔
    (1022 + n.log2) * 2 ^ 52 + roundedOn (n.log2 - 52) n 1 < 2047 * 2 ^ 52 := by
  rw [isFinite_iff, sizeBits_ofRatio, if_neg hn.ne', nearestBits_one hn, twoTo_eq]
  omega

theorem magnitude_ofRatio_one {negative : Bool} (hfinite : isFinite (ofRatio negative n 1) = true) :
    magnitude (ofRatio negative n 1) = rounded n * unit := by
  obtain ⟨hlow, hhigh, hvalue⟩ := roundedOn_one hn
  have hlt := (isFinite_ofRatio_one hn negative).mp hfinite
  have hbits : sizeBits (ofRatio negative n 1) = (1022 + n.log2) * 2 ^ 52 + roundedOn (n.log2 - 52) n 1 := by
    rw [sizeBits_ofRatio, if_neg hn.ne', nearestBits_one hn]
    exact Nat.min_eq_left hlt.le
  rw [magnitude_of_sizeBits hbits hlow hhigh, hvalue]

theorem isFinite_of_rounded (negative : Bool) (h : rounded n = n) :
    isFinite (ofRatio negative n 1) = true ↔ n < 2 ^ 1024 := by
  obtain ⟨hlow, -, hvalue⟩ := roundedOn_one hn
  have hlog := Nat.log2_lt hn.ne' (k := 1024)
  have hlt : roundedOn (n.log2 - 52) n 1 < 2 ^ 53 := by
    have hpow : 2 ^ (53 + (1022 + n.log2)) = 2 ^ (n.log2 + 1) * unit := pow_add_unit (by omega)
    have hless := Nat.mul_lt_mul_of_pos_right (pow_log2_le hn).2 unit_pos
    rw [← hpow, Nat.pow_add, ← h, ← hvalue, h] at hless
    exact Nat.lt_of_mul_lt_mul_right hless
  rw [isFinite_ofRatio_one hn, ← hlog]
  omega

end

/-! ## The range of floats -/

/-- Half a step above an odd number a ratio is no longer rounded to it. -/
theorem roundRatio_le_iff {n d q m : ℕ} (hd : 0 < d) (hodd : q % 2 = 1) (hhalf : (2 * q + 1) * d = 2 * m) :
    roundRatio n d ≤ q ↔ n < m := by
  have hsplit := Nat.div_add_mod n d
  have hrem := Nat.mod_lt n hd
  have hround := roundRatio_cases n d
  have hexpand : (2 * q + 1) * d = 2 * (d * q) + d := by ring
  rcases Nat.lt_trichotomy (n / d) q with hlt | heq | hgt
  · have hmul := Nat.mul_le_mul_left d (Nat.succ_le_of_lt hlt)
    rw [Nat.mul_succ] at hmul
    refine iff_of_true ?_ ?_ <;> omega
  · rw [heq] at hsplit
    unfold roundRatio
    simp only [heq, hodd]
    split
    · refine iff_of_true ?_ ?_ <;> omega
    · split <;> refine iff_of_false ?_ ?_ <;> omega
  · have hmul := Nat.mul_le_mul_left d (Nat.succ_le_of_lt hgt)
    rw [Nat.mul_succ] at hmul
    refine iff_of_false ?_ ?_ <;> omega

theorem pow_le_tooLarge {k : ℕ} (h : k < 1024) : 2 ^ k ≤ tooLarge := by
  have hlast : 2 ^ 1023 ≤ tooLarge := by decide +kernel
  exact (pow_le_pow_right₀ Nat.one_le_ofNat (Nat.le_of_lt_succ h)).trans hlast

theorem tooLarge_le_pow {k : ℕ} (h : 1024 ≤ k) : tooLarge ≤ 2 ^ k := by
  have hfirst : tooLarge ≤ 2 ^ 1024 := by decide +kernel
  exact hfirst.trans (pow_le_pow_right₀ Nat.one_le_ofNat h)

/-- The first integer without a float is half a step above the greatest float. -/
theorem isFinite_ofRatio_one_iff {n : ℕ} (hn : 0 < n) (negative : Bool) :
    isFinite (ofRatio negative n 1) = true ↔ n < tooLarge := by
  obtain ⟨hleast, hmost, -⟩ := roundedOn_one hn
  rw [isFinite_ofRatio_one hn]
  rcases Nat.lt_trichotomy n.log2 1023 with hlt | heq | hgt
  · refine iff_of_true ?_ ((pow_log2_le hn).2.trans_le (pow_le_tooLarge (Nat.succ_lt_succ hlt)))
    omega
  · have hscale : roundedOn (n.log2 - 52) n 1 = roundRatio n (2 ^ 971) := by
      have hplaces : (((1023 : ℕ) : ℤ) - 52).toNat = 971 := by decide
      unfold roundedOn
      rw [heq, if_pos (by decide), hplaces, Nat.one_mul, twoTo_eq]
    have hle : roundRatio n (2 ^ 971) ≤ 2 ^ 53 - 1 ↔ n < tooLarge := by
      apply roundRatio_le_iff
      · positivity
      · norm_num
      · decide +kernel
    rw [hscale, heq, ← hle]
    omega
  · refine iff_of_false ?_ (Nat.not_lt.mpr ((tooLarge_le_pow hgt).trans (pow_log2_le hn).1))
    omega

/-! ## Integers -/

structure IsFloat (m : ℤ) : Prop where
  range : m.natAbs < 2 ^ 1024
  bits : ∃ s k, s < 2 ^ 53 ∧ m.natAbs = s * 2 ^ k

theorem isFloat_of_le {m : ℤ} (h : m.natAbs ≤ 2 ^ 53) : IsFloat m := by
  constructor
  · refine lt_of_le_of_lt h ?_
    rw [Nat.pow_lt_pow_iff_right Nat.one_lt_two]
    decide
  · by_cases hlast : m.natAbs = 2 ^ 53
    · exact ⟨1, 53, by decide, by rw [hlast, Nat.one_mul]⟩
    · exact ⟨m.natAbs, 0, by omega, by rw [Nat.pow_zero, Nat.mul_one]⟩

theorem exists_bits_iff {n : ℕ} (hn : 0 < n) : (∃ s k, s < 2 ^ 53 ∧ n = s * 2 ^ k) ↔ rounded n = n := by
  rw [rounded_eq_iff]
  constructor
  · rintro ⟨s, k, hs, hsk⟩
    have hlt : n < 2 ^ (53 + k) := by
      rw [hsk, Nat.pow_add]
      exact Nat.mul_lt_mul_of_pos_right hs (Nat.two_pow_pos k)
    have hlog := (Nat.log2_lt hn.ne').mpr hlt
    have hdvd : 2 ^ k ∣ n := ⟨s, hsk.trans (Nat.mul_comm _ _)⟩
    exact (Nat.pow_dvd_pow 2 (by omega)).trans hdvd
  · intro h
    refine ⟨n / 2 ^ (n.log2 - 52), n.log2 - 52, ?_, (Nat.div_mul_cancel h).symm⟩
    rw [Nat.div_lt_iff_lt_mul (Nat.two_pow_pos _), ← Nat.pow_add]
    exact (pow_log2_le hn).2.trans_le (Nat.pow_le_pow_right (by decide) (by omega))

/-- The float nearest to an integer, infinite beyond the range of floats. -/
def nearest (m : ℤ) : Float := ofRatio (m < 0) m.natAbs 1

theorem isNaN_nearest (m : ℤ) : isNaN (nearest m) = false := isNaN_ofRatio _ _ _

theorem isFinite_nearest_iff (m : ℤ) : isFinite (nearest m) = true ↔ m.natAbs < tooLarge := by
  by_cases hzero : m = 0
  · subst hzero
    exact iff_of_true (by decide +kernel) (by decide +kernel)
  · exact isFinite_ofRatio_one_iff (Int.natAbs_pos.mpr hzero) _

theorem isWhole_nearest (m : ℤ) : isWhole (nearest m) = isFinite (nearest m) := by
  by_cases hzero : m = 0
  · subst hzero
    decide +kernel
  · unfold isWhole
    by_cases hfinite : isFinite (nearest m) = true
    · have hmagnitude := magnitude_ofRatio_one (Int.natAbs_pos.mpr hzero) hfinite
      rw [hfinite, Bool.true_and, nearest, hmagnitude]
      simp
    · rw [Bool.eq_false_iff.mpr hfinite, Bool.false_and]

theorem nearest_of_large {m : ℤ} (h : tooLarge ≤ m.natAbs) : nearest m = infinity (decide (m < 0)) := by
  have hinfinite : isFinite (nearest m) = false :=
    Bool.eq_false_iff.mpr (mt (isFinite_nearest_iff m).mp (Nat.not_lt.mpr h))
  rw [eq_infinity (isNaN_nearest m) hinfinite, nearest, isNegative_ofRatio]

theorem units_nearest {m : ℤ} (hfinite : isFinite (nearest m) = true) (hm : m ≠ 0) :
    units (nearest m) = if m < 0 then -((rounded m.natAbs * unit : ℕ) : ℤ) else (rounded m.natAbs * unit : ℕ) := by
  have hmagnitude := magnitude_ofRatio_one (Int.natAbs_pos.mpr hm) hfinite
  unfold units nearest
  simp only [isNegative_ofRatio, hmagnitude, decide_eq_true_iff]

theorem place?_nearest {m : ℤ} : place? (.float (nearest m)) =
    some (if isFinite (nearest m) then .at (units (nearest m)) else if m < 0 then .below else .above) := by
  have hsign : isNegative (nearest m) = decide (m < 0) := isNegative_ofRatio _ _ _
  simp only [place?, isNaN_nearest, hsign, Bool.false_eq_true, if_false, decide_eq_true_iff]
  split <;> rfl

theorem signed_mul_eq_iff {m : ℤ} {r u : ℕ} (hu : 0 < u) :
    (if m < 0 then -((r * u : ℕ) : ℤ) else (r * u : ℕ)) = m * u ↔ r = m.natAbs := by
  have hne : (u : ℤ) ≠ 0 := by omega
  rw [Nat.cast_mul]
  by_cases hneg : m < 0
  · rw [if_pos hneg, ← neg_mul, Int.mul_eq_mul_right_iff hne]
    omega
  · rw [if_neg hneg, Int.mul_eq_mul_right_iff hne]
    omega

theorem place?_nearest_iff (m : ℤ) : place? (.float (nearest m)) = some (.at (m * unit)) ↔ IsFloat m := by
  by_cases hzero : m = 0
  · subst hzero
    exact iff_of_true (by decide +kernel) (isFloat_of_le (Nat.zero_le _))
  · have hpos : 0 < m.natAbs := Int.natAbs_pos.mpr hzero
    have hunit := unit_pos
    have hplace : place? (.float (nearest m)) = some (.at (m * unit)) ↔
        isFinite (nearest m) = true ∧ rounded m.natAbs = m.natAbs := by
      rw [place?_nearest, Option.some_inj]
      by_cases hfinite : isFinite (nearest m) = true
      · rw [if_pos hfinite, Place.at.injEq, units_nearest hfinite hzero, and_iff_right hfinite]
        exact signed_mul_eq_iff hunit
      · rw [if_neg hfinite]
        refine iff_of_false ?_ (fun h => hfinite h.1)
        split <;> exact Place.noConfusion
    rw [hplace]
    constructor
    · rintro ⟨hfinite, hrounded⟩
      exact ⟨(isFinite_of_rounded hpos _ hrounded).mp hfinite, (exists_bits_iff hpos).mpr hrounded⟩
    · rintro ⟨hrange, hbits⟩
      have hrounded := (exists_bits_iff hpos).mp hbits
      exact ⟨(isFinite_of_rounded hpos _ hrounded).mpr hrange, hrounded⟩

theorem isFloat_truncate {x : Float} (h : isWhole x = true) : IsFloat (truncate x) := by
  rw [isWhole, Bool.and_eq_true, beq_iff_eq] at h
  obtain ⟨hfinite, hdvd⟩ := h
  have hlast := lastPlace_le hfinite
  have hsignificand := significand_lt x
  have hsize : (truncate x).natAbs * unit = significand x * 2 ^ lastPlace x := by
    have hunits := Int.tdiv_mul_cancel ((dvd_units_iff x).mpr hdvd)
    rw [← Int.natAbs_natCast unit, ← Int.natAbs_mul, truncate, hunits, natAbs_units]
    rfl
  -- the last place is a whole number, or the float is below two to the 53rd
  by_cases hlarge : 1074 ≤ lastPlace x
  · obtain ⟨k, hk⟩ := Nat.exists_eq_add_of_le' hlarge
    rw [pow_add_unit hk, ← Nat.mul_assoc] at hsize
    have hbits := Nat.eq_of_mul_eq_mul_right unit_pos hsize
    have hlt : (truncate x).natAbs < 2 ^ (53 + k) := by
      rw [hbits, Nat.pow_add]
      exact Nat.mul_lt_mul_of_pos_right hsignificand (Nat.two_pow_pos k)
    refine ⟨lt_of_lt_of_le hlt ?_, _, k, hsignificand, hbits⟩
    rw [Nat.pow_le_pow_iff_right Nat.one_lt_two]
    omega
  · obtain ⟨j, hj⟩ := Nat.exists_eq_add_of_le (Nat.le_of_not_le hlarge)
    have hpow : 2 ^ (j + lastPlace x) = unit := pow_eq_unit (by omega)
    have hbits : (truncate x).natAbs * 2 ^ j = significand x := by
      apply Nat.eq_of_mul_eq_mul_right (Nat.two_pow_pos (lastPlace x))
      rw [← hsize, ← hpow, Nat.pow_add, Nat.mul_assoc]
    apply isFloat_of_le
    calc (truncate x).natAbs ≤ (truncate x).natAbs * 2 ^ j := Nat.le_mul_of_pos_right _ (Nat.two_pow_pos j)
      _ = significand x := hbits
      _ ≤ 2 ^ 53 := hsignificand.le

/-! ## The text of an integer -/

theorem signedDecimal_eq (m : ℤ) :
    Text.signedDecimal m = if decide (m < 0) = true then '-' :: Text.decimal m.natAbs else Text.decimal m.natAbs := by
  cases m with
  | ofNat n => simp [Text.signedDecimal]
  | negSucc n => simp [Text.signedDecimal, Int.negSucc_lt_zero]

theorem readFloat?_signedDecimal (m : ℤ) : readFloat? (Text.signedDecimal m) = some (nearest m) := by
  have hnumeral : IsNumeral (Text.decimal m.natAbs ++ []) (Text.decimal m.natAbs) 0 :=
    .whole (Text.decimal_ne_nil _) (fun _ => Text.isDigit_of_mem_decimal) .none
  rw [List.append_nil] at hnumeral
  have hlength : 0 < (Text.decimal m.natAbs).length := List.length_pos_iff.mpr (Text.decimal_ne_nil _)
  rw [signedDecimal_eq, readFloat?_of_isNumeral hnumeral, ofDecimal]
  simp only [Text.digitsValue_decimal]
  by_cases hzero : m.natAbs = 0
  · rw [if_pos (Or.inl hzero), nearest, hzero]
  · rw [if_neg (by omega), if_neg (by decide), if_pos (by decide), nearest]
    simp [tenTo]

end NoteQuery.Number

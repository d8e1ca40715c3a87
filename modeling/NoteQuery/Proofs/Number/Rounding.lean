import NoteQuery.Number.Shortest
import NoteQuery.Proofs.Number.Bits

/-!
# Rounding to a float

The numbers that lie in the neighbourhood of a float are rounded to it. A number is brought to the
scale on which its significand has 53 bits, or to that of the subnormal numbers, and rounded there; the
float has the nearest significand on that scale, even if its neighbourhood reaches below a power of two.
-/

namespace NoteQuery.Number

/-! ## The nearest natural number -/

/-- The natural number nearest to `q`, of two the even one. -/
structure IsNearest (q : ℚ) (m : ℕ) : Prop where
  low : m - 1 / 2 ≤ q
  high : q ≤ m + 1 / 2
  even : q = m - 1 / 2 ∨ q = m + 1 / 2 → m % 2 = 0

theorem IsNearest.le {q : ℚ} {m n : ℕ} (hm : IsNearest q m) (hn : IsNearest q n) : m ≤ n := by
  by_contra hlt
  have hstep : (n : ℚ) + 1 ≤ m := by exact_mod_cast Nat.lt_of_not_le hlt
  have hlow := hm.low
  have hhigh := hn.high
  have htie : (m : ℚ) = n + 1 := by linarith
  have hmeven := hm.even (Or.inl (by linarith))
  have hneven := hn.even (Or.inr (by linarith))
  have hsucc : m = n + 1 := by exact_mod_cast htie
  omega

theorem IsNearest.unique {q : ℚ} {m n : ℕ} (hm : IsNearest q m) (hn : IsNearest q n) : m = n :=
  Nat.le_antisymm (hm.le hn) (hn.le hm)

/-- A part of `den` is compared with its half just as the remainder is with the half of `den`. -/
theorem isNearest_of_remainder {d r den : ℕ} (hden : 0 < den) (hr : r < den) :
    IsNearest (d + r / den) (if 2 * r < den then d else if 2 * r > den then d + 1 else d + d % 2) := by
  have hpos : (0 : ℚ) < den := by exact_mod_cast hden
  have hzero : (0 : ℚ) ≤ r / den := by positivity
  have hone : (r : ℚ) / den < 1 := (div_lt_one hpos).mpr (by exact_mod_cast hr)
  have hhalf : ∀ s : ℚ, s * (2 * den) = 2 * r → (r : ℚ) / den = s := by
    intro s hs
    rw [div_eq_iff hpos.ne']
    linarith
  -- below the half, on it, or above it; on it the parity of `d` decides
  rcases lt_trichotomy (2 * r) den with hless | hsame | hmore
  · have hbelow : (r : ℚ) / den < 1 / 2 := by
      have hcast : (2 : ℚ) * r < den := by exact_mod_cast hless
      rw [div_lt_iff₀ hpos]
      linarith
    rw [if_pos hless]
    refine ⟨by linarith, by linarith, ?_⟩
    rintro (h | h) <;> linarith
  · have htie : (r : ℚ) / den = 1 / 2 := hhalf _ (by rw [← hsame]; push_cast; ring)
    rw [if_neg (by omega), if_neg (by omega), htie]
    rcases Nat.mod_two_eq_zero_or_one d with heven | hodd
    · rw [heven]
      exact ⟨by push_cast; linarith, by push_cast; linarith, fun _ => heven⟩
    · rw [hodd]
      exact ⟨by push_cast; linarith, by push_cast; linarith, fun _ => by omega⟩
  · have habove : 1 / 2 < (r : ℚ) / den := by
      have hcast : (den : ℚ) < 2 * r := by exact_mod_cast hmore
      rw [lt_div_iff₀ hpos]
      linarith
    rw [if_neg (by omega), if_pos hmore]
    refine ⟨by push_cast; linarith, by push_cast; linarith, ?_⟩
    rintro (h | h) <;> push_cast at h <;> linarith

theorem isNearest_roundRatio (num : ℕ) {den : ℕ} (hden : 0 < den) : IsNearest (num / den) (roundRatio num den) := by
  have hpos : (0 : ℚ) < den := by exact_mod_cast hden
  have hdivision : (num : ℚ) = den * (num / den : ℕ) + (num % den : ℕ) := by
    exact_mod_cast (Nat.div_add_mod num den).symm
  have hq : (num : ℚ) / den = (num / den : ℕ) + (num % den : ℕ) / den := by
    rw [hdivision]
    field_simp
  rw [hq]
  exact isNearest_of_remainder hden (Nat.mod_lt _ hden)

/-! ## The scale of a number -/

def fitsScale (num den : ℕ) (e : ℤ) : Bool :=
  if e ≥ 0 then twoTo 52 * den * twoTo e.toNat ≤ num else twoTo 52 * den ≤ num * twoTo (-e).toNat

def scaleGuess (num den : ℕ) : ℤ := (num.log2 : ℤ) - den.log2 - 52

def scaleOf (num den : ℕ) : ℤ :=
  max (if fitsScale num den (scaleGuess num den) then scaleGuess num den else scaleGuess num den - 1) (-1074)

def roundedOn (e : ℤ) (num den : ℕ) : ℕ :=
  if e ≥ 0 then roundRatio num (den * twoTo e.toNat) else roundRatio (num * twoTo (-e).toNat) den

theorem nearestBits_eq (num den : ℕ) : nearestBits num den =
    min ((scaleOf num den + 1074).toNat * twoTo 52 + roundedOn (scaleOf num den) num den) (2047 * twoTo 52) := rfl

theorem cast_twoTo (n : ℕ) : (twoTo n : ℚ) = 2 ^ n := by
  rw [twoTo_eq]
  push_cast
  rfl

section

variable {num den : ℕ} (hnum : 0 < num) (hden : 0 < den)
include hnum hden

theorem fitsScale_iff (e : ℤ) : fitsScale num den e = true ↔ 52 + e ≤ Int.log 2 ((num : ℚ) / den) := by
  have hpos : (0 : ℚ) < den := by exact_mod_cast hden
  have hq : (0 : ℚ) < num / den := by
    have hcast : (0 : ℚ) < num := by exact_mod_cast hnum
    positivity
  have hlog := Int.zpow_le_iff_le_log (b := 2) one_lt_two hq (x := 52 + e)
  rw [← hlog, fitsScale, le_div_iff₀ hpos, Nat.cast_two, zpow_add₀ two_ne_zero, zpow_ofNat]
  split
  · rename_i he
    obtain ⟨n, rfl⟩ := Int.eq_ofNat_of_zero_le he
    rw [decide_eq_true_iff, ← Nat.cast_le (α := ℚ), Nat.cast_mul, Nat.cast_mul, cast_twoTo, cast_twoTo,
      Int.toNat_natCast, zpow_natCast, mul_right_comm]
  · rename_i he
    obtain ⟨n, rfl⟩ : ∃ n : ℕ, e = -n := ⟨(-e).toNat, by omega⟩
    have htwo : (0 : ℚ) < 2 ^ n := by positivity
    rw [decide_eq_true_iff, ← Nat.cast_le (α := ℚ), Nat.cast_mul, Nat.cast_mul, cast_twoTo, cast_twoTo,
      neg_neg, Int.toNat_natCast, zpow_neg, zpow_natCast, mul_right_comm, ← div_eq_mul_inv, div_le_iff₀ htwo]

/-- The lengths of the two numbers leave two possible lengths for the ratio. -/
theorem log_ratio : (num.log2 : ℤ) - den.log2 - 1 ≤ Int.log 2 ((num : ℚ) / den) ∧
    Int.log 2 ((num : ℚ) / den) ≤ (num.log2 : ℤ) - den.log2 := by
  have hcast : (0 : ℚ) < num := by exact_mod_cast hnum
  have hpos : (0 : ℚ) < den := by exact_mod_cast hden
  have hq : (0 : ℚ) < num / den := by positivity
  have hnumlow : (2 : ℚ) ^ num.log2 ≤ num := by exact_mod_cast Nat.log2_self_le hnum.ne'
  have hnumhigh : (num : ℚ) < 2 ^ (num.log2 + 1) := by exact_mod_cast Nat.lt_log2_self
  have hdenlow : (2 : ℚ) ^ den.log2 ≤ den := by exact_mod_cast Nat.log2_self_le hden.ne'
  have hdenhigh : (den : ℚ) < 2 ^ (den.log2 + 1) := by exact_mod_cast Nat.lt_log2_self
  -- cross-multiplied: the least numerator over the greatest denominator, and the other way round
  constructor
  · rw [← Int.zpow_le_iff_le_log (b := 2) one_lt_two hq, Nat.cast_two, le_div_iff₀ hpos, sub_sub, zpow_sub₀ two_ne_zero,
      zpow_natCast, div_mul_eq_mul_div, div_le_iff₀ (by positivity)]
    have hsucc : (2 : ℚ) ^ ((den.log2 : ℤ) + 1) = 2 ^ (den.log2 + 1) := by
      rw [← zpow_natCast, Nat.cast_add, Nat.cast_one]
    rw [hsucc]
    exact mul_le_mul hnumlow hdenhigh.le hpos.le hcast.le
  · rw [← Int.lt_add_one_iff, ← Int.lt_zpow_iff_log_lt (b := 2) one_lt_two hq, Nat.cast_two, div_lt_iff₀ hpos,
      sub_add_eq_add_sub, zpow_sub₀ two_ne_zero, zpow_natCast, div_mul_eq_mul_div, lt_div_iff₀ (by positivity)]
    have hsucc : (2 : ℚ) ^ ((num.log2 : ℤ) + 1) = 2 ^ (num.log2 + 1) := by
      rw [← zpow_natCast, Nat.cast_add, Nat.cast_one]
    rw [hsucc]
    exact mul_lt_mul hnumhigh hdenlow (by positivity) (by positivity)

theorem scaleOf_eq : scaleOf num den = max (Int.log 2 ((num : ℚ) / den) - 52) (-1074) := by
  obtain ⟨hlow, hhigh⟩ := log_ratio hnum hden
  have hfits := fitsScale_iff hnum hden (scaleGuess num den)
  rw [scaleOf]
  split
  · have hle := hfits.mp ‹_›
    rw [scaleGuess] at hle ⊢
    omega
  · have hlt := mt hfits.mpr ‹_›
    rw [scaleGuess] at hlt ⊢
    omega

omit hnum

theorem isNearest_roundedOn (e : ℤ) : IsNearest (num / den / 2 ^ e) (roundedOn e num den) := by
  rw [roundedOn]
  split
  · rename_i he
    obtain ⟨n, rfl⟩ := Int.eq_ofNat_of_zero_le he
    have h := isNearest_roundRatio num (Nat.mul_pos hden (Nat.two_pow_pos n))
    rw [Nat.cast_mul, Nat.cast_pow, Nat.cast_ofNat, ← div_div] at h
    rwa [zpow_natCast, Int.toNat_natCast, twoTo_eq]
  · rename_i he
    obtain ⟨n, rfl⟩ : ∃ n : ℕ, e = -n := ⟨(-e).toNat, by omega⟩
    have h := isNearest_roundRatio (num * 2 ^ n) hden
    rw [Nat.cast_mul, Nat.cast_pow, Nat.cast_ofNat, mul_div_right_comm] at h
    rwa [zpow_neg, zpow_natCast, div_inv_eq_mul, neg_neg, Int.toNat_natCast, twoTo_eq]

end

/-! ## Neighbourhoods -/

/-- Whether a number of quarter units lies in a neighbourhood, whose ends belong to it if it is closed. -/
structure Neighbourhood.Covers (n : Neighbourhood) (q : ℚ) : Prop where
  low : n.low ≤ q
  high : q ≤ n.high
  closed : q = n.low ∨ q = n.high → n.closed = true

theorem Neighbourhood.holds_iff (n : Neighbourhood) (num : ℕ) {den : ℕ} (hden : 0 < den) :
    n.holds num den = true ↔ n.Covers (num / den) := by
  have hpos : (0 : ℚ) < den := by exact_mod_cast hden
  -- division by `den` turned into multiplication, so that only naturals are compared
  have hlow : (n.low : ℚ) ≤ num / den ↔ n.low * den ≤ num := by
    rw [le_div_iff₀ hpos]
    exact_mod_cast Iff.rfl
  have hhigh : (num : ℚ) / den ≤ n.high ↔ num ≤ n.high * den := by
    rw [div_le_iff₀ hpos]
    exact_mod_cast Iff.rfl
  have hends : ∀ m : ℕ, (num : ℚ) / den = m ↔ num = m * den := by
    intro m
    rw [div_eq_iff hpos.ne']
    exact_mod_cast Iff.rfl
  rw [holds]
  by_cases hclosed : n.closed = true
  · rw [if_pos hclosed, Bool.and_eq_true, decide_eq_true_iff, decide_eq_true_iff]
    exact ⟨fun h => ⟨hlow.mpr h.1, hhigh.mpr h.2, fun _ => hclosed⟩, fun h => ⟨hlow.mp h.low, hhigh.mp h.high⟩⟩
  · rw [if_neg hclosed, Bool.and_eq_true, decide_eq_true_iff, decide_eq_true_iff]
    constructor
    · intro h
      refine ⟨hlow.mpr h.1.le, hhigh.mpr h.2.le, ?_⟩
      rw [hends, hends]
      omega
    · intro h
      -- an end that is not in the neighbourhood is not met
      have hopen := mt h.closed hclosed
      rw [not_or, hends, hends] at hopen
      exact ⟨lt_of_le_of_ne (hlow.mp h.low) (Ne.symm hopen.1), lt_of_le_of_ne (hhigh.mp h.high) hopen.2⟩

section

variable (x : Float)

/-- The leading bit of a significand is hidden, and missing in subnormal numbers. -/
theorem significand_cases : sizeBits x / 2 ^ 52 = 0 ∧ significand x = sizeBits x % 2 ^ 52 ∨
    sizeBits x / 2 ^ 52 ≠ 0 ∧ significand x = 2 ^ 52 + sizeBits x % 2 ^ 52 := by
  have hexponent : exponentField x = sizeBits x / 2 ^ 52 := exponentField_eq x
  have hfraction : fractionField x = sizeBits x % 2 ^ 52 := fractionField_eq x
  rw [← hexponent, ← hfraction]
  by_cases h : exponentField x = 0
  · exact Or.inl ⟨h, if_pos h⟩
  · exact Or.inr ⟨h, if_neg h⟩

theorem lastPlace_eq : lastPlace x = sizeBits x / 2 ^ 52 - 1 := by
  rw [lastPlace, exponentField_eq, twoTo_eq]

theorem sizeBits_eq : sizeBits x = lastPlace x * 2 ^ 52 + significand x := by
  have hcases := significand_cases x
  rw [lastPlace_eq]
  omega

theorem significand_lt : significand x < 2 ^ 53 := by
  have hcases := significand_cases x
  omega

theorem le_significand (h : 0 < lastPlace x) : 2 ^ 52 ≤ significand x := by
  have hcases := significand_cases x
  rw [lastPlace_eq] at h
  omega

theorem below_iff : (fractionField x = 0 ∧ 1 < exponentField x) ↔ significand x = 2 ^ 52 ∧ 0 < lastPlace x := by
  have hcases := significand_cases x
  rw [lastPlace_eq, exponentField_eq, fractionField_eq, twoTo_eq]
  omega

theorem closed_neighbourhood : (neighbourhood x).closed = true ↔ significand x % 2 = 0 := beq_iff_eq

theorem high_neighbourhood : ((neighbourhood x).high : ℚ) = (4 * significand x + 2) * 2 ^ lastPlace x := by
  rw [neighbourhood, magnitude]
  push_cast [cast_twoTo]
  ring

theorem low_neighbourhood (h : 0 < significand x) : ((neighbourhood x).low : ℚ) =
    (4 * significand x - (if significand x = 2 ^ 52 ∧ 0 < lastPlace x then 1 else 2)) * 2 ^ lastPlace x := by
  have hpos : 0 < twoTo (lastPlace x) := Nat.two_pow_pos _
  have hone : twoTo (lastPlace x) ≤ significand x * twoTo (lastPlace x) := Nat.le_mul_of_pos_left _ h
  rw [neighbourhood, magnitude]
  by_cases hbelow : fractionField x = 0 ∧ 1 < exponentField x
  · rw [if_pos hbelow, if_pos ((below_iff x).mp hbelow), Nat.mul_div_cancel_left _ two_pos, Nat.cast_sub (by omega)]
    push_cast [cast_twoTo]
    ring
  · rw [if_neg hbelow, if_neg (mt (below_iff x).mpr hbelow), Nat.cast_sub (by omega)]
    push_cast [cast_twoTo]
    ring

end

section

variable {x : Float} {q : ℚ} (hpos : 0 < significand x) (hcovers : (neighbourhood x).Covers (4 * q))
include hpos hcovers

/-- On its own scale a float has the significand nearest to each number in its neighbourhood. -/
theorem isNearest_significand : IsNearest (q / 2 ^ lastPlace x) (significand x) := by
  have hplace : (0 : ℚ) < 2 ^ lastPlace x := by positivity
  have hlow := hcovers.low
  have hhigh := hcovers.high
  have hclosed := hcovers.closed
  rw [low_neighbourhood x hpos] at hlow hclosed
  rw [high_neighbourhood] at hhigh hclosed
  rw [closed_neighbourhood] at hclosed
  constructor
  · rw [le_div_iff₀ hplace]
    split_ifs at hlow <;> linarith
  · rw [div_le_iff₀ hplace]
    linarith
  · rw [div_eq_iff hplace.ne', div_eq_iff hplace.ne']
    rintro (h | h)
    · split_ifs at hlow hclosed
      · linarith
      · exact hclosed (Or.inl (by linarith))
    · exact hclosed (Or.inr (by linarith))

theorem quarter_le (hsignificand : significand x = 2 ^ 52) (hplace : 0 < lastPlace x) :
    2 ^ 52 - 1 / 4 ≤ q / 2 ^ lastPlace x := by
  have hplace : (0 : ℚ) < 2 ^ lastPlace x := by positivity
  have hlow := hcovers.low
  rw [low_neighbourhood x hpos, if_pos ⟨hsignificand, ‹_›⟩, hsignificand] at hlow
  rw [le_div_iff₀ hplace]
  push_cast at hlow
  linarith

theorem scale_cases {k : ℕ} (hlow : k = 0 ∨ 2 ^ 52 * 2 ^ k ≤ q) (hhigh : q < 2 ^ 53 * 2 ^ k) :
    k = lastPlace x ∨ k + 1 = lastPlace x ∧ significand x = 2 ^ 52 := by
  obtain ⟨hnear, hfar, -⟩ := isNearest_significand hpos hcovers
  have hplace : (0 : ℚ) < 2 ^ lastPlace x := by positivity
  have hq : q / 2 ^ lastPlace x * 2 ^ lastPlace x = q := div_mul_cancel₀ q hplace.ne'
  generalize q / 2 ^ lastPlace x = s at hnear hfar hq
  have hlarge : (significand x : ℚ) ≤ 2 ^ 53 - 1 := by
    have := significand_lt x
    have hcast : (significand x : ℚ) + 1 ≤ 2 ^ 53 := by exact_mod_cast this
    linarith
  rcases lt_trichotomy k (lastPlace x) with hless | hsame | hmore
  · obtain ⟨d, hd⟩ := Nat.exists_eq_add_of_lt hless
    have hsmall : (2 : ℚ) ^ 52 ≤ significand x := by exact_mod_cast le_significand x (by omega)
    have hstep : s * (2 ^ d * 2) < 2 ^ 53 := by
      have hk : (0 : ℚ) < 2 ^ k := by positivity
      rw [← hq, hd, pow_add, pow_add, pow_one] at hhigh
      refine lt_of_mul_lt_mul_right ?_ hk.le
      linarith
    -- one scale below is possible for the least significand alone, two are not
    cases d with
    | zero =>
      refine Or.inr ⟨hd.symm, ?_⟩
      have hle : (significand x : ℚ) < 2 ^ 52 + 1 := by
        rw [pow_zero, one_mul] at hstep
        linarith
      have hge := le_significand x (by omega)
      have hle : significand x < 2 ^ 52 + 1 := by exact_mod_cast hle
      omega
    | succ d =>
      exfalso
      have hd : (1 : ℚ) ≤ 2 ^ d := one_le_pow₀ one_le_two
      rw [pow_succ] at hstep
      nlinarith
  · exact Or.inl hsame
  · exfalso
    rcases hlow with rfl | hlow
    · omega
    have hdouble : (2 : ℚ) ^ lastPlace x * 2 ≤ 2 ^ k := by
      rw [← pow_succ]
      exact pow_le_pow_right₀ one_le_two hmore
    rw [← hq] at hlow
    nlinarith

theorem exists_isNearest {k : ℕ} (hlow : k = 0 ∨ 2 ^ 52 * 2 ^ k ≤ q) (hhigh : q < 2 ^ 53 * 2 ^ k) :
    ∃ r, sizeBits x = k * 2 ^ 52 + r ∧ IsNearest (q / 2 ^ k) r := by
  rcases scale_cases hpos hcovers hlow hhigh with rfl | ⟨hk, hsignificand⟩
  · exact ⟨significand x, sizeBits_eq x, isNearest_significand hpos hcovers⟩
  · have hquarter := quarter_le hpos hcovers hsignificand (by omega)
    have hk0 : (0 : ℚ) < 2 ^ k := by positivity
    rw [← hk, pow_succ (2 : ℚ) k, ← div_div, le_div_iff₀ two_pos] at hquarter
    have hupper : q / 2 ^ k < 2 ^ 53 := by rwa [div_lt_iff₀ hk0]
    refine ⟨2 ^ 53, ?_, ?_, ?_, fun _ => by norm_num⟩
    · rw [sizeBits_eq, hsignificand, ← hk]
      ring
    · push_cast
      linarith
    · push_cast
      linarith

end

/-! ## Rounding back -/

theorem nearestBits_of_covers {x : Float} (hfinite : isFinite x = true) (hpos : 0 < significand x) {num den : ℕ}
    (hnum : 0 < num) (hden : 0 < den) (hcovers : (neighbourhood x).Covers (4 * (num / den * 2 ^ 1074))) :
    nearestBits num den = sizeBits x := by
  have hq : (0 : ℚ) < num / den := by
    have hnum : (0 : ℚ) < num := by exact_mod_cast hnum
    have hden : (0 : ℚ) < den := by exact_mod_cast hden
    positivity
  have hscale := scaleOf_eq hnum hden
  obtain ⟨k, hk⟩ : ∃ k : ℕ, scaleOf num den + 1074 = k := ⟨(scaleOf num den + 1074).toNat, by omega⟩
  have hsame : ∀ s : ℤ, (2 : ℚ) ^ s * 2 ^ 1074 = 2 ^ (s + 1074) := by
    intro s
    rw [zpow_add₀ two_ne_zero, zpow_ofNat]
  have hlow : k = 0 ∨ 2 ^ 52 * 2 ^ k ≤ (num : ℚ) / den * 2 ^ 1074 := by
    by_cases hk0 : k = 0
    · exact Or.inl hk0
    · have hself := Int.zpow_log_le_self (b := 2) one_lt_two hq
      have hexponent : Int.log 2 ((num : ℚ) / den) + 1074 = (52 + k : ℕ) := by omega
      have hstep := mul_le_mul_of_nonneg_right hself (by positivity : (0 : ℚ) ≤ 2 ^ 1074)
      rw [Nat.cast_two, hsame, hexponent, zpow_natCast, pow_add] at hstep
      exact Or.inr hstep
  have hhigh : (num : ℚ) / den * 2 ^ 1074 < 2 ^ 53 * 2 ^ k := by
    have hself := Int.lt_zpow_succ_log_self (b := 2) one_lt_two ((num : ℚ) / den)
    have hstep := mul_lt_mul_of_pos_right hself (by positivity : (0 : ℚ) < 2 ^ 1074)
    rw [Nat.cast_two, hsame] at hstep
    refine hstep.trans_le ?_
    rw [← pow_add, ← zpow_natCast]
    exact zpow_le_zpow_right₀ one_le_two (by omega)
  -- on the scale that is chosen, the rounded ratio and the significand are both the nearest integer
  obtain ⟨r, hbits, hnearest⟩ := exists_isNearest hpos hcovers hlow hhigh
  have hrounded : IsNearest (num / den / 2 ^ scaleOf num den) (roundedOn (scaleOf num den) num den) :=
    isNearest_roundedOn hden _
  have hunits : (num : ℚ) / den * 2 ^ 1074 / 2 ^ k = num / den / 2 ^ scaleOf num den := by
    have htwo : (0 : ℚ) < 2 ^ scaleOf num den := by positivity
    rw [← zpow_natCast (2 : ℚ) k, ← hk, ← hsame, mul_div_mul_right _ _ (by positivity)]
  rw [hunits] at hnearest
  have hlt := (isFinite_iff x).mp hfinite
  rw [nearestBits_eq, hk, hrounded.unique hnearest, Int.toNat_natCast, twoTo_eq, ← hbits]
  exact Nat.min_eq_left hlt.le

theorem ofRatio_of_sizeBits {x : Float} {num den : ℕ}
    (hbits : (if num = 0 then 0 else nearestBits num den) = sizeBits x) : ofRatio (isNegative x) num den = x := by
  have hlt := toNat_toBits_lt x
  have hword : (if isNegative x = true then twoTo 63 + sizeBits x else sizeBits x) = x.toBits.toNat := by
    rw [isNegative, sizeBits]
    simp only [twoTo_eq, beq_iff_eq]
    split <;> omega
  rw [ofRatio, hbits, hword, UInt64.ofNat_toNat, Float.ofBits_toBits]

theorem ofRatio_of_covers {x : Float} (hfinite : isFinite x = true) (hpos : 0 < significand x) {num den : ℕ}
    (hnum : 0 < num) (hden : 0 < den) (hcovers : (neighbourhood x).Covers (4 * (num / den * 2 ^ 1074))) :
    ofRatio (isNegative x) num den = x := by
  refine ofRatio_of_sizeBits ?_
  rw [if_neg hnum.ne', nearestBits_of_covers hfinite hpos hnum hden hcovers]

end NoteQuery.Number

import NoteQuery.Proofs.Number.Rounding
import NoteQuery.Proofs.Text.Digits

/-!
# The shortest decimal of a float

The search for a decimal ends with one in the neighbourhood of the float. Each grid that has a point
there gives one, and the grid of seventeen digits has one, for its points are closer to each other than
the neighbourhood is wide.
-/

namespace NoteQuery.Number

theorem cast_tenTo (n : ℕ) : (tenTo n : ℚ) = 10 ^ n := by
  rw [tenTo, Nat.pow_eq, Nat.cast_pow, Nat.cast_ofNat]

theorem unit_pos : 0 < unit := by
  rw [unit, twoTo_eq]
  positivity

theorem cast_unit : (unit : ℚ) = 2 ^ 1074 := cast_twoTo 1074

/-! ## Grids -/

/-- The distance of two decimals in quarter units, if the last digit is so many places after the point. -/
def spacing (shift : ℤ) : ℚ := 10 ^ (-shift) * (4 * unit)

theorem scale_div_coarse (shift : ℤ) : ((if shift ≥ 0 then tenTo shift.toNat else 1 : ℕ) : ℚ) /
    ((if shift ≥ 0 then 1 else tenTo (-shift).toNat : ℕ) : ℚ) = 10 ^ shift := by
  split
  · rename_i h
    obtain ⟨n, rfl⟩ := Int.eq_ofNat_of_zero_le h
    rw [Int.toNat_natCast, cast_tenTo, Nat.cast_one, div_one, zpow_natCast]
  · rename_i h
    obtain ⟨n, rfl⟩ : ∃ n : ℕ, shift = -n := ⟨(-shift).toNat, by omega⟩
    rw [neg_neg, Int.toNat_natCast, cast_tenTo, Nat.cast_one, one_div, zpow_neg, zpow_natCast]

theorem roundRatio_cases (num den : ℕ) : roundRatio num den = num / den ∨ roundRatio num den = num / den + 1 := by
  have hmod := Nat.mod_two_eq_zero_or_one (num / den)
  rw [roundRatio]
  split_ifs <;> omega

theorem Neighbourhood.Covers.of_lt {n : Neighbourhood} {q : ℚ} (hlow : n.low < q) (hhigh : q < n.high) : n.Covers q where
  low := hlow.le
  high := hhigh.le
  closed := by
    rintro (h | h)
    · exact absurd h hlow.ne'
    · exact absurd h hhigh.ne

/-- One of the two points of a grid around a value is taken if one of them is in the neighbourhood. -/
theorem onGrid?_spec (n : Neighbourhood) (shift : ℤ) : ∃ c : ℕ,
    c * spacing shift ≤ n.value ∧ n.value < (c + 1 : ℕ) * spacing shift ∧
    (∀ m, onGrid? n shift = some m → n.Covers (m * spacing shift)) ∧
    (onGrid? n shift = none → ¬n.Covers (c * spacing shift) ∧ ¬n.Covers ((c + 1 : ℕ) * spacing shift)) := by
  have hfraction := scale_div_coarse shift
  have hscale : 0 < (if shift ≥ 0 then tenTo shift.toNat else 1) := by
    split
    · exact Nat.pow_pos (by decide)
    · exact Nat.one_pos
  have hcoarse : 0 < (if shift ≥ 0 then 1 else tenTo (-shift).toNat) := by
    split
    · exact Nat.one_pos
    · exact Nat.pow_pos (by decide)
  rw [onGrid?]
  dsimp only
  generalize (if shift ≥ 0 then tenTo shift.toNat else 1) = scale at hfraction hscale ⊢
  generalize (if shift ≥ 0 then 1 else tenTo (-shift).toNat) = coarse at hfraction hcoarse ⊢
  have hscaleq : (0 : ℚ) < scale := by exact_mod_cast hscale
  have hcoarseq : (0 : ℚ) < coarse := by exact_mod_cast hcoarse
  -- the grid is compared in whole numbers, multiplied by what the scale divides by
  have hspacing : ∀ m : ℕ, ((m * (4 * unit) * coarse : ℕ) : ℚ) / scale = m * spacing shift := by
    intro m
    rw [spacing, zpow_neg, ← hfraction]
    push_cast
    generalize (unit : ℚ) = u
    field_simp
  have hpoint : ∀ m : ℕ, n.holds (m * (4 * unit) * coarse) scale = true ↔ n.Covers (m * spacing shift) := by
    intro m
    rw [n.holds_iff _ hscale, hspacing]
  have hden : 0 < 4 * unit * coarse := Nat.mul_pos (Nat.mul_pos (by decide) unit_pos) hcoarse
  generalize hc : n.value * scale / (4 * unit * coarse) = c
  refine ⟨c, ?_, ?_, ?_, ?_⟩
  · rw [← hspacing, div_le_iff₀ hscaleq, mul_assoc c, ← hc]
    exact_mod_cast Nat.div_mul_le_self _ _
  · rw [← hspacing, lt_div_iff₀ hscaleq, mul_assoc (c + 1), ← hc]
    exact_mod_cast Nat.lt_mul_of_div_lt (Nat.lt_succ_self _) hden
  · intro m hm
    -- if both points are in, the one that the value is rounded to is taken
    cases hfirst : n.holds (c * (4 * unit) * coarse) scale <;>
      cases hsecond : n.holds ((c + 1) * (4 * unit) * coarse) scale <;> rw [hfirst, hsecond] at hm
    · cases hm
    · obtain rfl := Option.some.inj hm
      exact (hpoint _).mp hsecond
    · obtain rfl := Option.some.inj hm
      exact (hpoint _).mp hfirst
    · obtain rfl := Option.some.inj hm
      rcases roundRatio_cases (n.value * scale) (4 * unit * coarse) with hround | hround
      · rw [hround, hc]
        exact (hpoint _).mp hfirst
      · rw [hround, hc]
        exact (hpoint _).mp hsecond
  · intro hnone
    rw [← hpoint, ← hpoint]
    cases hfirst : n.holds (c * (4 * unit) * coarse) scale <;>
      cases hsecond : n.holds ((c + 1) * (4 * unit) * coarse) scale <;> rw [hfirst, hsecond] at hnone
    · exact ⟨Bool.false_ne_true, Bool.false_ne_true⟩
    all_goals cases hnone

theorem exists_onGrid? {n : Neighbourhood} {shift : ℤ} (hlow : n.low < n.value) (hhigh : n.value < n.high)
    (hwide : spacing shift < n.high - n.low) : ∃ m, onGrid? n shift = some m := by
  obtain ⟨c, hle, hlt, -, hnone⟩ := onGrid?_spec n shift
  have hlow : (n.low : ℚ) < n.value := by exact_mod_cast hlow
  have hhigh : (n.value : ℚ) < n.high := by exact_mod_cast hhigh
  cases hgrid : onGrid? n shift with
  | some m => exact ⟨m, rfl⟩
  | none =>
    obtain ⟨hfirst, hsecond⟩ := hnone hgrid
    exfalso
    by_cases hbelow : (n.low : ℚ) < c * spacing shift
    · exact hfirst (.of_lt hbelow (hle.trans_lt hhigh))
    · refine hsecond (.of_lt (hlow.trans hlt) ?_)
      push_cast
      linarith

/-! ## Seventeen digits -/

theorem unit_le_tenTo : unit ≤ tenTo 400 := by decide +kernel

/-- The value has a first digit before the point that is shifted to the end of the zeros. -/
theorem spacing_decimalPoint_le {value : ℕ} (h : 4 ≤ value) : spacing (1 - decimalPoint value) ≤ value := by
  have hunit : 0 < 4 * unit := Nat.mul_pos (by decide) unit_pos
  have hpos : 0 < value * tenTo 400 / (4 * unit) :=
    Nat.div_pos (Nat.mul_le_mul h unit_le_tenTo) hunit
  have hpow := Nat.mul_le_mul_right (4 * unit) (Text.pow_length_decimal_le hpos)
  have hle := hpow.trans (Nat.div_mul_le_self _ _)
  have hlength : 0 < (Text.decimal (value * tenTo 400 / (4 * unit))).length :=
    List.length_pos_iff.mpr (Text.decimal_ne_nil _)
  rw [spacing, decimalPoint]
  generalize (Text.decimal (value * tenTo 400 / (4 * unit))).length = l at hle hlength
  obtain ⟨l, rfl⟩ := Nat.exists_eq_succ_of_ne_zero hlength.ne'
  have hcast : (10 : ℚ) ^ l * (4 * unit) ≤ value * 10 ^ 400 := by
    rw [← cast_tenTo 400]
    exact_mod_cast hle
  have hexponent : -(1 - (((l + 1 : ℕ) : ℤ) - 400)) = (l : ℤ) - (400 : ℕ) := by
    push_cast
    ring
  rw [hexponent, zpow_sub₀ (by norm_num), zpow_natCast, zpow_natCast, div_mul_eq_mul_div, div_le_iff₀ (by positivity)]
  exact hcast

theorem spacing_add (shift : ℤ) (n : ℕ) : spacing shift = spacing (shift + n) * 10 ^ n := by
  rw [spacing, spacing, neg_add, zpow_add₀ (by norm_num), zpow_neg _ (n : ℤ), zpow_natCast, mul_right_comm,
    inv_mul_cancel_right₀ (by positivity)]

theorem value_neighbourhood (x : Float) :
    ((neighbourhood x).value : ℚ) = 4 * significand x * 2 ^ lastPlace x := by
  rw [neighbourhood, magnitude]
  push_cast [cast_twoTo]
  ring

section

variable {x : Float} (hpos : 0 < significand x)
include hpos

theorem two_le_low : (2 : ℚ) ≤ (neighbourhood x).low := by
  have hplace : (1 : ℚ) ≤ 2 ^ lastPlace x := one_le_pow₀ one_le_two
  have hone : (1 : ℚ) ≤ significand x := by exact_mod_cast hpos
  rw [low_neighbourhood x hpos]
  split_ifs <;> nlinarith

theorem low_lt_value : (neighbourhood x).low < (neighbourhood x).value := by
  have hplace : (0 : ℚ) < 2 ^ lastPlace x := by positivity
  rw [← Nat.cast_lt (α := ℚ), low_neighbourhood x hpos, value_neighbourhood]
  split_ifs <;> linarith

omit hpos in
theorem value_lt_high : (neighbourhood x).value < (neighbourhood x).high := by
  have hplace : (0 : ℚ) < 2 ^ lastPlace x := by positivity
  rw [← Nat.cast_lt (α := ℚ), high_neighbourhood, value_neighbourhood]
  linarith

theorem four_le_value : 4 ≤ (neighbourhood x).value := by
  have hmagnitude : 0 < magnitude x := Nat.mul_pos hpos (Nat.two_pow_pos _)
  rw [neighbourhood]
  dsimp only
  omega

/-- At a power of two the neighbourhood is narrower, but the value is small for its last place. -/
theorem spacing_seventeen_lt : spacing (17 - decimalPoint (neighbourhood x).value) <
    (neighbourhood x).high - (neighbourhood x).low := by
  have hplace : (0 : ℚ) < 2 ^ lastPlace x := by positivity
  have hfirst := spacing_decimalPoint_le (four_le_value hpos)
  have hsteps : 1 - decimalPoint (neighbourhood x).value + (16 : ℕ) = 17 - decimalPoint (neighbourhood x).value := by
    push_cast
    ring
  rw [spacing_add _ 16, hsteps, value_neighbourhood] at hfirst
  rw [high_neighbourhood, low_neighbourhood x hpos]
  split
  · rename_i hbelow
    rw [hbelow.1] at hfirst ⊢
    push_cast at hfirst ⊢
    linarith
  · have hlarge : (significand x : ℚ) ≤ 2 ^ 53 := by exact_mod_cast (significand_lt x).le
    have hscaled := mul_le_mul_of_nonneg_right hlarge hplace.le
    linarith

theorem exists_onGrid?_seventeen :
    ∃ m, onGrid? (neighbourhood x) (17 - decimalPoint (neighbourhood x).value) = some m :=
  exists_onGrid? (low_lt_value hpos) value_lt_high (spacing_seventeen_lt hpos)

end

theorem searchGrid_spec {n : Neighbourhood} {point : ℤ} {left count k : ℕ} (hk : k < left)
    (hgrid : ∃ m, onGrid? n ((count + k : ℕ) - point) = some m) :
    ∃ c found, searchGrid n point left count = (c, found) ∧ onGrid? n (found - point) = some c := by
  induction left generalizing count k with
  | zero => exact absurd hk (Nat.not_lt_zero k)
  | succ left ih =>
    cases hfirst : onGrid? n (count - point) with
    | some c => exact ⟨c, count, by simp only [searchGrid, hfirst], hfirst⟩
    | none =>
      have hnext : searchGrid n point (left + 1) count = searchGrid n point left (count + 1) := by
        simp only [searchGrid, hfirst]
      rw [hnext]
      cases k with
      | zero =>
        obtain ⟨m, hm⟩ := hgrid
        rw [Nat.add_zero, hfirst] at hm
        cases hm
      | succ k =>
        refine ih (Nat.lt_of_succ_lt_succ hk) ?_
        rwa [Nat.add_assoc, Nat.add_comm 1 k]

/-! ## Decimals -/

namespace Decimal

def value (d : Decimal) : ℚ := Text.digitsValue d.digits * 10 ^ (d.point - d.digits.length)

structure IsProper (d : Decimal) : Prop where
  digits : ∀ c ∈ d.digits, c.isDigit = true
  ne_nil : d.digits ≠ []
  first : 10 ^ (d.digits.length - 1) ≤ Text.digitsValue d.digits

end Decimal

theorem exists_dropFinalZeros (ds : List Char) : ∃ z, ds = dropFinalZeros ds ++ List.replicate z '0' := by
  have hzeros : ∀ c ∈ ds.reverse.takeWhile (· == '0'), c = '0' := by
    intro c hc
    have hzero : (c == '0') = true := List.mem_takeWhile_imp (p := (· == '0')) hc
    exact beq_iff_eq.mp hzero
  have hsplit := congrArg List.reverse (ds.reverse.takeWhile_append_dropWhile (p := (· == '0')))
  refine ⟨(ds.reverse.takeWhile (· == '0')).length, ?_⟩
  rw [List.reverse_append, List.reverse_reverse, List.eq_replicate_iff.mpr ⟨rfl, hzeros⟩, List.reverse_replicate] at hsplit
  exact hsplit.symm

theorem dropFinalZeros_spec {c : ℕ} (hc : 0 < c) (point : ℤ) (count : ℕ) :
    Decimal.IsProper ⟨dropFinalZeros (Text.decimal c), point + ((Text.decimal c).length - count)⟩ ∧
      Decimal.value ⟨dropFinalZeros (Text.decimal c), point + ((Text.decimal c).length - count)⟩ =
        c * 10 ^ (point - count) := by
  obtain ⟨z, hz⟩ := exists_dropFinalZeros (Text.decimal c)
  have hdigits : ∀ d ∈ dropFinalZeros (Text.decimal c), d.isDigit = true := by
    intro d hd
    refine Text.isDigit_of_mem_decimal (n := c) ?_
    rw [hz]
    exact List.mem_append_left _ hd
  -- the zeros that are dropped are the factor between the digits and the number
  have hvalue : c = Text.digitsValue (dropFinalZeros (Text.decimal c)) * 10 ^ z := by
    rw [← Text.digitsValue_append_zeros hdigits, ← hz, Text.digitsValue_decimal]
  have hlength : (Text.decimal c).length = (dropFinalZeros (Text.decimal c)).length + z := by
    conv_lhs => rw [hz, List.length_append, List.length_replicate]
  have hfirst := Text.pow_length_decimal_le hc
  rw [hlength] at hfirst ⊢
  generalize dropFinalZeros (Text.decimal c) = ds at hdigits hvalue hfirst ⊢
  have hne : ds ≠ [] := by
    rintro rfl
    rw [show Text.digitsValue [] = 0 from rfl, Nat.zero_mul] at hvalue
    exact hc.ne' hvalue
  refine ⟨⟨hdigits, hne, ?_⟩, ?_⟩
  · have hpos : 0 < ds.length := List.length_pos_iff.mpr hne
    rw [show ds.length + z - 1 = ds.length - 1 + z by omega, Nat.pow_add] at hfirst
    exact Nat.le_of_mul_le_mul_right (hfirst.trans hvalue.le) (Nat.pow_pos (by decide))
  · have hexponent : point + (((ds.length + z : ℕ) : ℤ) - count) - ds.length = z + (point - count) := by
      push_cast
      ring
    rw [Decimal.value, hexponent, zpow_add₀ (by norm_num), zpow_natCast, ← mul_assoc]
    conv_rhs => rw [hvalue]
    push_cast
    rfl

theorem shortest_spec {x : Float} (hpos : 0 < significand x) : (shortest x).IsProper ∧
    (neighbourhood x).Covers ((shortest x).value * (4 * unit)) := by
  have hseventeen : ∃ m, onGrid? (neighbourhood x) ((1 + 16 : ℕ) - decimalPoint (neighbourhood x).value) = some m :=
    exists_onGrid?_seventeen hpos
  obtain ⟨c, found, hsearch, hgrid⟩ := searchGrid_spec (by decide : 16 < 17) hseventeen
  obtain ⟨-, -, -, hcovers, -⟩ := onGrid?_spec (neighbourhood x) (found - decimalPoint (neighbourhood x).value)
  have hcovers := hcovers c hgrid
  have hc : 0 < c := by
    refine Nat.pos_of_ne_zero ?_
    rintro rfl
    have hlow := (two_le_low hpos).trans hcovers.low
    rw [Nat.cast_zero, zero_mul] at hlow
    norm_num at hlow
  have hshortest : shortest x = ⟨dropFinalZeros (Text.decimal c),
      decimalPoint (neighbourhood x).value + ((Text.decimal c).length - found)⟩ := by
    simp only [shortest, hsearch]
  obtain ⟨hproper, hvalue⟩ := dropFinalZeros_spec hc (decimalPoint (neighbourhood x).value) found
  rw [← hshortest] at hproper hvalue
  refine ⟨hproper, ?_⟩
  rwa [hvalue, mul_assoc, ← neg_sub, ← spacing]

/-! ## Bounds -/

namespace Decimal.IsProper

variable {d : Decimal} (h : d.IsProper)
include h

theorem pow_le_value : (10 : ℚ) ^ (d.point - 1) ≤ d.value := by
  have hpos : 0 < d.digits.length := List.length_pos_iff.mpr h.ne_nil
  have hfirst : (10 : ℚ) ^ (d.digits.length - 1) ≤ Text.digitsValue d.digits := by exact_mod_cast h.first
  have hexponent : d.point - 1 = ((d.digits.length - 1 : ℕ) : ℤ) + (d.point - d.digits.length) := by omega
  rw [value, hexponent, zpow_add₀ (by norm_num), zpow_natCast]
  exact mul_le_mul_of_nonneg_right hfirst (by positivity)

theorem value_lt_pow : d.value < (10 : ℚ) ^ d.point := by
  have hlast : (Text.digitsValue d.digits : ℚ) < 10 ^ d.digits.length := by exact_mod_cast Text.digitsValue_lt h.digits
  have hpow : (10 : ℚ) ^ d.point = 10 ^ d.digits.length * 10 ^ (d.point - d.digits.length) := by
    rw [← zpow_natCast, ← zpow_add₀ (by norm_num), add_sub_cancel]
  rw [hpow, value]
  exact mul_lt_mul_of_pos_right hlast (by positivity)

end Decimal.IsProper

theorem twoTo_lt_tenTo : twoTo 1075 < tenTo 324 ∧ twoTo 1024 < tenTo 309 := by decide +kernel

theorem lastPlace_le {x : Float} (hfinite : isFinite x = true) : lastPlace x ≤ 2045 := by
  have hlt := (isFinite_iff x).mp hfinite
  rw [twoTo_eq] at hlt
  rw [lastPlace_eq]
  omega

/-- All floats have the first digit of their decimal within these places. -/
theorem point_shortest {x : Float} (hfinite : isFinite x = true) (hpos : 0 < significand x) :
    -324 < (shortest x).point ∧ (shortest x).point ≤ 309 := by
  obtain ⟨hproper, hcovers⟩ := shortest_spec hpos
  have hlow := (two_le_low hpos).trans hcovers.low
  have hhigh := hcovers.high
  rw [cast_unit] at hlow
  rw [high_neighbourhood, cast_unit] at hhigh
  constructor
  -- a decimal this small is below every float, even with the half step down
  · by_contra hle
    have hsmall := hproper.value_lt_pow.trans_le (zpow_le_zpow_right₀ (by norm_num) (Int.not_lt.mp hle))
    have htwo : (2 : ℚ) ^ 1074 * 2 < 10 ^ 324 := by
      rw [← pow_succ, ← cast_twoTo, ← cast_tenTo]
      exact_mod_cast twoTo_lt_tenTo.1
    have hunits : 1 ≤ (shortest x).value * (2 ^ 1074 * 2) := by
      generalize (2 : ℚ) ^ 1074 = u at hlow ⊢
      linarith
    rw [zpow_neg, zpow_ofNat, ← one_div, lt_div_iff₀ (by positivity)] at hsmall
    have hvalue : 0 ≤ (shortest x).value := by
      rw [Decimal.value]
      positivity
    exact absurd (hunits.trans (mul_le_mul_of_nonneg_left htwo.le hvalue)) (not_le.mpr hsmall)
  -- and one this large is above every float, even with the half step up
  · by_contra hlt
    have hlarge := (zpow_le_zpow_right₀ (by norm_num : (1 : ℚ) ≤ 10) (by omega : 309 ≤ (shortest x).point - 1)).trans
      hproper.pow_le_value
    have htwo : (2 : ℚ) ^ 1024 < 10 ^ 309 := by
      rw [← cast_twoTo, ← cast_tenTo]
      exact_mod_cast twoTo_lt_tenTo.2
    have hsignificand : (4 * significand x + 2 : ℚ) ≤ 2 ^ 55 := by
      have hcast : (significand x + 1 : ℚ) ≤ 2 ^ 53 := by exact_mod_cast significand_lt x
      linarith
    have hlast : (2 : ℚ) ^ lastPlace x ≤ 2 ^ 2045 := pow_le_pow_right₀ one_le_two (lastPlace_le hfinite)
    have hunits : (shortest x).value * (4 * 2 ^ 1074) ≤ 2 ^ 1024 * (4 * 2 ^ 1074) := by
      calc (shortest x).value * (4 * 2 ^ 1074) ≤ (4 * significand x + 2) * 2 ^ lastPlace x := hhigh
        _ ≤ 2 ^ 55 * 2 ^ 2045 := mul_le_mul hsignificand hlast (by positivity) (by positivity)
        _ = 2 ^ 1024 * (2 ^ 2 * 2 ^ 1074) := by rw [← pow_add, ← pow_add, ← pow_add]
        _ = 2 ^ 1024 * (4 * 2 ^ 1074) := by rw [show (2 : ℚ) ^ 2 = 4 by norm_num]
    have hvalue := le_of_mul_le_mul_right hunits (by positivity)
    rw [zpow_ofNat] at hlarge
    exact absurd (hlarge.trans hvalue) (not_le.mpr htwo)

end NoteQuery.Number

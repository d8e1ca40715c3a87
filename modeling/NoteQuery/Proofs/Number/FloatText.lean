import NoteQuery.Proofs.Number.Numeral
import NoteQuery.Proofs.Number.ShortestDecimal

/-!
# The text of a float

A decimal is written as digits, perhaps with a point and an exponent, and what is written is read as
the decimal. So the text of a float is read as the same float, and floats with the same text are one.
-/

namespace NoteQuery.Number

/-! ## The text of a decimal -/

theorem allDigits_padded (width n : ℕ) : AllDigits (Text.padded width n) := by
  intro c hc
  rcases List.mem_append.mp hc with hc | hc
  · exact Text.isDigit_of_mem_zeros c hc
  · exact Text.isDigit_of_mem_decimal hc

theorem digitsValue_padded (width n : ℕ) : Text.digitsValue (Text.padded width n) = n := by
  rw [Text.padded, Text.digitsValue_zeros_append _ fun _ => Text.isDigit_of_mem_decimal, Text.digitsValue_decimal]

theorem padded_ne_nil (width n : ℕ) : Text.padded width n ≠ [] := by
  rw [Text.padded]
  exact List.append_ne_nil_of_right_ne_nil _ (Text.decimal_ne_nil n)

theorem isExponent_padded (e : ℤ) : IsExponent ('e' :: (if e < 0 then '-' else '+') :: Text.padded 2 e.natAbs) e := by
  have hvalue := digitsValue_padded 2 e.natAbs
  split
  · have h := IsExponent.minus (padded_ne_nil 2 e.natAbs) (allDigits_padded 2 e.natAbs)
    rwa [hvalue, show (-(e.natAbs : ℤ)) = e by omega] at h
  · have h := IsExponent.plus (padded_ne_nil 2 e.natAbs) (allDigits_padded 2 e.natAbs)
    rwa [hvalue, show (e.natAbs : ℤ) = e by omega] at h

namespace Decimal

/-- What a text writes has the value of a decimal, with its exponent and its first digit within bounds
that the point gives. -/
structure Writes (d : Decimal) (cs ds : List Char) (e : ℤ) : Prop where
  isNumeral : IsNumeral cs ds e
  value : Text.digitsValue ds * 10 ^ e = d.value
  first : min d.point 1 ≤ ds.length + e
  last : e ≤ max d.point 0

section

variable {d : Decimal} (h : d.IsProper)
include h

theorem writes_small (hpoint : d.point ≤ 0) :
    ∃ ds e, d.Writes ('0' :: '.' :: List.replicate (-d.point).toNat '0' ++ d.digits) ds e := by
  have hzeros : AllDigits (List.replicate (-d.point).toNat '0' ++ d.digits) :=
    List.forall_mem_append.mpr ⟨Text.isDigit_of_mem_zeros, h.digits⟩
  have hlength : (0 : ℤ) - (List.replicate (-d.point).toNat '0' ++ d.digits).length = d.point - d.digits.length := by
    rw [List.length_append, List.length_replicate]
    omega
  have hvalue : Text.digitsValue (['0'] ++ (List.replicate (-d.point).toNat '0' ++ d.digits)) = Text.digitsValue d.digits :=
    (Text.digitsValue_zeros_append 1 hzeros).trans (Text.digitsValue_zeros_append _ h.digits)
  have hnumeral := IsNumeral.point (List.cons_ne_nil '0' []) (Text.isDigit_of_mem_zeros (n := 1)) hzeros .none
  rw [List.append_nil] at hnumeral
  refine ⟨_, _, hnumeral, ?_, ?_, ?_⟩
  · rw [hvalue, hlength, value]
  · rw [List.length_append, List.length_singleton]
    omega
  · omega

theorem writes_whole (hcount : d.digits.length ≤ d.point) : ∃ ds e,
    d.Writes (d.digits ++ List.replicate (d.point - d.digits.length).toNat '0' ++ ['.', '0']) ds e := by
  have hzeros : AllDigits (d.digits ++ List.replicate (d.point - d.digits.length).toNat '0') :=
    List.forall_mem_append.mpr ⟨h.digits, Text.isDigit_of_mem_zeros⟩
  have hnumeral := IsNumeral.point (List.append_ne_nil_of_left_ne_nil h.ne_nil _) hzeros
    (Text.isDigit_of_mem_zeros (n := 1)) .none
  have hlength : (d.digits ++ List.replicate (d.point - d.digits.length).toNat '0').length = d.point := by
    rw [List.length_append, List.length_replicate]
    omega
  have hpow : (10 : ℚ) ^ (d.point - d.digits.length) = 10 ^ (d.point - d.digits.length).toNat := by
    rw [← zpow_natCast, Int.toNat_of_nonneg (by omega)]
  refine ⟨_, _, hnumeral, ?_, ?_, ?_⟩
  · rw [Text.digitsValue_append_zeros hzeros 1, Text.digitsValue_append_zeros h.digits, value, hpow, List.length_replicate]
    push_cast
    rw [zpow_neg_one, mul_inv_cancel_right₀ (by norm_num)]
  · rw [List.length_append, List.length_replicate]
    push_cast
    omega
  · rw [List.length_replicate]
    omega

theorem writes_inside (hpoint : 0 < d.point) (hcount : d.point < d.digits.length) :
    ∃ ds e, d.Writes (d.digits.take d.point.toNat ++ '.' :: d.digits.drop d.point.toNat) ds e := by
  have hfirst : AllDigits (d.digits.take d.point.toNat) := fun c hc => h.digits c (List.mem_of_mem_take hc)
  have hrest : AllDigits (d.digits.drop d.point.toNat) := fun c hc => h.digits c (List.mem_of_mem_drop hc)
  have hlength : (0 : ℤ) - (d.digits.drop d.point.toNat).length = d.point - d.digits.length := by
    rw [List.length_drop]
    omega
  have hne : d.digits.take d.point.toNat ≠ [] := by
    refine List.length_pos_iff.mp ?_
    rw [List.length_take]
    omega
  have hnumeral := IsNumeral.point hne hfirst hrest .none
  rw [List.append_nil, List.take_append_drop, hlength] at hnumeral
  refine ⟨_, _, hnumeral, rfl, ?_, ?_⟩
  · omega
  · omega

theorem writes_scientific : ∃ ds e, d.Writes ((match d.digits with
    | [] => []
    | [c] => [c]
    | c :: cs => c :: '.' :: cs) ++
      'e' :: (if d.point - 1 < 0 then '-' else '+') :: Text.padded 2 (d.point - 1).natAbs) ds e := by
  have hexponent := isExponent_padded (d.point - 1)
  have hdigits := h.digits
  have hne := h.ne_nil
  have hvalue : d.value = Text.digitsValue d.digits * 10 ^ (d.point - d.digits.length) := rfl
  -- a point is written only if there is a digit to stand behind it
  match hd : d.digits with
  | [] => exact absurd hd hne
  | [c] =>
    rw [hd] at hdigits hvalue
    have hnumeral := IsNumeral.whole (List.cons_ne_nil c []) hdigits hexponent
    refine ⟨_, _, hnumeral, hvalue.symm, ?_, ?_⟩
    · rw [List.length_singleton]
      omega
    · omega
  | c :: c' :: cs =>
    rw [hd] at hdigits hvalue
    obtain ⟨hc, hcs⟩ := List.forall_mem_cons.mp hdigits
    have hnumeral := IsNumeral.point (List.cons_ne_nil c []) (by simpa [AllDigits] using hc) hcs hexponent
    have hlength : d.point - 1 - ((c' :: cs).length : ℤ) = d.point - (c :: c' :: cs).length := by
      simp only [List.length_cons]
      omega
    rw [hlength] at hnumeral
    refine ⟨_, _, hnumeral, hvalue.symm, ?_, ?_⟩
    · rw [List.singleton_append]
      omega
    · omega

theorem exists_writes : ∃ ds e, d.Writes d.text ds e := by
  rw [text]
  dsimp only
  split
  · split
    · exact writes_small h ‹_›
    split
    · exact writes_whole h ‹_›
    · exact writes_inside h (Int.not_le.mp ‹_›) (Int.not_le.mp ‹_›)
  · exact writes_scientific h

end

end Decimal

/-! ## Reading the text of a float -/

theorem ofDecimal_of_covers {x : Float} (hfinite : isFinite x = true) (hpos : 0 < significand x) {ds : List Char} {e : ℤ}
    (hvalue : 0 < Text.digitsValue ds) (hfirst : -330 ≤ ds.length + e) (hlast : e ≤ 310)
    (hcovers : (neighbourhood x).Covers (Text.digitsValue ds * 10 ^ e * (4 * unit))) :
    ofDecimal (isNegative x) ds e = x := by
  have hunits : ∀ q : ℚ, 4 * (q * 2 ^ 1074) = q * (4 * unit) := by
    intro q
    rw [cast_unit]
    exact mul_left_comm _ _ _
  rw [ofDecimal, if_neg (by omega), if_neg (by omega)]
  split
  · rename_i he
    obtain ⟨n, rfl⟩ := Int.eq_ofNat_of_zero_le he
    refine ofRatio_of_covers hfinite hpos (Nat.mul_pos hvalue (Nat.pow_pos (by decide))) Nat.one_pos ?_
    rw [hunits, Nat.cast_mul, cast_tenTo, Int.toNat_natCast, Nat.cast_one, div_one, ← zpow_natCast]
    exact hcovers
  · rename_i he
    obtain ⟨n, rfl⟩ : ∃ n : ℕ, e = -n := ⟨(-e).toNat, by omega⟩
    refine ofRatio_of_covers hfinite hpos hvalue (Nat.pow_pos (by decide)) ?_
    rw [hunits, cast_tenTo, neg_neg, Int.toNat_natCast, div_eq_mul_inv, ← zpow_natCast, ← zpow_neg]
    exact hcovers

theorem readFloat?_shortest {x : Float} (hfinite : isFinite x = true) (hpos : 0 < significand x) :
    readFloat? (if isNegative x then '-' :: (shortest x).text else (shortest x).text) = some x := by
  obtain ⟨hproper, hcovers⟩ := shortest_spec hpos
  obtain ⟨hlow, hhigh⟩ := point_shortest hfinite hpos
  obtain ⟨ds, e, hwrites⟩ := Decimal.exists_writes hproper
  have hfirst := hwrites.first
  have hlast := hwrites.last
  rw [← hwrites.value] at hcovers
  have hvalue : 0 < Text.digitsValue ds := by
    refine Nat.pos_of_ne_zero fun hzero => ?_
    have hlarge := hproper.pow_le_value
    rw [← hwrites.value, hzero, Nat.cast_zero, zero_mul] at hlarge
    exact absurd hlarge (not_le.mpr (by positivity))
  rw [readFloat?_of_isNumeral hwrites.isNumeral,
    ofDecimal_of_covers hfinite hpos hvalue (by omega) (by omega) hcovers]

theorem sizeBits_of_not_pos {x : Float} (h : ¬0 < significand x) : sizeBits x = 0 := by
  have hbits := sizeBits_eq x
  have hplace : ¬0 < lastPlace x := fun hplace => h (lt_of_lt_of_le (by decide) (le_significand x hplace))
  simp only [Nat.eq_zero_of_not_pos h, Nat.eq_zero_of_not_pos hplace] at hbits
  simpa using hbits

theorem eq_infinity {x : Float} (hnan : isNaN x = false) (hinfinite : isFinite x = false) :
    x = infinity (isNegative x) := by
  have hsize : ∀ negative, sizeBits (infinity negative) = 2047 * twoTo 52 ∧ isNegative (infinity negative) = negative := by
    decide +kernel
  obtain ⟨hinfinity, hnegative⟩ := hsize (isNegative x)
  refine eq_of_bits hnegative.symm ?_
  have hge := mt (isFinite_iff x).mpr (Bool.eq_false_iff.mp hinfinite)
  rw [hinfinity]
  exact Nat.le_antisymm (sizeBits_of_isNaN x hnan) (Nat.not_lt.mp hge)

theorem readFloat?_infinity (negative : Bool) :
    readFloat? (if negative then ['-', 'i', 'n', 'f'] else ['i', 'n', 'f']) = some (infinity negative) := by
  have hsign : splitSign (plainDigits (Text.trim (if negative then ['-', 'i', 'n', 'f'] else ['i', 'n', 'f']))) =
      (negative, ['i', 'n', 'f']) := by
    revert negative
    decide +kernel
  rw [readFloat?, hsign]
  exact if_pos (Or.inl (by decide +kernel))

theorem readFloat?_zero {x : Float} (hzero : sizeBits x = 0) :
    readFloat? (if isNegative x then ['-', '0', '.', '0'] else ['0', '.', '0']) = some x := by
  have hdigit : AllDigits ['0'] := Text.isDigit_of_mem_zeros (n := 1)
  have hread := readFloat?_of_isNumeral (.point (List.cons_ne_nil '0' []) hdigit hdigit .none) (isNegative x)
  have hround : ofDecimal (isNegative x) ['0', '0'] (0 - 1) = x := by
    rw [ofDecimal, if_pos (Or.inl (by decide))]
    exact ofRatio_of_sizeBits hzero.symm
  exact hread.trans (congrArg some hround)

def sizeChars (x : Float) : List Char :=
  if !isFinite x then ['i', 'n', 'f'] else if magnitude x = 0 then ['0', '.', '0'] else (shortest x).text

theorem floatChars_eq {x : Float} (hnan : isNaN x = false) :
    floatChars x = if isNegative x then '-' :: sizeChars x else sizeChars x :=
  if_neg (Bool.eq_false_iff.mp hnan)

/-- The text of a float is read as the same float. -/
theorem readFloat?_floatChars {x : Float} (hnan : isNaN x = false) : readFloat? (floatChars x) = some x := by
  rw [floatChars_eq hnan]
  by_cases hfinite : isFinite x = true
  · by_cases hpos : 0 < significand x
    · have hmagnitude : magnitude x ≠ 0 := (Nat.mul_pos hpos (Nat.two_pow_pos _)).ne'
      have hsize : sizeChars x = (shortest x).text := by simp only [sizeChars, hfinite, hmagnitude, Bool.not_true,
        Bool.false_eq_true, if_false]
      rw [hsize]
      exact readFloat?_shortest hfinite hpos
    · have hmagnitude : magnitude x = 0 := by rw [magnitude, Nat.eq_zero_of_not_pos hpos, Nat.zero_mul]
      have hsize : sizeChars x = ['0', '.', '0'] := by simp only [sizeChars, hfinite, hmagnitude, Bool.not_true,
        Bool.false_eq_true, if_false, if_true]
      rw [hsize]
      exact readFloat?_zero (sizeBits_of_not_pos hpos)
  · have hinfinite := Bool.eq_false_iff.mpr hfinite
    have hsize : sizeChars x = ['i', 'n', 'f'] := by simp only [sizeChars, hinfinite, Bool.not_false, if_true]
    rw [hsize, readFloat?_infinity, ← eq_infinity hnan hinfinite]

theorem floatText_injOn {x y : Float} (hx : isNaN x = false) (hy : isNaN y = false) (h : floatText x = floatText y) :
    x = y := by
  have hread := readFloat?_floatChars hx
  rw [String.ofList_injective h, readFloat?_floatChars hy] at hread
  exact (Option.some.inj hread).symm

end NoteQuery.Number

import Mathlib
import NoteQuery.Number.Read

/-!
# Bits of floats

A float is known from its sign and the rest of its bits, and bits that are not those of a NaN are
kept when they are made a float. So no number that is rounded or read is a NaN.
-/

namespace NoteQuery.Number

open Float.Model.UnpackedFloat (unpackExponent unpackMantissa)

theorem twoTo_eq (n : Nat) : twoTo n = 2 ^ n := rfl

def sizeBits (x : Float) : Nat := x.toBits.toNat % twoTo 63

section

variable (x : Float)

theorem toNat_toBits_lt : x.toBits.toNat < 2 ^ 64 := x.toBits.toNat_lt

theorem exponentField_eq : exponentField x = sizeBits x / twoTo 52 := by
  have hlt := toNat_toBits_lt x
  rw [exponentField, sizeBits]
  simp only [twoTo_eq]
  omega

theorem fractionField_eq : fractionField x = sizeBits x % twoTo 52 := by
  rw [fractionField, sizeBits]
  simp only [twoTo_eq]
  omega

theorem sizeBits_of_isNaN (h : isNaN x = false) : sizeBits x ≤ 2047 * twoTo 52 := by
  simp only [isNaN, Bool.and_eq_false_iff, beq_eq_false_iff_ne, bne_eq_false_iff_eq, exponentField_eq,
    fractionField_eq] at h
  have hlt : sizeBits x < twoTo 63 := Nat.mod_lt _ (by decide)
  simp only [twoTo_eq] at h hlt ⊢
  omega

theorem isFinite_iff : isFinite x = true ↔ sizeBits x < 2047 * twoTo 52 := by
  rw [isFinite, bne_iff_ne, exponentField_eq]
  have hlt : sizeBits x < twoTo 63 := Nat.mod_lt _ (by decide)
  simp only [twoTo_eq] at hlt ⊢
  omega

end

theorem eq_of_bits {x y : Float} (hsign : isNegative x = isNegative y) (hsize : sizeBits x = sizeBits y) : x = y := by
  have hx := toNat_toBits_lt x
  have hy := toNat_toBits_lt y
  rw [Bool.eq_iff_iff, isNegative, isNegative, beq_iff_eq, beq_iff_eq] at hsign
  rw [sizeBits, sizeBits] at hsize
  simp only [twoTo_eq] at hsign hsize
  rw [← Float.toBits_inj, ← UInt64.toNat_inj]
  omega

/-! ## Floats made of bits -/

theorem toBits_ofBits {bits : UInt64} (h : bits.toNat / twoTo 52 % twoTo 11 ≠ 2047 ∨ bits.toNat % twoTo 52 = 0) :
    (Float.ofBits bits).toBits = bits := by
  have hvalid : Float.Model.Format.binary64.Valid bits.toBitVec := by
    constructor
    intro hexponent hmantissa
    exfalso
    rw [← BitVec.toNat_inj] at hexponent
    rw [Ne, ← BitVec.toNat_inj] at hmantissa
    simp [unpackExponent, unpackMantissa, Float.Model.Format.binary64, Float.Model.Format.numBits,
      Nat.shiftRight_eq_div_pow] at hexponent hmantissa
    rcases h with h | h
    · exact h hexponent
    · exact hmantissa h
  exact congrArg Float.toBits (Float.ofBits_toBits ⟨⟨bits, hvalid⟩⟩)

theorem isNaN_ofBits {n : Nat} (hlt : n < twoTo 64) (h : n % twoTo 63 ≤ 2047 * twoTo 52) :
    isNaN (Float.ofBits (UInt64.ofNat n)) = false := by
  have hn : (UInt64.ofNat n).toNat = n := UInt64.toNat_ofNat_of_lt' hlt
  simp only [twoTo_eq] at h hlt
  have hbits : (Float.ofBits (UInt64.ofNat n)).toBits = UInt64.ofNat n := by
    apply toBits_ofBits
    rw [hn]
    simp only [twoTo_eq]
    omega
  rw [isNaN, exponentField, fractionField, hbits, hn, Bool.and_eq_false_iff, beq_eq_false_iff_ne, bne_eq_false_iff_eq]
  simp only [twoTo_eq]
  omega

theorem nearestBits_le (num den : Nat) : nearestBits num den ≤ 2047 * twoTo 52 := by
  rw [nearestBits]
  exact Nat.min_le_right _ _

theorem isNaN_ofRatio (negative : Bool) (num den : Nat) : isNaN (ofRatio negative num den) = false := by
  have hle : (if num = 0 then 0 else nearestBits num den) ≤ 2047 * twoTo 52 := by
    split
    · exact Nat.zero_le _
    · exact nearestBits_le num den
  rw [ofRatio]
  generalize (if num = 0 then 0 else nearestBits num den) = bits at hle ⊢
  simp only [twoTo_eq] at hle
  cases negative with
  | false => apply isNaN_ofBits <;> simp only [twoTo_eq, Bool.false_eq_true, if_false] <;> omega
  | true => apply isNaN_ofBits <;> simp only [twoTo_eq, if_true] <;> omega

theorem isNaN_infinity (negative : Bool) : isNaN (infinity negative) = false := by
  cases negative <;> decide +kernel

theorem isNaN_ofDecimal (negative : Bool) (digits : List Char) (e : Int) : isNaN (ofDecimal negative digits e) = false := by
  unfold ofDecimal
  dsimp only
  split
  · exact isNaN_ofRatio _ _ _
  split
  · exact isNaN_infinity _
  split
  · exact isNaN_ofRatio _ _ _
  · exact isNaN_ofRatio _ _ _

theorem isNaN_of_unsigned? {negative : Bool} {cs : List Char} {x : Float} (h : unsigned? negative cs = some x) :
    isNaN x = false := by
  have hread : ∀ (whole : List Char) (after : List Char × List Char),
      (if whole = [] ∧ after.1 = [] then none
        else (exponent? after.2).map fun e => ofDecimal negative (whole ++ after.1) (e - after.1.length)) = some x →
      isNaN x = false := by
    intro whole after hafter
    split at hafter
    · cases hafter
    · obtain ⟨e, -, rfl⟩ := Option.map_eq_some_iff.mp hafter
      exact isNaN_ofDecimal _ _ _
  exact hread _ _ h

end NoteQuery.Number

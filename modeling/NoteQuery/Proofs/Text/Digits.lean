import Mathlib
import NoteQuery.Proofs.Text.Letter

/-!
# Runs of digits

The number that a run of digits writes, put together from the parts of the run, and how long the run of
a number is.
-/

namespace NoteQuery.Text

theorem digitsValue_eq {cs : List Char} (h : ∀ c ∈ cs, c.isDigit = true) : digitsValue cs = Nat.ofDigitChars 10 cs 0 := by
  rw [digitsValue, foldl_digitValue? h]

theorem digitsValue_append {cs ds : List Char} (hcs : ∀ c ∈ cs, c.isDigit = true) (hds : ∀ c ∈ ds, c.isDigit = true) :
    digitsValue (cs ++ ds) = digitsValue cs * 10 ^ ds.length + digitsValue ds := by
  have hall : ∀ c ∈ cs ++ ds, c.isDigit = true := by
    intro c hc
    rcases List.mem_append.mp hc with hc | hc
    · exact hcs c hc
    · exact hds c hc
  rw [digitsValue_eq hall, digitsValue_eq hcs, digitsValue_eq hds, Nat.ofDigitChars_append,
    Nat.ofDigitChars_eq_ofDigitChars_zero, Nat.mul_comm]

theorem isDigit_of_mem_zeros {n : Nat} : ∀ c ∈ List.replicate n '0', c.isDigit = true := by
  intro c hc
  rw [(List.mem_replicate.mp hc).2]
  rfl

theorem digitsValue_zeros (n : Nat) : digitsValue (List.replicate n '0') = 0 := by
  rw [digitsValue_eq isDigit_of_mem_zeros, Nat.ofDigitChars_replicate_zero, Nat.mul_zero]

theorem digitsValue_zeros_append (n : Nat) {ds : List Char} (h : ∀ c ∈ ds, c.isDigit = true) :
    digitsValue (List.replicate n '0' ++ ds) = digitsValue ds := by
  rw [digitsValue_append isDigit_of_mem_zeros h, digitsValue_zeros, Nat.zero_mul, Nat.zero_add]

theorem digitsValue_append_zeros {cs : List Char} (h : ∀ c ∈ cs, c.isDigit = true) (n : Nat) :
    digitsValue (cs ++ List.replicate n '0') = digitsValue cs * 10 ^ n := by
  rw [digitsValue_append h isDigit_of_mem_zeros, digitsValue_zeros, List.length_replicate, Nat.add_zero]

theorem digitsValue_cons {c : Char} {cs : List Char} (hc : c.isDigit = true) (hcs : ∀ d ∈ cs, d.isDigit = true) :
    digitsValue (c :: cs) = (c.toNat - 48) * 10 ^ cs.length + digitsValue cs := by
  have hfirst : digitsValue [c] = c.toNat - 48 := by simp [digitsValue, digitValue?_of_isDigit hc]
  rw [← List.singleton_append, digitsValue_append (by simpa using hc) hcs, hfirst]

theorem digitsValue_lt : ∀ {cs : List Char}, (∀ c ∈ cs, c.isDigit = true) → digitsValue cs < 10 ^ cs.length
  | [], _ => Nat.one_pos
  | c :: cs, h => by
    obtain ⟨hc, hcs⟩ := List.forall_mem_cons.mp h
    have hle := (isDigit_iff.mp hc).2
    have hless := digitsValue_lt hcs
    have hfirst : (c.toNat - 48) * 10 ^ cs.length ≤ 9 * 10 ^ cs.length := Nat.mul_le_mul_right _ (by omega)
    rw [digitsValue_cons hc hcs, List.length_cons, Nat.pow_succ]
    omega

theorem pow_length_decimal_le {n : Nat} (h : 0 < n) : 10 ^ ((decimal n).length - 1) ≤ n := by
  have hpos : 0 < (decimal n).length := List.length_pos_iff.mpr (decimal_ne_nil n)
  by_cases hone : (decimal n).length = 1
  · rw [hone]
    exact h
  · have hshort := Nat.length_toDigits_le_iff (b := 10) (n := n) (k := (decimal n).length - 1) (by decide) (by omega)
    exact Nat.le_of_not_lt fun hlt => absurd (hshort.mpr hlt) (by rw [← decimal]; omega)

theorem length_decimal_le_iff (n : Nat) : (decimal n).length ≤ maxDigits ↔ n < 10 ^ maxDigits :=
  Nat.length_toDigits_le_iff (by decide) (by decide)

theorem isLong_eq_false_iff {n : Int} : isLong n = false ↔ n.natAbs < 10 ^ maxDigits := by
  rw [isLong, decide_eq_false_iff_not, Nat.not_lt]
  exact length_decimal_le_iff n.natAbs

theorem exists_isLong : ∃ n : Int, isLong n = true := by
  refine ⟨(10 ^ maxDigits : ℕ), ?_⟩
  rw [← Bool.not_eq_false, isLong_eq_false_iff, Int.natAbs_natCast]
  exact Nat.lt_irrefl _

end NoteQuery.Text

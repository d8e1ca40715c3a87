import Mathlib.Data.List.Basic
import NoteQuery.Json.Reader
import NoteQuery.Proofs.Text.Letter

/-!
# Texts in JSON documents

Every character is written as one escape, as the escapes of a surrogate pair, or as it stands, and
what is written gives back its code units. Code units of characters make up the same characters.
-/

namespace NoteQuery.Json

theorem hexUnit?_hexadecimal {n : ℕ} (h : n < 0x10000) :
    ∃ a b c d, Text.hexadecimal 4 n = [a, b, c, d] ∧ hexUnit? a b c d = some n := by
  refine ⟨_, _, _, _, Text.hexadecimal_four h, ?_⟩
  unfold hexUnit?
  rw [Text.hexValue?_digitChar _ (by omega), Text.hexValue?_digitChar _ (by omega),
    Text.hexValue?_digitChar _ (by omega), Text.hexValue?_digitChar _ (by omega)]
  have hsum : 0x1000 * (n / 16 / 16 / 16) + 0x100 * (n / 16 / 16 % 16) + 0x10 * (n / 16 % 16) + n % 16 = n := by
    omega
  simp [hsum]

/-! ## Escapes -/

def charUnits (ascii : Bool) (c : Char) : List ℕ :=
  if ascii && 0x10000 ≤ c.toNat then
    [0xd800 + (c.toNat - 0x10000) / 0x400, 0xdc00 + (c.toNat - 0x10000) % 0x400]
  else [c.toNat]

def addUnits (units : List ℕ) (rest : Option (List ℕ × List Char)) : Option (List ℕ × List Char) :=
  units.foldr (fun n rest => addUnit (some n) rest) rest

theorem units?_unitEscape {n : ℕ} (h : n < 0x10000) (cs : List Char) :
    units? (unitEscape n ++ cs) = addUnit (some n) (units? cs) := by
  obtain ⟨a, b, c, d, hdigits, hunit⟩ := hexUnit?_hexadecimal h
  unfold unitEscape
  rw [hdigits]
  simp [units?, hunit]

theorem units?_plain {c : Char} (hquote : c ≠ '"') (hback : c ≠ '\\') (h : 32 ≤ c.toNat) (cs : List Char) :
    units? (c :: cs) = addUnit (some c.toNat) (units? cs) := by
  rw [units?.eq_def]
  simp [hquote, hback, Nat.not_lt.mpr h]

theorem units?_escapedChar (ascii : Bool) (c : Char) (cs : List Char) :
    units? (escapedChar ascii c ++ cs) = addUnits (charUnits ascii c) (units? cs) := by
  have hone (h : ascii = true → c.toNat < 0x10000) :
      addUnits (charUnits ascii c) (units? cs) = addUnit (some c.toNat) (units? cs) := by
    cases ascii with
    | true => simp [charUnits, addUnits, Nat.not_le.mpr (h rfl)]
    | false => rfl
  unfold escapedChar
  dsimp only
  -- the cases of the writer: a letter behind the backslash, one code unit, two of them, or the character itself
  split
  · rename_i hc
    obtain rfl | rfl : c = '"' ∨ c = '\\' := by simpa using hc
    · rw [hone fun _ => by decide]
      rfl
    · rw [hone fun _ => by decide]
      rfl
  split
  · obtain rfl := eq_of_beq ‹_›
    rw [hone fun _ => by decide]
    rfl
  split
  · obtain rfl := eq_of_beq ‹_›
    rw [hone fun _ => by decide]
    rfl
  split
  · obtain rfl := eq_of_beq ‹_›
    rw [hone fun _ => by decide]
    rfl
  split
  · have hc : c.toNat = 8 := eq_of_beq ‹_›
    rw [hone (by omega), hc]
    rfl
  split
  · have hc : c.toNat = 12 := eq_of_beq ‹_›
    rw [hone (by omega), hc]
    rfl
  split
  · rw [hone (by omega), units?_unitEscape (by omega)]
  split
  · split
    · rw [hone (fun _ => ‹_›), units?_unitEscape ‹_›]
    · rename_i hascii hwide
      have hc := Text.toNat_cases c
      rw [List.append_assoc, units?_unitEscape (by omega), units?_unitEscape (by omega)]
      simp_all [charUnits, addUnits]
  · rename_i hquote _ _ _ _ _ hlow hascii
    simp only [Bool.or_eq_true, beq_iff_eq, not_or] at hquote
    have hshort (h : ascii = true) : c.toNat < 0x10000 := by
      simp only [h, Bool.true_and, decide_eq_true_eq] at hascii
      omega
    rw [List.singleton_append, units?_plain hquote.1 hquote.2 (Nat.not_lt.mp hlow), hone hshort]

theorem units?_quoted (ascii : Bool) (cs rest : List Char) :
    units? (cs.flatMap (escapedChar ascii) ++ '"' :: rest) = some (cs.flatMap (charUnits ascii), rest) := by
  have hunits (units more : List ℕ) : addUnits units (some (more, rest)) = some (units ++ more, rest) := by
    induction units with
    | nil => rfl
    | cons n units ih =>
      rw [addUnits, List.foldr_cons, ← addUnits, ih]
      rfl
  induction cs with
  | nil =>
    rw [List.flatMap_nil, List.nil_append, units?.eq_def]
    rfl
  | cons c cs ih => rw [List.flatMap_cons, List.append_assoc, units?_escapedChar, ih, hunits, List.flatMap_cons]

/-! ## Characters -/

theorem joinUnits?_charUnits (ascii : Bool) (c : Char) (units : List ℕ) :
    joinUnits? (charUnits ascii c ++ units) = (joinUnits? units).map (c :: ·) := by
  have hc := Text.toNat_cases c
  unfold charUnits
  split
  · rename_i hwide
    simp only [Bool.and_eq_true, decide_eq_true_eq] at hwide
    have hhigh : isHighHalf (0xd800 + (c.toNat - 0x10000) / 0x400) = true := by
      simp only [isHighHalf, Bool.and_eq_true, decide_eq_true_eq]
      omega
    have hlow : isLowHalf (0xdc00 + (c.toNat - 0x10000) % 0x400) = true := by
      simp only [isLowHalf, Bool.and_eq_true, decide_eq_true_eq]
      omega
    have hsum : 0x10000 + 0x400 * (0xd800 + (c.toNat - 0x10000) / 0x400 - 0xd800) +
        (0xdc00 + (c.toNat - 0x10000) % 0x400 - 0xdc00) = c.toNat := by omega
    rw [List.cons_append, List.singleton_append, joinUnits?, if_pos hhigh, if_pos hlow, hsum, Char.ofNat_toNat]
  · -- a character is no surrogate, so a single unit is never taken for a half
    have hhigh : isHighHalf c.toNat = false := by
      simp only [isHighHalf, Bool.and_eq_false_iff, decide_eq_false_iff_not]
      omega
    have hlow : isLowHalf c.toNat = false := by
      simp only [isLowHalf, Bool.and_eq_false_iff, decide_eq_false_iff_not]
      omega
    rw [List.singleton_append, joinUnits?.eq_def]
    simp [hhigh, hlow]

theorem text?_quoted (ascii : Bool) (s : String) (rest : List Char) :
    text? (s.toList.flatMap (escapedChar ascii) ++ '"' :: rest) = some (s, rest) := by
  have hjoin (cs : List Char) : joinUnits? (cs.flatMap (charUnits ascii)) = some cs := by
    induction cs with
    | nil => rfl
    | cons c cs ih =>
      rw [List.flatMap_cons, joinUnits?_charUnits, ih]
      rfl
  unfold text?
  rw [units?_quoted]
  simp [hjoin]

end NoteQuery.Json

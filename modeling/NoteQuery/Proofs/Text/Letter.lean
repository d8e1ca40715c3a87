import NoteQuery.Text.Blank
import NoteQuery.Text.Case
import NoteQuery.Text.Word

/-!
# Word characters, blanks, letters and digits

No blank is a word character, and whatever is read as a letter of a keyword is one. Both are
laws of the tables: they look at every blank and at the letters beyond ASCII that differ from
an ASCII letter in case only. Lower-casing brings in no mark, and the digits of a number are
read back as the number, as are those of one in base sixteen.
-/

namespace NoteQuery.Text

theorem isUpper_iff {c : Char} : c.isUpper = true ↔ 65 ≤ c.toNat ∧ c.toNat ≤ 90 := decide_eq_true_iff

theorem isLower_iff {c : Char} : c.isLower = true ↔ 97 ≤ c.toNat ∧ c.toNat ≤ 122 :=
  Bool.and_eq_true_iff.trans (and_congr decide_eq_true_iff decide_eq_true_iff)

theorem isDigit_iff {c : Char} : c.isDigit = true ↔ 48 ≤ c.toNat ∧ c.toNat ≤ 57 := Char.isDigit_iff_toNat

theorem isAlpha_iff {c : Char} : c.isAlpha = true ↔ c.isUpper = true ∨ c.isLower = true := Bool.or_eq_true_iff

theorem isAlphanum_iff {c : Char} : c.isAlphanum = true ↔ c.isAlpha = true ∨ c.isDigit = true := Bool.or_eq_true_iff

theorem toNat_lt_of_isAlphanum {c : Char} (h : c.isAlphanum = true) : c.toNat < 128 := by
  rw [isAlphanum_iff, isAlpha_iff, isUpper_iff, isLower_iff, isDigit_iff] at h
  omega

theorem isWord_of_isAlphanum {c : Char} (h : c.isAlphanum = true) : isWord c = true := by
  simp [isWord, toNat_lt_of_isAlphanum h, h]

theorem isWord_of_wide {c : Char} {n : Nat} (hc : c.toNat = n) (hn : 128 ≤ n) :
    isWord c = inRanges wordEdges n := by
  subst hc
  rw [isWord, if_neg (Nat.not_lt.mpr hn)]

theorem isFieldChar_of_isWord {c : Char} (h : isWord c = true) : isFieldChar c = true := by
  simp [isFieldChar, h]

/-! ## Blanks -/

def wideBlanks : List Nat :=
  [0x85, 0xa0, 0x1680, 0x2000, 0x2001, 0x2002, 0x2003, 0x2004, 0x2005, 0x2006, 0x2007, 0x2008, 0x2009, 0x200a,
    0x2028, 0x2029, 0x202f, 0x205f, 0x3000]

theorem inRanges_wordEdges_wideBlanks : ∀ n ∈ wideBlanks, inRanges wordEdges n = false := by decide +kernel

theorem not_isWord_of_isBlank {c : Char} (h : isBlank c = true) : isWord c = false := by
  by_cases hlt : c.toNat < 128
  · have hcode : c.toNat ∈ [9, 10, 11, 12, 13, 28, 29, 30, 31, 32] := by
      simp [isBlank] at h ⊢
      omega
    have hc : c = Char.ofNat c.toNat := (Char.ofNat_toNat c).symm
    rw [hc]
    revert hcode
    generalize c.toNat = n
    revert n
    decide
  · have hmem : c.toNat ∈ wideBlanks := by
      simp [isBlank, wideBlanks] at h ⊢
      omega
    rw [isWord_of_wide rfl (Nat.not_lt.mp hlt)]
    exact inRanges_wordEdges_wideBlanks _ hmem

theorem not_isBlank_of_isWord {c : Char} (h : isWord c = true) : isBlank c = false := by
  cases hb : isBlank c with
  | false => rfl
  | true => rw [not_isWord_of_isBlank hb] at h; cases h

theorem not_isBlank_of_isFieldChar {c : Char} (h : isFieldChar c = true) : isBlank c = false := by
  simp only [isFieldChar, Bool.or_eq_true, beq_iff_eq] at h
  rcases h with h | rfl
  · exact not_isBlank_of_isWord h
  · rfl

/-! ## Letters of keywords -/

/-- The letters beyond ASCII that are read as letters of keywords. -/
def wideLetters : List Nat := [0x130, 0x131, 0x17f, 0x212a]

theorem inRanges_wordEdges_wideLetters : ∀ n ∈ wideLetters, 128 ≤ n ∧ inRanges wordEdges n = true := by
  decide +kernel

theorem isAlpha_of_toLower {c : Char} (h : c.toLower.isLower = true) : c.isAlpha = true := by
  unfold Char.toLower at h
  split at h
  · rename_i hupper
    exact isAlpha_iff.mpr (Or.inl (isUpper_iff.mpr hupper))
  · exact isAlpha_iff.mpr (Or.inr h)

theorem isAlpha_or_wide_of_readsAs {letter c : Char} (hletter : letter.isLower = true)
    (h : readsAs letter c = true) : c.isAlpha = true ∨ c.toNat ∈ wideLetters := by
  simp only [readsAs, Bool.or_eq_true, Bool.and_eq_true, beq_iff_eq] at h
  rcases h with ((h | ⟨-, rfl | rfl⟩) | ⟨-, rfl⟩) | ⟨-, h⟩
  · exact Or.inl (isAlpha_of_toLower (h ▸ hletter))
  · exact Or.inr (by decide)
  · exact Or.inr (by decide)
  · exact Or.inr (by decide)
  · exact Or.inr (by simp [h, wideLetters])

theorem isWord_of_readsAs {letter c : Char} (hletter : letter.isLower = true) (h : readsAs letter c = true) :
    isWord c = true := by
  rcases isAlpha_or_wide_of_readsAs hletter h with halpha | hmem
  · exact isWord_of_isAlphanum (isAlphanum_iff.mpr (Or.inl halpha))
  · obtain ⟨hge, hword⟩ := inRanges_wordEdges_wideLetters _ hmem
    rw [isWord_of_wide rfl hge, hword]

theorem not_readsAs_of_isDigit {letter c : Char} (hletter : letter.isLower = true) (hc : c.isDigit = true) :
    readsAs letter c = false := by
  have hlt : c.toNat < 128 := toNat_lt_of_isAlphanum (isAlphanum_iff.mpr (Or.inr hc))
  cases h : readsAs letter c with
  | false => rfl
  | true =>
    exfalso
    rcases isAlpha_or_wide_of_readsAs hletter h with halpha | hmem
    · rw [isAlpha_iff, isUpper_iff, isLower_iff] at halpha
      rw [isDigit_iff] at hc
      omega
    · have hge := (inRanges_wordEdges_wideLetters _ hmem).1
      omega
/-! ## Lower-casing -/

theorem image_lowerRuns_ge : ∀ i (h : i < lowerRuns.size), 97 ≤ lowerRuns[i].2.2.2 := by decide +kernel

theorem imageIn?_lowerRuns_ge {code image : Nat} (hcode : 128 ≤ code) (h : imageIn? lowerRuns code = some image) :
    97 ≤ image := by
  unfold imageIn? at h
  extract_lets place at h
  clear_value place
  cases place with
  | zero => cases h
  | succ i =>
    by_cases hi : i < lowerRuns.size
    · have hge := image_lowerRuns_ge i hi
      simp only [dif_pos hi, Option.ite_none_right_eq_some, Option.some.injEq] at h
      exact Nat.le_trans hge (Nat.le.intro h.2)
    · have hlast : ¬code ≤ 0 := Nat.not_le.mpr (Nat.lt_of_lt_of_le (by decide) hcode)
      simp [dif_neg hi, hlast] at h

theorem toNat_cases (c : Char) : c.toNat < 0xd800 ∨ 0xe000 ≤ c.toNat ∧ c.toNat < 0x110000 := by
  have hvalid := c.valid
  simp only [UInt32.isValidChar, Nat.isValidChar] at hvalid
  unfold Char.toNat
  omega

theorem toNat_ofNat (n : Nat) : (Char.ofNat n).toNat = n ∨ (Char.ofNat n).toNat = 0 := by
  unfold Char.ofNat
  by_cases hvalid : n.isValidChar
  · rw [dif_pos hvalid]
    exact Or.inl rfl
  · rw [dif_neg hvalid]
    exact Or.inr rfl

theorem lowerAfter_cons_of_ascii {c : Char} (hc : c.toNat < 128) (before cs : List Char) :
    lowerAfter before (c :: cs) = c.toLower :: lowerAfter (c :: before) cs := by
  have hne : c ≠ 'Σ' := by
    rintro rfl
    exact absurd hc (by decide)
  rw [lowerAfter, if_neg hne, lowerLetter, if_pos hc]
  rfl

theorem eq_of_toLower {c d : Char} (hc : c.toNat < 65) (h : d.toLower = c) : d = c := by
  unfold Char.toLower at h
  split at h
  · rename_i hupper
    have hA : 'A'.val.toNat = 65 := rfl
    have hZ : 'Z'.val.toNat = 90 := rfl
    have hdiff : ('a'.val - 'A'.val).toNat = 32 := rfl
    simp only [ge_iff_le, UInt32.le_iff_toNat_le] at hupper
    have hd : (d.val + ('a'.val - 'A'.val)).toNat = d.val.toNat + 32 := by
      rw [UInt32.toNat_add, hdiff]
      omega
    have hcode : c.toNat = d.val.toNat + 32 := by
      rw [← h]
      exact hd
    omega
  · exact h

theorem eq_of_mem_lowerLetter {c d : Char} (h0 : 0 < c.toNat) (hc : c.toNat < 65) (h : c ∈ lowerLetter d) :
    d = c := by
  unfold lowerLetter at h
  split at h
  · exact eq_of_toLower hc (List.mem_singleton.mp h).symm
  · rename_i hd
    split at h
    · simp only [List.mem_cons, List.not_mem_nil, or_false] at h
      rcases h with rfl | rfl
      · exact absurd hc (by decide)
      · exact absurd hc (by decide)
    · rw [List.mem_singleton] at h
      cases himage : imageIn? lowerRuns d.toNat with
      | none => simpa [himage] using h.symm
      | some image =>
        -- the table has no image below the letters
        have hge := imageIn?_lowerRuns_ge (Nat.not_lt.mp hd) himage
        rw [himage, Option.map_some, Option.getD_some] at h
        have hcode := toNat_ofNat image
        rw [← h] at hcode
        omega

theorem mem_of_mem_lowerAfter {c : Char} (h0 : 0 < c.toNat) (hc : c.toNat < 65) : ∀ {cs before : List Char},
    c ∈ lowerAfter before cs → c ∈ cs
  | [], _, h => by cases h
  | d :: cs, before, h => by
    rw [lowerAfter, List.mem_append] at h
    rcases h with h | h
    · split at h
      · rw [List.mem_singleton] at h
        split at h
        · exact absurd hc (by rw [h]; decide)
        · exact absurd hc (by rw [h]; decide)
      · rw [eq_of_mem_lowerLetter h0 hc h]
        exact List.mem_cons_self ..
    · exact List.mem_cons_of_mem _ (mem_of_mem_lowerAfter h0 hc h)

/-! ## Digits -/

theorem digitValue?_of_isDigit {c : Char} (hc : c.isDigit = true) : digitValue? c = some (c.toNat - 48) := by
  have hlt : c.toNat < 128 := toNat_lt_of_isAlphanum (isAlphanum_iff.mpr (Or.inr hc))
  simp [digitValue?, hlt, hc]

theorem isDecimalDigit_of_isDigit {c : Char} (hc : c.isDigit = true) : isDecimalDigit c = true := by
  simp [isDecimalDigit, digitValue?_of_isDigit hc]

theorem isWord_of_isDigit {c : Char} (h : c.isDigit = true) : isWord c = true :=
  isWord_of_isAlphanum (isAlphanum_iff.mpr (Or.inr h))

theorem toLower_of_isDigit {c : Char} (hc : c.isDigit = true) : c.toLower = c := by
  unfold Char.toLower
  split
  · rename_i hupper
    have hge : 65 ≤ c.toNat := hupper.1
    have hle : c.toNat ≤ 57 := (isDigit_iff.mp hc).2
    omega
  · rfl

theorem isDigit_of_mem_decimal {n : Nat} {c : Char} (h : c ∈ decimal n) : c.isDigit = true :=
  Nat.isDigit_of_mem_toDigits (by decide) (by decide) h

theorem decimal_ne_nil (n : Nat) : decimal n ≠ [] := Nat.toDigits_ne_nil

theorem foldl_digitValue? : ∀ {cs : List Char}, (∀ c ∈ cs, c.isDigit = true) → ∀ n,
    cs.foldl (fun n c => 10 * n + (digitValue? c).getD 0) n = Nat.ofDigitChars 10 cs n
  | [], _, _ => rfl
  | c :: cs, h, n => by
    have hc := digitValue?_of_isDigit (h c (List.mem_cons_self ..))
    rw [List.foldl_cons, hc]
    exact foldl_digitValue? (fun d hd => h d (List.mem_cons_of_mem _ hd)) _

theorem digitsValue_decimal (n : Nat) : digitsValue (decimal n) = n := by
  rw [digitsValue, foldl_digitValue? (fun _ => isDigit_of_mem_decimal) 0]
  exact Nat.ofDigitChars_ten_toDigits

theorem head?_decimal {n : Nat} (h : (decimal n).head? = some '0') : n = 0 := by
  induction n using Nat.strongRecOn with
  | ind n ih =>
    rw [decimal] at h
    by_cases hsmall : n < 10
    · rw [Nat.toDigits_of_lt_base hsmall, List.head?_cons] at h
      exact (show ∀ d < 10, some (Nat.digitChar d) = some '0' → d = 0 by decide) n hsmall h
    · obtain ⟨d, ds, hds⟩ := List.exists_cons_of_ne_nil (decimal_ne_nil (n / 10))
      rw [Nat.toDigits_of_base_le (by decide) (Nat.not_lt.mp hsmall), ← decimal, hds] at h
      have hless := ih (n / 10) (by omega) (by rw [hds]; exact h)
      omega

/-! ## Whole numbers -/

theorem mem_signedDecimal {n : Int} {c : Char} (h : c ∈ signedDecimal n) : c = '-' ∨ c.isDigit = true := by
  cases n with
  | ofNat m => exact Or.inr (isDigit_of_mem_decimal h)
  | negSucc m =>
    rcases List.mem_cons.mp h with rfl | hc
    · exact Or.inl rfl
    · exact Or.inr (isDigit_of_mem_decimal hc)

theorem eq_of_decimal {m n : Nat} (h : decimal m = decimal n) : m = n := by
  rw [← digitsValue_decimal m, h, digitsValue_decimal]

theorem decimal_ne_minus (m : Nat) (cs : List Char) : decimal m ≠ '-' :: cs := by
  intro h
  have hminus : '-' ∈ decimal m := by
    rw [h]
    exact List.mem_cons_self
  exact absurd (isDigit_of_mem_decimal hminus) (by decide)

theorem signedDecimal_inj {m n : Int} : signedDecimal m = signedDecimal n ↔ m = n := by
  refine ⟨fun h => ?_, congrArg signedDecimal⟩
  cases m with
  | ofNat m =>
    cases n with
    | ofNat n => rw [eq_of_decimal h]
    | negSucc n => exact absurd h (decimal_ne_minus m _)
  | negSucc m =>
    cases n with
    | ofNat n => exact absurd h.symm (decimal_ne_minus n _)
    | negSucc n => rw [Nat.succ.inj (eq_of_decimal (List.cons.inj h).2)]

/-! ## Hexadecimal numbers -/

theorem hexadecimal_succ {width : Nat} (hwidth : 0 < width) (n : Nat) :
    hexadecimal (width + 1) n = hexadecimal width (n / 16) ++ [Nat.digitChar (n % 16)] := by
  unfold hexadecimal
  by_cases hsmall : n < 16
  · obtain ⟨width, rfl⟩ : ∃ w, width = w + 1 := ⟨width - 1, by omega⟩
    rw [Nat.toDigits_of_lt_base hsmall, Nat.div_eq_of_lt hsmall, Nat.mod_eq_of_lt hsmall,
      Nat.toDigits_of_lt_base (by decide)]
    simp [List.replicate_succ']
  · rw [Nat.toDigits_of_base_le (by decide) (Nat.not_lt.mp hsmall)]
    simp

theorem hexadecimal_four {n : Nat} (h : n < 0x10000) : hexadecimal 4 n =
    [Nat.digitChar (n / 16 / 16 / 16), Nat.digitChar (n / 16 / 16 % 16), Nat.digitChar (n / 16 % 16),
      Nat.digitChar (n % 16)] := by
  have hone : hexadecimal 1 (n / 16 / 16 / 16) = [Nat.digitChar (n / 16 / 16 / 16)] := by
    unfold hexadecimal
    rw [Nat.toDigits_of_lt_base (by omega)]
    rfl
  rw [hexadecimal_succ (by decide), hexadecimal_succ (by decide), hexadecimal_succ (by decide), hone]
  rfl

theorem hexValue?_digitChar : ∀ d < 16, hexValue? (Nat.digitChar d) = some d := by decide

end NoteQuery.Text

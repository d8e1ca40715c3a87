import Mathlib.Algebra.BigOperators.Group.List.Basic
import NoteQuery.Proofs.Fallible
import NoteQuery.Proofs.Number.Numeral
import NoteQuery.Toml.Document
import NoteQuery.Toml.Writer

/-!
# Written scalars

Every character of a text is written as an escape or as it stands, and is read back from that. Texts, whole numbers
and truth values are read back from what is written for them, where the line ends behind it.
-/

namespace NoteQuery.Toml

/-! ## Escapes -/

theorem hexEscape_four {n : Nat} (h : n < 0xd800) (rest : List Char) :
    hexEscape 4 (Text.hexadecimal 4 n ++ rest) = .ok ([Char.ofNat n], rest) := by
  have hsum : 16 * (16 * (16 * (16 * 0 + n / 16 / 16 / 16) + n / 16 / 16 % 16) + n / 16 % 16) + n % 16 = n := by omega
  have hfirst := Text.hexValue?_digitChar (n / 16 / 16 / 16) (by omega)
  have hsecond := Text.hexValue?_digitChar (n / 16 / 16 % 16) (by omega)
  have hthird := Text.hexValue?_digitChar (n / 16 % 16) (by omega)
  have hfourth := Text.hexValue?_digitChar (n % 16) (by omega)
  rw [Text.hexadecimal_four (by omega), hexEscape]
  simp only [List.cons_append, List.nil_append, List.take_succ_cons, List.take_zero, List.drop_succ_cons,
    List.drop_zero]
  rw [if_pos ⟨rfl, by simp [hfirst, hsecond, hthird, hfourth]⟩]
  simp only [List.foldl_cons, List.foldl_nil, hfirst, hsecond, hthird, hfourth, Option.getD_some, hsum]
  exact if_pos (Or.inl h)

def prepend (c : Char) (read : Except Fault (List Char × List Char)) : Except Fault (List Char × List Char) :=
  read.map fun (body, rest) => (c :: body, rest)

theorem basicString_escape {c : Char} {cs rest : List Char} (h : escape false cs = .ok ([c], rest)) (steps : Nat) :
    basicString false (steps + 1) ('\\' :: cs) = prepend c (basicString false steps rest) := by
  rw [basicString.eq_def]
  dsimp only
  rw [if_neg (by decide), if_pos (beq_self_eq_true _), h, ok_bind]
  cases basicString false steps rest with
  | error => rfl
  | ok read => rfl

theorem basicString_plain {c : Char} (hquote : c ≠ '"') (hback : c ≠ '\\') (hlegal : isIllegal false c = false)
    (steps : Nat) (cs : List Char) :
    basicString false (steps + 1) (c :: cs) = prepend c (basicString false steps cs) := by
  rw [basicString.eq_def]
  dsimp only
  rw [if_neg (by simpa using hquote), if_neg (by simpa using hback), if_neg (by simp [hlegal])]
  rfl

/-- A character is written behind a backslash, by its letter or its code, or it is written as it stands. -/
theorem escapedChar_cases (c : Char) :
    (∃ e, escapedChar c = ['\\', e] ∧ escaped? e = some c) ∨
    (escapedChar c = '\\' :: 'u' :: Text.hexadecimal 4 c.toNat ∧ c.toNat < 0x80) ∨
    escapedChar c = [c] ∧ c ≠ '"' ∧ c ≠ '\\' ∧ isIllegal false c = false := by
  -- the letters are told by their codes, which come back as the character
  have hof {n : Nat} (hn : (c.toNat == n) = true) : Char.ofNat n = c := by rw [← eq_of_beq hn, Char.ofNat_toNat]
  unfold escapedChar
  dsimp only
  split
  · rename_i hc
    obtain rfl | rfl : c = '"' ∨ c = '\\' := by simpa using hc
    · exact Or.inl ⟨_, rfl, rfl⟩
    · exact Or.inl ⟨_, rfl, rfl⟩
  rename_i hplain
  split
  · rename_i hc
    exact Or.inl ⟨_, rfl, congrArg some (hof hc)⟩
  split
  · obtain rfl := eq_of_beq ‹_›
    exact Or.inl ⟨_, rfl, rfl⟩
  split
  · rename_i hc
    exact Or.inl ⟨_, rfl, congrArg some (hof hc)⟩
  split
  · obtain rfl := eq_of_beq ‹_›
    exact Or.inl ⟨_, rfl, rfl⟩
  split
  · rename_i hcontrol
    refine Or.inr (Or.inl ⟨rfl, ?_⟩)
    simp only [Bool.or_eq_true, Bool.and_eq_true, decide_eq_true_eq, beq_iff_eq] at hcontrol
    omega
  · rename_i hcontrol
    simp only [Bool.or_eq_true, beq_iff_eq, not_or] at hplain
    -- what is illegal has been escaped by now, but for the tab, which is legal
    refine Or.inr (Or.inr ⟨rfl, hplain.1, hplain.2, ?_⟩)
    simp only [isIllegal, Bool.false_and, Bool.not_false, Bool.and_true]
    grind

theorem escape_letter {e c : Char} (h : escaped? e = some c) (cs : List Char) : escape false (e :: cs) = .ok ([c], cs) := by
  have hu : e ≠ 'u' := by
    rintro rfl
    cases h
  have hU : e ≠ 'U' := by
    rintro rfl
    cases h
  simp [escape, hu, hU, h]

theorem basicString_escapedChar (steps : Nat) (c : Char) (cs : List Char) :
    basicString false (steps + 1) (escapedChar c ++ cs) = prepend c (basicString false steps cs) := by
  rcases escapedChar_cases c with ⟨e, hc, he⟩ | ⟨hc, hlow⟩ | ⟨hc, hquote, hback, hlegal⟩
  · rw [hc]
    exact basicString_escape (escape_letter he cs) steps
  · have hescape : escape false ('u' :: (Text.hexadecimal 4 c.toNat ++ cs)) = .ok ([Char.ofNat c.toNat], cs) :=
      hexEscape_four (by omega) cs
    rw [Char.ofNat_toNat] at hescape
    rw [hc]
    exact basicString_escape hescape steps
  · rw [hc]
    exact basicString_plain hquote hback hlegal steps cs

theorem basicString_escaped : ∀ (cs rest : List Char) {steps : Nat}, cs.length < steps →
    basicString false steps (cs.flatMap escapedChar ++ '"' :: rest) = .ok (cs, rest)
  | [], rest, steps + 1, _ => rfl
  | c :: cs, rest, steps + 1, h => by
    rw [List.flatMap_cons, List.append_assoc, basicString_escapedChar,
      basicString_escaped cs rest (Nat.lt_of_succ_lt_succ h)]
    rfl

/-- No quote is written first for a character, so three of them never open a text. -/
theorem exists_escapedChar (c : Char) : ∃ d ds, escapedChar c = d :: ds ∧ d ≠ '"' := by
  rcases escapedChar_cases c with ⟨e, hc, -⟩ | ⟨hc, -⟩ | ⟨hc, hquote, -⟩
  · exact ⟨_, _, hc, by decide⟩
  · exact ⟨_, _, hc, by decide⟩
  · exact ⟨_, _, hc, hquote⟩

theorem return_notMem_escapedChar (c : Char) : '\r' ∉ escapedChar c := by
  rcases escapedChar_cases c with ⟨e, hc, he⟩ | ⟨hc, hlow⟩ | ⟨hc, -, -, hlegal⟩
  · have hne : '\r' ≠ e := by
      rintro rfl
      cases he
    rw [hc]
    simp [hne]
  · have hdigit : ∀ d < 16, '\r' ≠ Nat.digitChar d := by decide
    rw [hc, Text.hexadecimal_four (by omega)]
    simp only [List.mem_cons, List.not_mem_nil, or_false, not_or]
    exact ⟨by decide, by decide, hdigit _ (by omega), hdigit _ (by omega), hdigit _ (by omega), hdigit _ (by omega)⟩
  · have hne : '\r' ≠ c := by
      rintro rfl
      cases hlegal
    rw [hc]
    simp [hne]

/-! ## Texts -/

theorem toList_quotedText (s : String) : (quotedText s).toList = '"' :: (s.toList.flatMap escapedChar ++ ['"']) := by
  rw [quotedText, String.toList_ofList]
  rfl

theorem length_le_flatMap_escapedChar (cs : List Char) : cs.length ≤ (cs.flatMap escapedChar).length := by
  have hsum := List.length_le_sum_of_one_le (cs.map fun c => (escapedChar c).length) fun n hn => by
    obtain ⟨c, -, rfl⟩ := List.mem_map.mp hn
    obtain ⟨d, ds, hc, -⟩ := exists_escapedChar c
    exact hc ▸ Nat.succ_pos _
  rwa [List.length_map, ← List.length_flatMap] at hsum

theorem string?_of_ne {body : List Char} (h : ∀ rest, body ≠ '"' :: '"' :: rest) :
    string? ('"' :: body) = some (basicString false (body.length + 1) body) := by
  rw [string?.eq_def]
  split
  · rename_i rest heq
    exact absurd (List.cons.inj heq).2 (h rest)
  · rename_i heq
    rw [(List.cons.inj heq).2]
  · rename_i heq
    exact absurd (List.cons.inj heq).1 (by decide)
  · rename_i heq
    exact absurd (List.cons.inj heq).1 (by decide)
  · rename_i hquote _ _
    exact absurd rfl (hquote body)

theorem string?_quotedText (s : String) {rest : List Char} (h : rest.head? ≠ some '"') :
    string? ((quotedText s).toList ++ rest) = some (.ok (s.toList, rest)) := by
  have hbody : ∀ more, s.toList.flatMap escapedChar ++ '"' :: rest ≠ '"' :: '"' :: more := by
    intro more heq
    cases hs : s.toList with
    | nil =>
      rw [hs] at heq
      exact h (by rw [(List.cons.inj heq).2]; rfl)
    | cons c cs =>
      rw [hs, List.flatMap_cons, List.append_assoc] at heq
      obtain ⟨d, ds, hc, hquote⟩ := exists_escapedChar c
      rw [hc] at heq
      exact hquote (List.cons.inj heq).1
  have hlength := length_le_flatMap_escapedChar s.toList
  have hsteps : s.toList.length < (s.toList.flatMap escapedChar ++ '"' :: rest).length + 1 := by
    rw [List.length_append]
    omega
  rw [toList_quotedText, List.cons_append, List.append_assoc, List.singleton_append, string?_of_ne hbody,
    basicString_escaped _ _ hsteps]

/-! ## Whole numbers -/

open Number (AllDigits)

structure IsWhole (sign ds : List Char) : Prop where
  sign : sign = [] ∨ sign = ['-']
  ne_nil : ds ≠ []
  digits : AllDigits ds
  zero : ds.head? = some '0' → ds = ['0']

theorem isWhole_decimal (n : Nat) {sign : List Char} (h : sign = [] ∨ sign = ['-']) : IsWhole sign (Text.decimal n) where
  sign := h
  ne_nil := Text.decimal_ne_nil n
  digits _ := Text.isDigit_of_mem_decimal
  zero hzero := by
    rw [Text.head?_decimal hzero]
    rfl

theorem exists_isWhole (n : Int) : ∃ sign ds, Text.signedDecimal n = sign ++ ds ∧ IsWhole sign ds := by
  cases n with
  | ofNat n => exact ⟨[], _, rfl, isWhole_decimal n (Or.inl rfl)⟩
  | negSucc n => exact ⟨['-'], _, rfl, isWhole_decimal (n + 1) (Or.inr rfl)⟩

section
variable {sign ds : List Char} (h : IsWhole sign ds) (rest : List Char)
include h

theorem exists_digits_of_numeral? {count low high n : Nat} (hcount : 0 < count) {more : List Char}
    (hread : numeral? count low high (sign ++ ds ++ '\n' :: rest) = some (n, more)) :
    ∃ es, AllDigits es ∧ more = es ++ '\n' :: rest := by
  rw [numeral?] at hread
  split at hread
  · rename_i hnumeral
    obtain ⟨hlength, hall, -⟩ := hnumeral
    obtain ⟨-, rfl⟩ := Prod.mk.inj (Option.some.inj hread)
    have hwhole := List.take_append_drop count (sign ++ ds ++ '\n' :: rest)
    generalize (sign ++ ds ++ '\n' :: rest).take count = run at hwhole hlength hall
    generalize (sign ++ ds ++ '\n' :: rest).drop count = more at hwhole
    rw [List.all_eq_true] at hall
    obtain ⟨d, run, rfl⟩ := List.exists_cons_of_length_pos (hlength ▸ hcount)
    -- a run of digits cannot begin with a sign, nor go on over the end of the line
    rcases h.sign with rfl | rfl
    · rcases List.append_eq_append_iff.mp hwhole with ⟨es, hds, hmore⟩ | ⟨es, hrun, hmore⟩
      · refine ⟨es, fun c hc => h.digits c ?_, hmore⟩
        rw [List.nil_append] at hds
        exact hds ▸ List.mem_append_right _ hc
      · cases es with
        | nil => exact ⟨[], List.forall_mem_nil _, hmore.symm⟩
        | cons e es =>
          have he := hall e (hrun ▸ List.mem_append_right _ List.mem_cons_self)
          rw [← (List.cons.inj hmore).1] at he
          cases he
    · have hd := hall d List.mem_cons_self
      rw [(List.cons.inj hwhole).1] at hd
      cases hd
  · cases hread

end

theorem after?_digits {c : Char} (hc : c.isDigit = false) (hline : c ≠ '\n') {es : List Char} (hes : AllDigits es)
    (rest : List Char) : Text.after? [c] (es ++ '\n' :: rest) = none := by
  cases es with
  | nil => exact if_neg (by simpa using hline)
  | cons e es =>
    have hne : c ≠ e := by
      rintro rfl
      rw [hes c List.mem_cons_self] at hc
      cases hc
    exact if_neg (by simpa using hne)

theorem date?_isWhole {sign ds : List Char} (h : IsWhole sign ds) (rest : List Char) :
    date? (sign ++ ds ++ '\n' :: rest) = none := by
  rw [date?]
  cases hyear : numeral? 4 0 9999 (sign ++ ds ++ '\n' :: rest) with
  | none => rfl
  | some read =>
    obtain ⟨year, more⟩ := read
    obtain ⟨es, hes, rfl⟩ := exists_digits_of_numeral? h rest (by decide) hyear
    rw [Option.bind_eq_bind, Option.bind_some]
    dsimp only
    rw [after?_digits (by decide) (by decide) hes]
    rfl

theorem clock?_isWhole {sign ds : List Char} (h : IsWhole sign ds) (rest : List Char) :
    clock? (sign ++ ds ++ '\n' :: rest) = none := by
  rw [clock?]
  cases hhour : numeral? 2 0 23 (sign ++ ds ++ '\n' :: rest) with
  | none => rfl
  | some read =>
    obtain ⟨hour, more⟩ := read
    obtain ⟨es, hes, rfl⟩ := exists_digits_of_numeral? h rest (by decide) hhour
    rw [Option.bind_eq_bind, Option.bind_some]
    dsimp only
    rw [after?_digits (by decide) (by decide) hes]
    rfl

theorem digitRun_digits (rest : List Char) : ∀ {ds : List Char}, AllDigits ds →
    digitRun Char.isDigit (ds ++ '\n' :: rest) = (ds, '\n' :: rest)
  | [], _ => rfl
  | d :: ds, h => by
    obtain ⟨hd, hds⟩ := List.forall_mem_cons.mp h
    rw [List.cons_append, digitRun]
    · rw [if_pos hd, digitRun_digits rest hds]
    · rintro _ _ rfl
      cases hd

theorem IsWhole.cases {sign ds : List Char} (h : IsWhole sign ds) :
    ds = ['0'] ∨ ∃ d more, ds = d :: more ∧ d.isDigit = true ∧ d ≠ '0' := by
  obtain ⟨d, more, rfl⟩ := List.exists_cons_of_ne_nil h.ne_nil
  by_cases hzero : d = '0'
  · exact Or.inl (h.zero (congrArg some hzero))
  · exact Or.inr ⟨d, more, rfl, h.digits d List.mem_cons_self, hzero⟩

theorem wholePart?_isWhole {sign ds : List Char} (h : IsWhole sign ds) (rest : List Char) :
    wholePart? (ds ++ '\n' :: rest) = some (ds, '\n' :: rest) := by
  rcases h.cases with rfl | ⟨d, more, rfl, hd, hzero⟩
  · rfl
  · rw [List.cons_append, wholePart?]
    · rw [digits?, if_pos (by exact hd), ← List.cons_append, digitRun_digits rest h.digits]
    · intro _ heq
      exact hzero (List.cons.inj heq).1

theorem based?_isWhole {sign ds : List Char} (h : IsWhole sign ds) (rest : List Char) :
    based? (sign ++ ds ++ '\n' :: rest) = none := by
  rcases h.sign with rfl | rfl
  · rcases h.cases with rfl | ⟨d, more, rfl, hd, hzero⟩
    · rfl
    · rw [based?.eq_def]
      split
      · rename_i heq
        exact absurd (List.cons.inj heq).1 hzero
      · rename_i heq
        exact absurd (List.cons.inj heq).1 hzero
      · rename_i heq
        exact absurd (List.cons.inj heq).1 hzero
      · rfl
  · rfl

theorem signChars_isWhole {sign ds : List Char} (h : IsWhole sign ds) (rest : List Char) :
    signChars (sign ++ (ds ++ '\n' :: rest)) = sign := by
  rcases h.sign with rfl | rfl
  · obtain ⟨d, more, rfl⟩ := List.exists_cons_of_ne_nil h.ne_nil
    have hd := h.digits d List.mem_cons_self
    have hsign : ¬(some d == some '-' || some d == some '+') = true := by
      rw [Bool.or_eq_true, beq_iff_eq, beq_iff_eq]
      rintro (heq | heq)
      · cases Option.some.inj heq ▸ hd
      · cases Option.some.inj heq ▸ hd
    rw [signChars, List.nil_append, List.cons_append, List.head?_cons, if_neg hsign, List.take_zero]
  · rfl

theorem decimal?_isWhole {sign ds : List Char} (h : IsWhole sign ds) (rest : List Char) :
    decimal? (sign ++ ds ++ '\n' :: rest) =
      some (.int ((Number.readInt? 10 (sign ++ ds)).getD 0), '\n' :: rest) := by
  rw [List.append_assoc, decimal?, signChars_isWhole h]
  dsimp only
  have hfraction : fractionPart ('\n' :: rest) = ([], '\n' :: rest) := rfl
  have hexponent : exponentPart ('\n' :: rest) = ([], '\n' :: rest) := rfl
  rw [List.drop_left, wholePart?_isWhole h, Option.bind_eq_bind, Option.bind_some]
  simp only [hfraction, hexponent, List.append_nil]
  rfl

theorem plainScalar_signedDecimal {n : Int} (hshort : Text.isLong n = false) (rest : List Char) :
    plainScalar (Text.signedDecimal n ++ '\n' :: rest) = .ok (.int n, '\n' :: rest) := by
  have hread := Number.readInt?_signedDecimal n
  obtain ⟨sign, ds, hn, h⟩ := exists_isWhole n
  rw [hn] at hread ⊢
  rw [plainScalar, date?_isWhole h]
  dsimp only
  rw [clock?_isWhole h]
  dsimp only
  rw [number?, based?_isWhole h, decimal?_isWhole h, hread]
  exact if_neg (by simp [hshort])

/-! ## Values -/

/-- A value that stands on one line: a text, a whole number that is not too long, or a truth value. -/
inductive IsScalar : Toml → Prop
  | bool (b : Bool) : IsScalar (.bool b)
  | int {n : Int} (hshort : Text.isLong n = false) : IsScalar (.int n)
  | text (s : String) : IsScalar (.text s)

theorem value_digits {c : Char} (hc : c = '-' ∨ c.isDigit = true) (fuel : Nat) (cs : List Char) :
    value (fuel + 1) (c :: cs) = plainScalar (c :: cs) := by
  have hne {d : Char} (hd : ¬(d = '-' ∨ d.isDigit = true)) : c ≠ d := by
    rintro rfl
    exact hd hc
  -- no other kind of value begins with this character
  have hstring : string? (c :: cs) = none := by
    rw [string?.eq_def]
    split
    · rename_i heq
      exact absurd (List.cons.inj heq).1 (hne (by decide))
    · rename_i heq
      exact absurd (List.cons.inj heq).1 (hne (by decide))
    · rename_i heq
      exact absurd (List.cons.inj heq).1 (hne (by decide))
    · rename_i heq
      exact absurd (List.cons.inj heq).1 (hne (by decide))
    · rfl
  have hstart (head : List Char) (hhead : ∃ d rest, head = d :: rest ∧ c ≠ d) :
      ¬Text.startsWith head (c :: cs) = true := by
    obtain ⟨d, rest, rfl, hd⟩ := hhead
    rw [Text.startsWith_iff, List.cons_prefix_cons]
    exact fun h => hd h.1.symm
  rw [value.eq_def]
  dsimp only
  rw [hstring]
  dsimp only
  rw [if_neg (hstart "true".toList ⟨'t', _, rfl, hne (by decide)⟩),
    if_neg (hstart "false".toList ⟨'f', _, rfl, hne (by decide)⟩)]
  split
  · rename_i heq
    exact absurd (List.cons.inj heq).1 (hne (by decide))
  · rename_i heq
    exact absurd (List.cons.inj heq).1 (hne (by decide))
  · rfl

theorem exists_signedDecimal (n : Int) : ∃ c cs, Text.signedDecimal n = c :: cs ∧ (c = '-' ∨ c.isDigit = true) := by
  obtain ⟨sign, ds, hn, h⟩ := exists_isWhole n
  obtain ⟨c, cs, hcs⟩ := List.exists_cons_of_ne_nil (List.append_ne_nil_of_right_ne_nil sign h.ne_nil)
  rw [← hn] at hcs
  exact ⟨c, cs, hcs, Text.mem_signedDecimal (hcs ▸ List.mem_cons_self)⟩

theorem toList_written_int (n : Int) : (written (.int n)).toList = Text.signedDecimal n := String.toList_ofList

theorem value_written {v : Toml} (h : IsScalar v) (fuel : Nat) (rest : List Char) :
    value (fuel + 1) (v.written.toList ++ '\n' :: rest) = .ok (v, '\n' :: rest) := by
  cases h with
  | bool b =>
    rw [value.eq_def]
    cases b with
    | false => rfl
    | true => rfl
  | @int n hshort =>
    obtain ⟨c, cs, hn, hc⟩ := exists_signedDecimal n
    rw [toList_written_int, ← plainScalar_signedDecimal hshort rest, hn, List.cons_append, value_digits hc]
  | text s =>
    rw [written, value.eq_def]
    dsimp only
    rw [string?_quotedText s (by simp)]
    dsimp only [Except.map]
    rw [String.ofList_toList]

theorem exists_written {v : Toml} (h : IsScalar v) : ∃ c cs, v.written.toList = c :: cs ∧ isSpace c = false := by
  cases h with
  | bool b =>
    cases b with
    | false => exact ⟨'f', _, rfl, rfl⟩
    | true => exact ⟨'t', _, rfl, rfl⟩
  | @int n _ =>
    obtain ⟨c, cs, hn, hc⟩ := exists_signedDecimal n
    refine ⟨c, cs, by rw [toList_written_int, hn], ?_⟩
    rw [isSpace, Bool.or_eq_false_iff, beq_eq_false_iff_ne, beq_eq_false_iff_ne]
    constructor
    · rintro rfl
      exact absurd hc (by decide)
    · rintro rfl
      exact absurd hc (by decide)
  | text s => exact ⟨'"', _, by rw [written, toList_quotedText], rfl⟩

theorem return_notMem_written {v : Toml} (h : IsScalar v) : '\r' ∉ v.written.toList := by
  cases h with
  | bool b => cases b <;> decide
  | int _ =>
    rw [toList_written_int]
    intro hreturn
    rcases Text.mem_signedDecimal hreturn with h | h
    · cases h
    · cases h
  | text s =>
    rw [written, toList_quotedText]
    simp only [List.mem_cons, List.mem_append, List.mem_flatMap, List.not_mem_nil, or_false]
    rintro (h | ⟨c, -, hc⟩ | h)
    · cases h
    · exact return_notMem_escapedChar c hc
    · cases h

end NoteQuery.Toml

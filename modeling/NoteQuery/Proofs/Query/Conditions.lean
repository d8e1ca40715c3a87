import NoteQuery.Proofs.Text.Digits
import NoteQuery.Proofs.Number.Numeral
import NoteQuery.Proofs.Query.Reading

/-!
# Reading conditions

A literal and a condition are read back from their texts. The text of several conditions is
split where they were joined and nowhere else: an `AND` inside a quoted text leaves a quote
open behind it.
-/

namespace NoteQuery.Query

open NoteQuery.Text (isWord isFieldChar afterKeyword?)

/-! ## Literals -/

theorem unquoted?_quoted (s : String) : unquoted? (quoted s) = some s.toList := by
  have hlast : (s.toList ++ ['"']).getLast? = some '"' := List.getLast?_concat
  simp [quoted, unquoted?, isQuote, hlast]

theorem unquoted?_of_not_isQuote {c : Char} (h : isQuote c = false) (cs : List Char) : unquoted? (c :: cs) = none := by
  simp [unquoted?, h]

theorem dropFinalBreak_of_isDigit {cs : List Char} (h : ∃ c ∈ cs.getLast?, c.isDigit = true) :
    dropFinalBreak cs = cs := by
  obtain ⟨c, hc, hdigit⟩ := h
  refine if_neg ?_
  rw [Option.mem_def.mp hc]
  rintro hbreak
  have hcb : c = '\n' := by simpa using hbreak
  rw [hcb] at hdigit
  cases hdigit

theorem numberLiteral?_of_splitSign {cs : List Char} {negative : Bool} {m : Nat} (hbreak : dropFinalBreak cs = cs)
    (hplain : Number.plainDigits cs = cs) (hsign : Number.splitSign cs = (negative, Text.decimal m)) :
    numberLiteral? cs = some (wholeValue negative m) := by
  have hdigits : (Text.decimal m).all Char.isDigit = true :=
    List.all_eq_true.mpr fun c hc => Text.isDigit_of_mem_decimal hc
  rw [numberLiteral?, hbreak, hplain, hsign]
  simp only [if_pos (And.intro (Text.decimal_ne_nil m) hdigits), Text.digitsValue_decimal]

theorem numberLiteral?_signedDecimal (n : Int) :
    numberLiteral? (Text.signedDecimal n) = some (wholeValue (decide (n < 0)) n.natAbs) := by
  -- there is a digit at the end, so no line end is dropped there
  have hlast : ∀ m, ∃ c ∈ (Text.decimal m).getLast?, c.isDigit = true := fun m =>
    ⟨_, List.getLast?_eq_some_getLast (Text.decimal_ne_nil m), Text.isDigit_of_mem_decimal (List.getLast_mem _)⟩
  have hplain : ∀ m, Number.plainDigits (Text.decimal m) = Text.decimal m := fun m =>
    Number.plainDigits_of_isDigit fun _ => Text.isDigit_of_mem_decimal
  cases n with
  | ofNat m =>
    have hsign : Number.splitSign (Text.decimal m) = (false, Text.decimal m) := by
      have hdigit := fun c => @Text.isDigit_of_mem_decimal m c
      obtain ⟨c, cs, hcs⟩ := List.exists_cons_of_ne_nil (Text.decimal_ne_nil m)
      rw [hcs] at hdigit ⊢
      exact Number.splitSign_of_isDigit (hdigit c (List.mem_cons_self ..)) cs
    exact numberLiteral?_of_splitSign (dropFinalBreak_of_isDigit (hlast m)) (hplain m) hsign
  | negSucc m =>
    have hends : ∃ c ∈ ('-' :: Text.decimal (m + 1)).getLast?, c.isDigit = true := by
      obtain ⟨c, hc, hdigit⟩ := hlast (m + 1)
      exact ⟨c, by rw [List.getLast?_cons, hc]; rfl, hdigit⟩
    have hnegative : decide (Int.negSucc m < 0) = true := decide_eq_true (Int.negSucc_lt_zero m)
    have hminus : Number.plainDigits ('-' :: Text.decimal (m + 1)) = '-' :: Text.decimal (m + 1) :=
      congrArg ('-' :: ·) (hplain (m + 1))
    rw [hnegative]
    exact numberLiteral?_of_splitSign (dropFinalBreak_of_isDigit hends) hminus rfl

theorem wholeValue_of_lt {n : Int} (h : n.natAbs < Number.tooLarge) :
    wholeValue (decide (n < 0)) n.natAbs = .int n := by
  rw [wholeValue, if_pos h]
  cases n with
  | ofNat m => rfl
  | negSucc m =>
    rw [decide_eq_true (Int.negSucc_lt_zero m)]
    rfl

theorem wholeValue_of_le {negative : Bool} {m : Nat} (h : Number.tooLarge ≤ m) :
    wholeValue negative m = .float (Number.infinity negative) := by
  rw [wholeValue, if_neg (Nat.not_lt_of_le h)]

theorem exists_cons_signedDecimal (n : Int) : ∃ c cs, Text.signedDecimal n = c :: cs ∧ (c = '-' ∨ c.isDigit = true) := by
  cases n with
  | ofNat m =>
    obtain ⟨c, cs, hcs⟩ := List.exists_cons_of_ne_nil (Text.decimal_ne_nil m)
    exact ⟨c, cs, hcs, Or.inr (Text.isDigit_of_mem_decimal (by rw [hcs]; exact List.mem_cons_self ..))⟩
  | negSucc m => exact ⟨'-', _, rfl, Or.inl rfl⟩

theorem isBareChar_of_mem_signedDecimal {n : Int} {c : Char} (h : c ∈ Text.signedDecimal n) : isBareChar c = true := by
  rcases Text.mem_signedDecimal h with rfl | hdigit
  · rfl
  · simp [isBareChar, Text.isWord_of_isDigit hdigit]

theorem literalValue_signedDecimal (n : Int) :
    literalValue (Text.signedDecimal n) = wholeValue (decide (n < 0)) n.natAbs := by
  obtain ⟨c, cs, hcs, hc⟩ := exists_cons_signedDecimal n
  have hletter : ∀ d, d.isDigit = false → d ≠ '-' → c ≠ d := by
    rintro d hd hne rfl
    rcases hc with rfl | hc
    · exact hne rfl
    · rw [hd] at hc
      cases hc
  have hquote : isQuote c = false := by simp [isQuote, hletter]
  have hlower : Text.lower (c :: cs) = c :: Text.lowerAfter [c] cs := by
    rcases hc with rfl | hc
    · rfl
    · have hlt := Text.toNat_lt_of_isAlphanum (c := c) (Text.isAlphanum_iff.mpr (Or.inr hc))
      rw [Text.lower, Text.lowerAfter_cons_of_ascii hlt, Text.toLower_of_isDigit hc]
  have hnumber := numberLiteral?_signedDecimal n
  rw [hcs] at hnumber ⊢
  simp [literalValue, unquoted?_of_not_isQuote hquote, hlower, hletter, hnumber]

theorem literal?_quoted (s : String) : literal? (quoted s) = some (.text s) := by
  rw [literal?, literalValue, unquoted?_quoted]
  simp

theorem literal?_of_bare {cs : List Char} (hne : cs ≠ []) (hbare : ∀ c ∈ cs, isBareChar c = true) :
    literal? cs = some (literalValue cs) := by
  have hall : cs.all isBareChar = true := List.all_eq_true.mpr hbare
  simp [literal?, hne, hall]

theorem signedDecimal_ne_nil (n : Int) : Text.signedDecimal n ≠ [] := by
  obtain ⟨c, cs, hcs, -⟩ := exists_cons_signedDecimal n
  rw [hcs]
  exact List.cons_ne_nil c cs

theorem literal?_literalText {v : Value} (h : IsLiteral v) : literal? (literalText v) = some v := by
  cases v with
  | bool b => cases b <;> rfl
  | int n =>
    have hsmall : n.natAbs < Number.tooLarge := Nat.lt_of_lt_of_le h (by decide +kernel)
    rw [literalText, literal?_of_bare (signedDecimal_ne_nil n) fun c => isBareChar_of_mem_signedDecimal,
      literalValue_signedDecimal, wholeValue_of_lt hsmall]
  | text s => exact literal?_quoted s
  | _ => exact absurd h id

/-! ## Digits -/

theorem finalDigits_signedDecimal (front : List Char) (n : Int) :
    finalDigits (front ++ ' ' :: Text.signedDecimal n) = Text.decimal n.natAbs := by
  have htake : ∀ (m : Nat) {c : Char} {rest : List Char}, Text.isDecimalDigit c = false →
      ((Text.decimal m).reverse ++ c :: rest).takeWhile Text.isDecimalDigit = (Text.decimal m).reverse := by
    intro m c rest hc
    have hdigits : ∀ d ∈ (Text.decimal m).reverse, Text.isDecimalDigit d = true := fun d hd =>
      Text.isDecimalDigit_of_isDigit (Text.isDigit_of_mem_decimal (List.mem_reverse.mp hd))
    rw [List.takeWhile_append_of_pos hdigits, List.takeWhile_cons_of_neg (by simp [hc]), List.append_nil]
  unfold finalDigits
  cases n with
  | ofNat m =>
    rw [Text.signedDecimal, List.reverse_append, List.reverse_cons, List.append_assoc]
    exact (congrArg List.reverse (htake m rfl)).trans (List.reverse_reverse _)
  | negSucc m =>
    rw [Text.signedDecimal, List.reverse_append, List.reverse_cons, List.reverse_cons, List.append_assoc,
      List.append_assoc]
    exact (congrArg List.reverse (htake (m + 1) rfl)).trans (List.reverse_reverse _)

theorem checkDigits_decimal {n : Nat} (h : n < 10 ^ Text.maxDigits) : checkDigits (Text.decimal n) = .ok () :=
  if_neg (Nat.not_lt.mpr ((Text.length_decimal_le_iff n).mpr h))

theorem checkDigits_literalText (front : List Char) {v : Value} (h : IsLiteral v) :
    checkDigits (literalDigits (front ++ ' ' :: literalText v) v) = .ok () := by
  cases v with
  | int n =>
    have hless : Nat.pow 10 308 < 10 ^ Text.maxDigits := by decide +kernel
    rw [literalDigits, literalText, finalDigits_signedDecimal]
    exact checkDigits_decimal (Nat.lt_trans h hless)
  | _ => rfl

/-! ## Conditions -/

theorem ofText_text : ∀ o ∈ Operator.all.map (·.2), Operator.ofText o.text = o := by decide

/-- The blank behind a sign keeps `>` and `<` from being read as the start of a longer one. -/
theorem findSome?_signs_text {α : Type} {f : List Char → Option (List Char) → Option α} (hnone : ∀ s, f s none = none)
    {o : Operator} (ho : o ∈ Operator.all.map (·.2)) (hsign : o ≠ .contains) {rest : List Char} {a : α}
    (hsome : f o.text.toList (some (' ' :: rest)) = some a) :
    signs.findSome? (fun sign => f sign (Text.after? sign (o.text.toList ++ ' ' :: rest))) = some a := by
  have hsigns : signs = [['!', '='], ['>', '='], ['<', '='], ['='], ['>'], ['<']] := rfl
  cases o with
  | unknown name => simp [Operator.all] at ho
  | contains => exact absurd rfl hsign
  | _ =>
    simp only [hsigns, Operator.text, String.reduceToList, List.cons_append, List.nil_append, List.findSome?_cons,
      Text.after?, Char.reduceBEq, Bool.false_eq_true, BEq.rfl, if_true, if_false, hnone] at hsome ⊢
    simp only [hsome]

theorem findSome?_signs_contains {α : Type} {f : List Char → Option (List Char) → Option α}
    (hnone : ∀ s, f s none = none) (rest : List Char) :
    signs.findSome? (fun sign => f sign (Text.after? sign ("contains".toList ++ rest))) = none := by
  have hafter : ∀ sign ∈ signs, Text.after? sign ("contains".toList ++ rest) = none := by
    have hsigns : signs = [['!', '='], ['>', '='], ['<', '='], ['='], ['>'], ['<']] := rfl
    simp only [hsigns, List.forall_mem_cons]
    exact ⟨rfl, rfl, rfl, rfl, rfl, rfl, nofun⟩
  rw [List.findSome?_eq_none_iff]
  intro sign hsign
  rw [hafter sign hsign, hnone]

section
variable {o : Operator} (ho : o ∈ Operator.all.map (·.2)) {cs : List Char} {v : Value} (hliteral : literal? cs = some v)
include ho hliteral

theorem comparison?_of_literal? : comparison? ' ' (o.text.toList ++ ' ' :: cs) = some (o, v) := by
  have hback := ofText_text o ho
  let read (sign : List Char) (rest? : Option (List Char)) : Option (Operator × Value) :=
    (rest?.bind (literal? ∘ dropSpace)).map fun value => (Operator.ofText (String.ofList sign), value)
  -- the word is tried last, once no sign is found; a sign is found at its place in the list
  by_cases hword : o = .contains
  · subst hword
    have htext : Operator.contains.text.toList = "contains".toList := rfl
    have hkeyword : afterKeyword? "contains".toList ("contains".toList ++ ' ' :: cs) = some (' ' :: cs) :=
      afterKeyword?_of_reads (by decide) _
    have hname : String.ofList (Text.lower (("contains".toList ++ ' ' :: cs).take 8)) = "contains" := by
      have hlower : Text.lower "contains".toList = "contains".toList := by decide
      have htake : ("contains".toList ++ ' ' :: cs).take 8 = "contains".toList := rfl
      rw [htake, hlower, String.ofList_toList]
    have hsigned := findSome?_signs_contains (f := read) (fun _ => rfl) (' ' :: cs)
    rw [htext, comparison?, hkeyword, hsigned]
    simp only [wordEnds, isWord_space, Bool.not_false, Bool.and_self, if_true, dropSpace, hliteral, Option.map_some,
      hname]
    exact congrArg (fun o => some (o, v)) hback
  · have hread : read o.text.toList (some (' ' :: cs)) = some (o, v) := by
      simp only [read, Option.bind_some, Function.comp_apply, dropSpace, hliteral, Option.map_some,
        String.ofList_toList, hback]
    have hsigned := findSome?_signs_text (f := read) (fun _ => rfl) ho hword hread
    rw [comparison?, hsigned]
    rfl

theorem condition?_of_literal? {field : String} (hne : field.toList ≠ [])
    (hchars : ∀ c ∈ field.toList, isFieldChar c = true) :
    condition? (field.toList ++ ' ' :: (o.text.toList ++ ' ' :: cs)) = some ⟨field, o, v⟩ := by
  have hspan := Text.span_append hchars ((atBreak_space (o.text.toList ++ ' ' :: cs)).not_of_space (p := isFieldChar) rfl)
  obtain ⟨d, taken, htaken⟩ := List.exists_cons_of_ne_nil (List.reverse_ne_nil_iff.mpr hne)
  rw [condition?, hspan]
  simp only [htaken, conditionFrom?, comparison?_of_literal? ho hliteral]
  rw [← htaken, List.reverse_reverse, String.ofList_toList]

end

theorem condition?_conditionText {c : Condition} (h : c.IsWritable) : condition? (conditionText c) = some c := by
  have htext : conditionText c =
      c.field.toList ++ ' ' :: (c.operator.text.toList ++ ' ' :: literalText c.literal) := by simp [conditionText]
  rw [htext, condition?_of_literal? h.operator (literal?_literalText h.literal) h.field.ne_nil h.field.chars]

end NoteQuery.Query

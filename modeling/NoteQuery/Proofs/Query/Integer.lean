import NoteQuery.Proofs.Query.Quoted
import NoteQuery.Proofs.Number.Whole

/-!
# Integers in conditions

What is read of a query whose one condition compares a field with a bare text, and what the text of
an integer is read as. The text is first read as a float, and the integer is kept if the float is whole.
The float is infinite from half a step above the greatest float on.
-/

namespace NoteQuery.Query

open NoteQuery.Text (isFieldChar Tight signedDecimal)
open NoteQuery.Number (nearest isWhole infinity tooLarge)

/-! ## A condition on a bare text -/

/-- A field and an operator that can stand in a condition: no word of the field is read as a clause keyword. -/
structure Comparable (field : String) (o : Operator) : Prop where
  ne_nil : field.toList ≠ []
  chars : ∀ c ∈ field.toList, isFieldChar c = true
  free : Free clauseKeywords field.toList
  operator : o ∈ Operator.all.map (·.2)

def comparison (field : String) (o : Operator) (cs : List Char) : List Char :=
  field.toList ++ ' ' :: o.text.toList ++ ' ' :: cs

def listWhereBare (field : String) (o : Operator) (cs : List Char) : String :=
  "LIST WHERE " ++ field ++ " " ++ o.text ++ " " ++ String.ofList cs

theorem toList_listWhereBare (field : String) (o : Operator) (cs : List Char) : (listWhereBare field o cs).toList =
    ['L', 'I', 'S', 'T'] ++ ' ' :: (['W', 'H', 'E', 'R', 'E'] ++ ' ' :: comparison field o cs) := by
  unfold listWhereBare comparison
  simp

section
variable {field : String} {o : Operator} (h : Comparable field o) {cs : List Char} (hpart : IsPart cs)
include h hpart

theorem tight_bareComparison : Tight (comparison field o cs) :=
  tight_of_literal h.ne_nil h.chars h.operator hpart.tight

theorem free_comparison : Free clauseKeywords (comparison field o cs) := by
  have hliteral : Free clauseKeywords cs := hpart.free.mono fun _ => List.mem_cons_of_mem _
  have hleft := (free_append_cons isWord_space field.toList o.text.toList).mpr ⟨h.free, free_operator h.operator⟩
  exact (free_append_cons isWord_space _ cs).mpr ⟨hleft, hliteral⟩

theorem squeeze_listWhereBare :
    Text.squeeze (listWhereBare field o cs).toList = (listWhereBare field o cs).toList := by
  rw [toList_listWhereBare]
  exact squeeze_of_comparison (tight_bareComparison h hpart)

theorem search_listWhereBare {α : Type} {f : List Char → Option α} {keyword : List Char} (hf : LedBy keyword f)
    (hmem : keyword ∈ otherKeywords) : search f (listWhereBare field o cs).toList = none := by
  have hfree : Free otherKeywords (listWhereBare field o cs).toList := by
    rw [toList_listWhereBare]
    apply (free_append_cons isWord_space _ _).mpr
    refine ⟨by decide, (free_append_cons isWord_space _ _).mpr ⟨by decide, ?_⟩⟩
    exact (free_comparison h hpart).mono mem_clauseKeywords_of_other
  apply search_of_free hf (isKeyword_of_otherKeywords keyword hmem)
  exact hfree.mono (by simpa using hmem)

theorem whereTexts_listWhereBare : whereTexts (listWhereBare field o cs).toList = [comparison field o cs] := by
  have hne : comparison field o cs ≠ [] := by simp [comparison]
  have hall := freeClause?_append hne (free_comparison h hpart) (show clauseEnds [] = true from rfl)
  rw [List.append_nil] at hall
  rw [toList_listWhereBare]
  exact whereTexts_of_comparison hall

variable (hfree : Free ["and".toList] cs) (hbare : ∀ c ∈ cs, isBareChar c = true)
include hfree hbare

omit hpart in
theorem splitTexts_comparison : splitTexts (comparison field o cs) = [comparison field o cs] := by
  have hspace : ' ' ∉ cs := fun hmem => Bool.false_ne_true (hbare ' ' hmem)
  have hgap := uncut_space hfree atBreak_nil
  rw [List.append_nil] at hgap
  have hliteral : Uncut ([' '] ++ cs) [] := uncut_append.mpr ⟨by simpa using hgap, uncut_of_not_mem hspace []⟩
  have hsplit := splitTexts_append (uncut_comparison h.chars h.operator hliteral) (show splitTexts [] = [[]] from rfl)
  simpa [comparison] using hsplit

variable (hshort : checkDigits (literalDigits (comparison field o cs) (literalValue cs)) = .ok ())
include hshort

theorem parseConditions_listWhereBare :
    parseConditions (listWhereBare field o cs).toList = .ok [⟨field, o, literalValue cs⟩] := by
  have hliteral := literal?_of_bare hpart.tight.ne_nil hbare
  have hparse := parseCondition_of_literal? h.ne_nil h.chars h.operator hliteral hshort
  exact parseConditions_of_comparison (whereTexts_listWhereBare h hpart) (splitTexts_comparison h hfree hbare)
    (tight_bareComparison h hpart) hparse

theorem parse_listWhereBare : parse (listWhereBare field o cs) =
    .ok { kind := .list, conditions := [⟨field, o, literalValue cs⟩] } := by
  have hhead : parseHead (listWhereBare field o cs).toList = .ok { kind := .list } := by
    rw [toList_listWhereBare]
    rfl
  have hdigits := search_listWhereBare h hpart limitDigits?_ledBy (by decide)
  rw [parse, squeeze_listWhereBare h hpart, parseChars, hhead, hdigits,
    parseConditions_listWhereBare h hpart hfree hbare hshort, search_limitClause?, hdigits, parseSource, search_listWhereBare h hpart folderClause?_ledBy (by decide),
    search_listWhereBare h hpart tagClause?_ledBy (by decide),
    search_listWhereBare h hpart flattenClause?_ledBy (by decide),
    search_listWhereBare h hpart groupClause?_ledBy (by decide),
    search_listWhereBare h hpart sortClause?_ledBy (by decide)]
  rfl

end

/-! ## Integers -/

theorem literalValue_eq_int_iff (n : Int) : literalValue (signedDecimal n) = .int n ↔ n.natAbs < tooLarge := by
  rw [literalValue_signedDecimal]
  constructor
  · intro h
    by_contra hlarge
    rw [wholeValue_of_le (Nat.le_of_not_lt hlarge)] at h
    cases h
  · intro h
    exact wholeValue_of_lt h

theorem literalValue_of_large {n : Int} (h : tooLarge ≤ n.natAbs) :
    literalValue (signedDecimal n) = .float (infinity (decide (n < 0))) := by
  rw [literalValue_signedDecimal, wholeValue_of_le h]

theorem literalValue_eq_nearest (n : Int) :
    literalValue (signedDecimal n) = if isWhole (nearest n) = true then .int n else .float (nearest n) := by
  have hwhole : isWhole (nearest n) = true ↔ n.natAbs < tooLarge := by
    rw [Number.isWhole_nearest, Number.isFinite_nearest_iff]
  by_cases h : n.natAbs < tooLarge
  · rw [if_pos (hwhole.mpr h), (literalValue_eq_int_iff n).mpr h]
  · have hlarge := Nat.le_of_not_lt h
    rw [if_neg (mt hwhole.mp h), literalValue_of_large hlarge, Number.nearest_of_large hlarge]

theorem checkDigits_signedDecimal (field : String) (o : Operator) (n : Int) :
    checkDigits (literalDigits (comparison field o (signedDecimal n)) (literalValue (signedDecimal n))) = .ok () := by
  have hless : tooLarge < 10 ^ Text.maxDigits := by decide +kernel
  by_cases h : n.natAbs < tooLarge
  · rw [(literalValue_eq_int_iff n).mpr h, literalDigits, comparison, finalDigits_signedDecimal]
    exact checkDigits_decimal (Nat.lt_trans h hless)
  · rw [literalValue_of_large (Nat.le_of_not_lt h)]
    rfl

/-- The text of an integer is read as a float first, which may be infinite. -/
theorem parse_integer {field : String} {o : Operator} (h : Comparable field o) (n : Int) :
    parse (listWhereBare field o (signedDecimal n)) =
      .ok { kind := .list, conditions := [⟨field, o, literalValue (signedDecimal n)⟩] } ∧
    Number.readFloat? (signedDecimal n) = some (nearest n) ∧
    literalValue (signedDecimal n) = (if isWhole (nearest n) = true then .int n else .float (nearest n)) ∧
    (literalValue (signedDecimal n) = .int n ↔ n.natAbs < tooLarge) ∧
    (tooLarge ≤ n.natAbs → literalValue (signedDecimal n) = .float (infinity (decide (n < 0)))) := by
  have hfree : Free ["and".toList] (signedDecimal n) := free_signedDecimal (by decide) n
  refine ⟨?_, ?_, ?_, ?_, ?_⟩
  · exact parse_listWhereBare h (isPart_signedDecimal n) hfree (fun c => isBareChar_of_mem_signedDecimal)
      (checkDigits_signedDecimal field o n)
  · exact Number.readFloat?_signedDecimal n
  · exact literalValue_eq_nearest n
  · exact literalValue_eq_int_iff n
  · exact literalValue_of_large

theorem comparable_rating : Comparable "rating" .atLeast :=
  ⟨by decide, by decide, by decide, by decide⟩

theorem parse_rating : parse (listWhereBare "rating" .atLeast (signedDecimal (-3))) =
    .ok { kind := .list, conditions := [⟨"rating", .atLeast, .int (-3)⟩] } := by
  obtain ⟨hparse, -, -, hint, -⟩ := parse_integer comparable_rating (-3)
  have hsmall : literalValue (signedDecimal (-3)) = .int (-3) := hint.mpr (by decide +kernel)
  rw [hparse, hsmall]

theorem not_always_exact : ¬∀ n : Int, n.natAbs < 10 ^ 4300 → literalValue (signedDecimal n) = .int n := by
  intro hall
  have hread := hall (10 ^ 309) (by decide +kernel)
  rw [literalValue_of_large (by decide +kernel)] at hread
  cases hread

end NoteQuery.Query

import NoteQuery.Proofs.Fallible
import NoteQuery.Proofs.Number.Bits
import NoteQuery.Proofs.Query.Phrase
import NoteQuery.Proofs.Query.Spelling
import NoteQuery.Proofs.Query.Split

/-!
# Queries that are accepted

Whatever text is read as a query, the query is well formed: a table has columns and a list has none,
names are over the characters that names may have, literals are plain values, and the direction and the
limit are what they can be. Operators and functions are known just if they are spelled in ASCII.
-/

namespace NoteQuery

namespace Query

open Text (isWord isFieldChar IsPlain lower)

/-! ## Names -/

def IsOver (p : Char → Bool) (s : String) : Prop := s.toList ≠ [] ∧ ∀ c ∈ s.toList, p c = true

theorem isOver_ofList {p : Char → Bool} {cs : List Char} (hne : cs ≠ []) (h : ∀ c ∈ cs, p c = true) :
    IsOver p (String.ofList cs) := by
  rw [IsOver, String.toList_ofList]
  exact ⟨hne, h⟩

theorem isOver_of_run? {p : Char → Bool} {cs run rest : List Char} (h : run? p cs = some (run, rest)) :
    IsOver p (String.ofList run) :=
  isOver_ofList (run?_eq_some_iff.mp h).2.2 fun _ hc => of_mem_run? h hc

/-! ## Parts of a text -/

theorem infix_trim (cs : List Char) : Text.trim cs <:+: cs := by
  have hfinal : Text.dropFinalBlanks (Text.dropBlanks cs) <+: Text.dropBlanks cs := by
    have hsuffix := List.dropWhile_suffix (l := (Text.dropBlanks cs).reverse) Text.isBlank
    rwa [← List.reverse_prefix, List.reverse_reverse] at hsuffix
  exact hfinal.isInfix.trans (List.dropWhile_suffix Text.isBlank).isInfix

theorem infix_of_mem_cutWhere {p : Char → Bool} : ∀ {cs piece : List Char}, piece ∈ Text.cutWhere p cs → piece <:+: cs
  | [], piece, h => by
    obtain rfl := List.mem_singleton.mp h
    exact List.infix_rfl
  | c :: cs, piece, h => by
    by_cases hc : p c = true
    · rw [Text.cutWhere_cons_of_pos p hc] at h
      rcases List.mem_cons.mp h with rfl | h
      · exact List.nil_infix
      · exact List.infix_cons (infix_of_mem_cutWhere h)
    · obtain ⟨pieces, hcs⟩ := Text.exists_cutWhere p cs
      rw [Text.cutWhere_cons_of_neg p (Bool.not_eq_true _ ▸ hc) hcs] at h
      rcases List.mem_cons.mp h with rfl | h
      · exact (List.cons_prefix_cons.mpr ⟨rfl, List.takeWhile_prefix _⟩).isInfix
      · refine List.infix_cons (infix_of_mem_cutWhere (p := p) ?_)
        rw [hcs]
        exact List.mem_cons_of_mem _ h

theorem infix_of_afterWord? {keyword cs rest : List Char} (h : afterWord? keyword cs = some rest) : rest <:+: cs := by
  obtain ⟨run, rfl, -⟩ := exists_reads (afterWord?_eq_some_iff.mp h)
  exact ⟨run ++ [' '], [], by simp⟩

theorem append_of_freeClause? {cs inside rest : List Char} (h : freeClause? cs = some (inside, rest)) :
    inside ++ rest = cs := by
  cases cs with
  | nil => cases h
  | cons c cs =>
    obtain ⟨rfl, rfl⟩ := Prod.mk.inj (Option.some.inj h)
    rw [List.cons_append, untilClause_append]

theorem infix_of_tableHead? {cs list : List Char} {bare : Bool} (h : tableHead? cs = some (bare, list)) : list <:+: cs := by
  rw [tableHead?] at h
  cases hafter : afterWord? "table".toList cs with
  | none => rw [hafter] at h; cases h
  | some rest =>
    rw [hafter] at h
    dsimp only at h
    refine List.IsInfix.trans ?_ (infix_of_afterWord? hafter)
    split at h
    · rename_i columns after hbare
      obtain ⟨-, rfl⟩ := Prod.mk.inj (Option.some.inj h)
      obtain ⟨body, hbody, hfree⟩ := Option.bind_eq_some_iff.mp hbare
      obtain ⟨more, hwithout, hid⟩ := Option.bind_eq_some_iff.mp hbody
      have hlist : columns <:+: body := ⟨[], after, append_of_freeClause? hfree⟩
      exact hlist.trans ((infix_of_afterWord? hid).trans (infix_of_afterWord? hwithout))
    · obtain ⟨-, h⟩ := Option.ite_none_left_eq_some.mp h
      obtain ⟨⟨columns, after⟩, hfree, heq⟩ := Option.map_eq_some_iff.mp h
      obtain ⟨-, rfl⟩ := Prod.mk.inj heq
      exact ⟨[], after, append_of_freeClause? hfree⟩

theorem infix_of_mem_whereClauses : ∀ {steps : Nat} {before : Option Char} {cs inside : List Char},
    inside ∈ whereClauses steps before cs → inside <:+: cs
  | 0, _, _, _, h => by cases h
  | _ + 1, _, [], _, h => by cases h
  | steps + 1, before, c :: cs, inside, h => by
    rw [whereClauses] at h
    split at h
    · rename_i found rest hclause
      split at hclause
      · cases hclause
      · obtain ⟨after, hafter, hfree⟩ := Option.bind_eq_some_iff.mp hclause
        refine List.IsInfix.trans ?_ (infix_of_afterWord? hafter)
        have hsplit := append_of_freeClause? hfree
        rcases List.mem_cons.mp h with rfl | h
        · exact ⟨[], rest, hsplit⟩
        · exact (infix_of_mem_whereClauses h).trans ⟨found, [], by rw [List.append_nil, hsplit]⟩
    · exact List.infix_cons (infix_of_mem_whereClauses h)

theorem splitAnd_parts : ∀ (steps : Nat) (cs : List Char), ∃ part parts, splitAnd steps cs = part :: parts ∧
    part <+: cs ∧ ∀ other ∈ parts, other <:+: cs
  | 0, cs => ⟨cs, [], rfl, List.prefix_rfl, fun _ h => nomatch h⟩
  | _ + 1, [] => ⟨[], [], rfl, List.prefix_rfl, fun _ h => nomatch h⟩
  | steps + 1, c :: cs => by
    rw [splitAnd]
    split
    · rename_i rest hhere
      obtain ⟨part, parts, heq, hpart, hparts⟩ := splitAnd_parts steps rest
      obtain ⟨run, hrun, -⟩ := exists_splitHere? (show splitHere? (c :: cs) = some rest from hhere)
      have hrest : rest <:+: c :: cs := by
        rw [hrun]
        exact ⟨' ' :: (run ++ [' ']), [], by simp⟩
      -- the part before the separator is empty here; the characters before it are put in front on the way back
      refine ⟨[], _, rfl, List.nil_prefix, fun other hother => ?_⟩
      rw [heq] at hother
      rcases List.mem_cons.mp hother with rfl | hother
      · exact hpart.isInfix.trans hrest
      · exact (hparts other hother).trans hrest
    · obtain ⟨part, parts, heq, hpart, hparts⟩ := splitAnd_parts steps cs
      rw [heq]
      refine ⟨c :: part, parts, rfl, List.cons_prefix_cons.mpr ⟨rfl, hpart⟩, fun other hother => ?_⟩
      exact List.infix_cons (hparts other hother)

theorem infix_of_mem_splitAnd {steps : Nat} {cs part : List Char} (h : part ∈ splitAnd steps cs) : part <:+: cs := by
  obtain ⟨first, parts, heq, hfirst, hparts⟩ := splitAnd_parts steps cs
  rw [heq] at h
  rcases List.mem_cons.mp h with rfl | h
  · exact hfirst.isInfix
  · exact hparts part h

/-! ## Spellings in a text -/

theorem length_of_reads : ∀ {keyword run : List Char}, Reads keyword run → run.length = keyword.length
  | [], run, h => by
    rw [Reads, Text.afterKeyword?] at h
    rw [Option.some.inj h]
  | k :: keyword, [], h => by cases h
  | k :: keyword, c :: run, h => by
    rw [Reads, Text.afterKeyword?] at h
    split at h
    · exact congrArg Nat.succ (length_of_reads h)
    · cases h

theorem reads_take {keyword cs rest : List Char} (h : Text.afterKeyword? keyword cs = some rest) :
    Reads keyword (cs.take keyword.length) ∧ cs.take keyword.length <:+: cs := by
  obtain ⟨run, rfl, hrun⟩ := exists_reads h
  rw [← length_of_reads hrun, List.take_left]
  exact ⟨hrun, List.prefix_append run rest |>.isInfix⟩

theorem isKnown_operator {cs word : List Char} (h : IsSpelling Operator.names cs word) :
    (Operator.ofText (String.ofList (lower word))).IsKnown ↔ IsPlain word := by
  rw [Operator.isKnown_ofText_iff, String.toList_ofList, h.lower_mem_iff isDistinct_operators]

theorem isKnown_aggregate {cs word : List Char} (h : IsSpelling aggregateNames cs word) :
    (Aggregate.ofText (String.ofList (lower word))).IsKnown ↔ IsPlain word := by
  rw [Aggregate.isKnown_ofText_iff, String.toList_ofList, h.lower_mem_iff isDistinct_aggregates]

/-! ## Columns -/

structure IsColumn (cs : List Char) (c : Column) : Prop where
  field : IsOver isFieldChar c.field
  aggregate : ∀ f ∈ c.aggregate, ∃ word, IsSpelling aggregateNames cs word ∧
    f = .ofText (String.ofList (lower word)) ∧ (f.IsKnown ↔ IsPlain word)

theorem spelling_of_callHead? {cs name inside : List Char} (h : callHead? cs = some (name, inside)) :
    IsSpelling aggregateNames cs name := by
  obtain ⟨keyword, hkeyword, hafter⟩ := List.exists_of_findSome?_eq_some h
  split at hafter
  · rename_i rest hrest
    obtain ⟨rfl, -⟩ := Prod.mk.inj (Option.some.inj hafter)
    obtain ⟨hreads, hpart⟩ := reads_take hrest
    exact ⟨hpart, keyword, hkeyword, hreads⟩
  · cases hafter

theorem isColumn_of_callColumn? {cs : List Char} {c : Column} (h : callColumn? cs = some c) : IsColumn cs c := by
  rw [callColumn?] at h
  split at h
  · cases h
  · rename_i name inside hhead
    have hspelling := spelling_of_callHead? hhead
    split at h
    · rename_i field rest hfield
      have hover := isOver_of_run? hfield
      -- with and without a name behind it, the call is the same
      have hcall : ∀ title, IsColumn cs ⟨String.ofList field, title, some (.ofText (String.ofList (lower name)))⟩ := by
        intro title
        refine ⟨hover, fun f hf => ⟨name, hspelling, (Option.mem_some.mp hf).symm, ?_⟩⟩
        rw [← Option.mem_some.mp hf]
        exact isKnown_aggregate hspelling
      dsimp only at h
      split at h
      · obtain rfl := Option.some.inj h
        exact hcall none
      · obtain ⟨title, -, rfl⟩ := Option.map_eq_some_iff.mp h
        exact hcall (some title)
    · cases h

theorem isColumn_of_fieldColumn? {cs : List Char} {c : Column} (h : fieldColumn? cs = some c) : IsColumn cs c := by
  rw [fieldColumn?] at h
  split at h
  · rename_i field rest hfield
    have hover := isOver_of_run? hfield
    dsimp only at h
    split at h
    · obtain rfl := Option.some.inj h
      exact ⟨hover, fun _ hf => nomatch hf⟩
    · obtain ⟨title, -, rfl⟩ := Option.map_eq_some_iff.mp h
      exact ⟨hover, fun _ hf => nomatch hf⟩
  · cases h

theorem isColumn_of_column? {cs : List Char} {c : Column} (h : column? cs = some c) : IsColumn cs c := by
  rw [column?] at h
  cases hcall : callColumn? cs with
  | some found =>
    rw [hcall] at h
    obtain rfl := Option.some.inj h
    exact isColumn_of_callColumn? hcall
  | none =>
    rw [hcall] at h
    exact isColumn_of_fieldColumn? h

theorem IsColumn.of_part {part cs : List Char} {c : Column} (h : IsColumn part c) (hpart : part <:+: cs) :
    IsColumn cs c where
  field := h.field
  aggregate := by
    intro f hf
    obtain ⟨word, hword, hspelled⟩ := h.aggregate f hf
    exact ⟨word, hword.of_part hpart, hspelled⟩

theorem isColumn_of_mem {cs : List Char} {c : Column} (h : c ∈ parseColumns cs) : IsColumn cs c := by
  obtain ⟨part, hpart, hcolumn⟩ := List.mem_filterMap.mp h
  exact (isColumn_of_column? hcolumn).of_part ((infix_trim part).trans (infix_of_mem_cutWhere hpart))

/-! ## Conditions -/

/-- The values that can be written in a query. -/
inductive IsOperand : Value → Prop
  | text (s : String) : IsOperand (.text s)
  | bool (b : Bool) : IsOperand (.bool b)
  | int {n : Int} : n.natAbs < Number.tooLarge → IsOperand (.int n)
  | float {x : Float} : Number.isNaN x = false → IsOperand (.float x)

theorem isOperand_wholeValue (negative : Bool) (n : Nat) : IsOperand (wholeValue negative n) := by
  unfold wholeValue
  split
  · cases negative <;> exact .int (by simpa)
  · exact .float (Number.isNaN_infinity negative)

theorem isOperand_of_numberLiteral? {cs : List Char} {v : Value} (h : numberLiteral? cs = some v) : IsOperand v := by
  rw [numberLiteral?] at h
  generalize Number.splitSign _ = signed at h
  obtain ⟨negative, body⟩ := signed
  dsimp only at h
  split at h
  · rw [← Option.some.inj h]
    exact isOperand_wholeValue negative _
  · obtain ⟨x, hx, rfl⟩ := Option.map_eq_some_iff.mp h
    exact .float (Number.isNaN_of_unsigned? hx)

theorem isOperand_literalValue (cs : List Char) : IsOperand (literalValue cs) := by
  rw [literalValue]
  split
  · exact .text _
  split
  · exact .bool true
  split
  · exact .bool false
  · cases hnumber : numberLiteral? cs with
    | none => exact .text _
    | some v => exact isOperand_of_numberLiteral? hnumber

theorem isOperand_of_literal? {cs : List Char} {v : Value} (h : literal? cs = some v) : IsOperand v := by
  obtain ⟨-, h⟩ := Option.ite_none_right_eq_some.mp h
  rw [← Option.some.inj h]
  exact isOperand_literalValue cs

structure IsComparing (cs : List Char) (o : Operator) (v : Value) : Prop where
  operator : ∃ word, IsSpelling Operator.names cs word ∧ o = .ofText (String.ofList (lower word)) ∧
    (o.IsKnown ↔ IsPlain word)
  literal : IsOperand v

theorem IsComparing.of_part {part cs : List Char} {o : Operator} {v : Value} (h : IsComparing part o v)
    (hpart : part <:+: cs) : IsComparing cs o v := by
  obtain ⟨⟨word, hword, hspelled⟩, hliteral⟩ := h
  exact ⟨⟨word, hword.of_part hpart, hspelled⟩, hliteral⟩

theorem isComparing_of_isSpelling {cs word : List Char} {v : Value} (h : IsSpelling Operator.names cs word)
    (hv : IsOperand v) : IsComparing cs (.ofText (String.ofList (lower word))) v :=
  ⟨⟨word, h, rfl, isKnown_operator h⟩, hv⟩

theorem signs_names : ∀ sign ∈ signs, sign ∈ Operator.names ∧ Reads sign sign ∧ lower sign = sign := by decide

/-- The reading of an operator made of signs at the start of a text. -/
def signed? (cs : List Char) : Option (Operator × Value) :=
  signs.findSome? fun sign =>
    ((Text.after? sign cs).bind (literal? ∘ dropSpace)).map fun value => (Operator.ofText (String.ofList sign), value)

theorem isComparing_of_signed? {cs : List Char} {o : Operator} {v : Value} (h : signed? cs = some (o, v)) :
    IsComparing cs o v := by
  obtain ⟨sign, hsign, hfound⟩ := List.exists_of_findSome?_eq_some h
  obtain ⟨value, hvalue, heq⟩ := Option.map_eq_some_iff.mp hfound
  obtain ⟨rfl, rfl⟩ := Prod.mk.inj heq
  obtain ⟨rest, hrest, hliteral⟩ := Option.bind_eq_some_iff.mp hvalue
  obtain ⟨hname, hreads, hlower⟩ := signs_names sign hsign
  obtain rfl := Text.after?_eq_some_iff.mp hrest
  have hpart : sign <:+: sign ++ rest := (List.prefix_append sign rest).isInfix
  have hcomparing := isComparing_of_isSpelling ⟨hpart, sign, hname, hreads⟩ (isOperand_of_literal? hliteral)
  rwa [hlower] at hcomparing

theorem isComparing_of_comparison? {before : Char} {cs : List Char} {o : Operator} {v : Value}
    (h : comparison? before cs = some (o, v)) : IsComparing cs o v := by
  rw [comparison?] at h
  change (signed? cs <|> _) = some (o, v) at h
  cases hsigned : signed? cs with
  | some found =>
    rw [hsigned] at h
    obtain rfl := Option.some.inj h
    exact isComparing_of_signed? hsigned
  | none =>
    rw [hsigned] at h
    cases hrest : Text.afterKeyword? "contains".toList cs with
    | none =>
      rw [hrest] at h
      cases h
    | some rest =>
      rw [hrest] at h
      obtain ⟨-, h⟩ := Option.ite_none_right_eq_some.mp h
      obtain ⟨value, hvalue, heq⟩ := Option.map_eq_some_iff.mp h
      obtain ⟨rfl, rfl⟩ := Prod.mk.inj heq
      obtain ⟨hreads, hpart⟩ := reads_take hrest
      exact isComparing_of_isSpelling ⟨hpart, "contains".toList, by decide, hreads⟩ (isOperand_of_literal? hvalue)

structure IsCondition (cs : List Char) (c : Condition) : Prop where
  field : IsOver isFieldChar c.field
  comparing : IsComparing cs c.operator c.literal

theorem isCondition_of_conditionFrom? : ∀ {taken rest : List Char} {c : Condition}, (∀ d ∈ taken, isFieldChar d = true) →
    conditionFrom? taken rest = some c → IsCondition (taken.reverse ++ rest) c
  | [], _, _, _, h => by cases h
  | d :: taken, rest, c, htaken, h => by
    unfold conditionFrom? at h
    dsimp only at h
    split at h
    · rename_i o v hfound
      obtain rfl := Option.some.inj h
      refine ⟨isOver_ofList (by simp) fun e he => htaken e (List.mem_reverse.mp he), ?_⟩
      have hcomparing : IsComparing rest o v := by
        split at hfound
        · exact (isComparing_of_comparison? hfound).of_part (List.suffix_cons _ _).isInfix
        · exact isComparing_of_comparison? hfound
      exact hcomparing.of_part (List.suffix_append _ rest).isInfix
    · have hshorter := isCondition_of_conditionFrom? (fun e he => htaken e (List.mem_cons_of_mem _ he)) h
      rwa [List.reverse_cons, List.append_assoc]

theorem isCondition_of_condition? {cs : List Char} {c : Condition} (h : condition? cs = some c) : IsCondition cs c := by
  rw [condition?, Text.span_eq] at h
  have hspelled := isCondition_of_conditionFrom? (fun d hd =>
    List.all_eq_true.mp List.all_takeWhile d (List.mem_reverse.mp hd)) h
  rwa [List.reverse_reverse, List.takeWhile_append_dropWhile] at hspelled

theorem IsCondition.of_part {part cs : List Char} {c : Condition} (h : IsCondition part c)
    (hpart : part <:+: cs) : IsCondition cs c :=
  ⟨h.field, h.comparing.of_part hpart⟩

theorem isCondition_of_mem {cs : List Char} {conditions : List Condition}
    (h : parseConditions cs = .ok conditions) : ∀ c ∈ conditions, IsCondition cs c := by
  intro c hc
  obtain ⟨part, hpart, hparse⟩ := exists_of_mapM h c hc
  obtain ⟨clause, hclause, hpart⟩ := List.mem_flatMap.mp hpart
  have hpart := (infix_of_mem_splitAnd hpart).trans (infix_of_mem_whereClauses hclause)
  rw [Function.comp_apply, parseCondition] at hparse
  split at hparse
  · rename_i found hfound
    obtain ⟨-, -, rfl⟩ := map_eq_ok hparse
    exact (isCondition_of_condition? hfound).of_part ((infix_trim part).trans hpart)
  · cases hparse

/-! ## Clauses -/

theorem exists_of_search {α : Type} {f : List Char → Option α} {cs : List Char} {a : α} (h : search f cs = some a) :
    ∃ rest, f rest = some a := by
  obtain ⟨rest, -, hrest, -⟩ := exists_first_of_searchFrom h
  exact ⟨rest, hrest⟩

theorem isOver_of_flattenClause? {cs : List Char} {f : Flatten} (h : flattenClause? cs = some f) :
    IsOver isFieldChar f.field ∧ IsOver isWord f.name := by
  rw [flattenClause?] at h
  split at h
  · rename_i field rest hfield
    obtain ⟨⟨name, after⟩, hname, rfl⟩ := Option.map_eq_some_iff.mp h
    obtain ⟨_, -, hrun⟩ := Option.bind_eq_some_iff.mp hfield
    obtain ⟨_, -, hword⟩ := Option.bind_eq_some_iff.mp hname
    exact ⟨isOver_of_run? hrun, isOver_of_run? hword⟩
  · cases h

theorem isOver_of_groupClause? {cs : List Char} {field : String} (h : groupClause? cs = some field) :
    IsOver isFieldChar field := by
  obtain ⟨⟨run, after⟩, hrun, rfl⟩ := Option.map_eq_some_iff.mp h
  obtain ⟨_, -, hrun⟩ := Option.bind_eq_some_iff.mp hrun
  exact isOver_of_run? hrun

theorem direction_cases (cs : List Char) : direction cs = .ascending ∨ direction cs = .descending := by
  rw [direction]
  exact (ite_eq_or_eq _ _ _).symm

/-! ## The whole query -/

/-- What is so of every query that is read in a text. -/
structure Accepted (cs : List Char) (q : Query) : Prop where
  head : q.kind = .table ∧ q.columnList ≠ [] ∨ q.kind = .list ∧ q.columns = none ∧ q.withoutId = false
  columns : ∀ c ∈ q.columnList, IsColumn cs c
  conditions : ∀ c ∈ q.conditions, IsCondition cs c
  flatten : ∀ f ∈ q.flatten, IsOver isFieldChar f.field ∧ IsOver isWord f.name
  groupBy : ∀ field ∈ q.groupBy, IsOver isFieldChar field
  sort : ∀ o ∈ q.sort, o.direction = .ascending ∨ o.direction = .descending
  limit : ∀ l ∈ q.limit, ∃ n : Nat, l = .count n ∧ 1 ≤ n

theorem accepted_of_parseHead {cs : List Char} {head : Query} (h : parseHead cs = .ok head) :
    (head.kind = .table ∧ head.columnList ≠ [] ∨ head.kind = .list ∧ head.columns = none ∧ head.withoutId = false) ∧
      ∀ c ∈ head.columnList, IsColumn cs c := by
  rw [parseHead] at h
  split at h
  · cases h
  split at h
  · rename_i bare list htable
    dsimp only at h
    split at h
    · cases h
    · rename_i hne
      obtain rfl := Except.ok.inj h
      refine ⟨Or.inl ⟨rfl, fun hnil => hne (List.isEmpty_iff.mpr hnil)⟩, fun c hc => ?_⟩
      exact (isColumn_of_mem hc).of_part (infix_of_tableHead? htable)
  · split at h
    · obtain rfl := Except.ok.inj h
      exact ⟨Or.inr ⟨rfl, rfl, rfl⟩, fun _ hc => nomatch hc⟩
    · cases h

theorem lt_of_checkDigits {digits : List Char} {fault : QueryFault} (h : checkDigits digits = .error fault) :
    ∃ n, fault = .digits n ∧ Text.maxDigits < n := by
  unfold checkDigits at h
  split at h
  · exact ⟨_, (Except.error.inj h).symm, ‹_›⟩
  · cases h

theorem lt_of_parse {text : String} {fault : QueryFault} (h : parse text = .error fault)
    (hwording : fault.isSyntax = false) : ∃ n, fault = .digits n ∧ Text.maxDigits < n := by
  rcases bind_eq_error h with hhead | ⟨head, -, h⟩
  · -- the faults of a head are all of its wording
    rw [parseHead] at hhead
    split at hhead
    · rw [← Except.error.inj hhead] at hwording
      cases hwording
    split at hhead
    · dsimp only at hhead
      split at hhead
      · rw [← Except.error.inj hhead] at hwording
        cases hwording
      · cases hhead
    · split at hhead
      · cases hhead
      · rw [← Except.error.inj hhead] at hwording
        cases hwording
  -- only the two checks of digits raise another fault
  rcases bind_eq_error h with hlimit | ⟨_, -, h⟩
  · exact lt_of_checkDigits hlimit
  rcases bind_eq_error h with hconditions | ⟨conditions, -, h⟩
  · obtain ⟨part, -, hpart⟩ := exists_of_mapM_error hconditions
    rw [Function.comp_apply, parseCondition] at hpart
    split at hpart
    · rename_i c _
      cases hdigits : checkDigits (literalDigits (Text.trim part) c.literal) with
      | error found =>
        rw [hdigits] at hpart
        obtain rfl := Except.error.inj hpart
        exact lt_of_checkDigits hdigits
      | ok _ =>
        rw [hdigits] at hpart
        cases hpart
    · rw [← Except.error.inj hpart] at hwording
      cases hwording
  · cases h

theorem groupBy_of_parse {text : String} {q : Query} (h : parse text = .ok q) :
    ∀ field ∈ q.groupBy, IsOver isFieldChar field := by
  obtain ⟨head, -, h⟩ := bind_eq_ok h
  obtain ⟨-, -, h⟩ := bind_eq_ok h
  obtain ⟨conditions, -, h⟩ := bind_eq_ok h
  obtain rfl := Except.ok.inj h
  intro field hfield
  obtain ⟨rest, hrest⟩ := exists_of_search hfield
  exact isOver_of_groupClause? hrest

theorem limit_of_parse {text : String} {q : Query} (h : parse text = .ok q) :
    ∀ l ∈ q.limit, ∃ n : Nat, l = .count n ∧ 1 ≤ n := by
  obtain ⟨head, -, h⟩ := bind_eq_ok h
  obtain ⟨-, -, h⟩ := bind_eq_ok h
  obtain ⟨conditions, -, h⟩ := bind_eq_ok h
  obtain rfl := Except.ok.inj h
  intro l hl
  obtain ⟨n, hn, rfl⟩ := Option.map_eq_some_iff.mp hl
  obtain ⟨m, hm, heq⟩ := Option.bind_eq_some_iff.mp hn
  obtain ⟨-, hpos⟩ := Option.filter_eq_some_iff.mp hm
  exact ⟨m, congrArg Limit.count (Option.some.inj heq).symm, of_decide_eq_true hpos⟩

theorem conditions_of_parse {text : String} {q : Query} (h : parse text = .ok q) :
    ∀ c ∈ q.conditions, IsCondition (Text.squeeze text.toList) c := by
  obtain ⟨head, -, h⟩ := bind_eq_ok h
  obtain ⟨-, -, h⟩ := bind_eq_ok h
  obtain ⟨conditions, hconditions, h⟩ := bind_eq_ok h
  obtain rfl := Except.ok.inj h
  exact isCondition_of_mem hconditions

theorem columns_of_parse {text : String} {q : Query} (h : parse text = .ok q) : q.columns = none ↔ q.kind = .list := by
  obtain ⟨head, hhead, h⟩ := bind_eq_ok h
  obtain ⟨-, -, h⟩ := bind_eq_ok h
  obtain ⟨conditions, -, h⟩ := bind_eq_ok h
  obtain rfl := Except.ok.inj h
  dsimp only
  rcases (accepted_of_parseHead hhead).1 with ⟨hkind, hcolumns⟩ | ⟨hkind, hcolumns, -⟩
  · refine ⟨fun hnone => absurd ?_ hcolumns, fun hlist => absurd (hkind.symm.trans hlist) (by decide)⟩
    rw [columnList, hnone, Option.getD_none]
  · exact ⟨fun _ => hkind, fun _ => hcolumns⟩

theorem accepted_of_parse {text : String} {q : Query} (h : parse text = .ok q) : Accepted (Text.squeeze text.toList) q := by
  have hgroupBy := groupBy_of_parse h
  have hlimit := limit_of_parse h
  have hconditions := conditions_of_parse h
  -- the parts that need no further look at how the parser goes on
  obtain ⟨head, hhead, h⟩ := bind_eq_ok h
  obtain ⟨-, -, h⟩ := bind_eq_ok h
  obtain ⟨conditions, -, h⟩ := bind_eq_ok h
  obtain rfl := Except.ok.inj h
  obtain ⟨hkind, hcolumns⟩ := accepted_of_parseHead hhead
  exact {
    head := hkind
    columns := hcolumns
    conditions := hconditions
    flatten := by
      intro f hf
      obtain ⟨rest, hrest⟩ := exists_of_search hf
      exact isOver_of_flattenClause? hrest
    groupBy := hgroupBy
    sort := by
      intro o ho
      obtain ⟨⟨target, found⟩, hsort, rfl⟩ := Option.map_eq_some_iff.mp ho
      obtain ⟨rest, hrest⟩ := exists_of_search hsort
      obtain ⟨⟨run, after⟩, -, heq⟩ := Option.map_eq_some_iff.mp hrest
      obtain ⟨-, rfl⟩ := Prod.mk.inj heq
      exact direction_cases after
    limit := hlimit }

def fullText : String :=
  "table sum(a.b) as total from #x where c CONTAINS 1 flatten d as e group by e sort total desc limit 2"

theorem accepted_fullText : ∃ q, parse fullText = .ok q ∧ Accepted (Text.squeeze fullText.toList) q ∧
    q.conditions.map (·.operator) = [.contains] ∧ q.columnList.map (·.aggregate) = [some .sum] := by
  have hread : (parse fullText).toOption.map (fun q =>
      (q.conditions.map (·.operator), q.columnList.map (·.aggregate))) = some ([.contains], [some .sum]) := by
    decide +kernel
  cases h : parse fullText with
  | error fault =>
    rw [h] at hread
    cases hread
  | ok q =>
    rw [h] at hread
    obtain ⟨hoperators, haggregates⟩ := Prod.mk.inj (Option.some.inj hread)
    exact ⟨q, rfl, accepted_of_parse h, hoperators, haggregates⟩

/-- A word with a long s is read as an operator, but is none. -/
theorem not_always_known : ¬∀ (text : String) (q : Query), parse text = .ok q → ∀ c ∈ q.conditions, c.operator.IsKnown := by
  intro hall
  have hread : (parse "LIST WHERE a containſ b").toOption.map (fun q => q.conditions.map (·.operator)) =
      some [.unknown "containſ"] := by
    decide +kernel
  cases h : parse "LIST WHERE a containſ b" with
  | error fault =>
    rw [h] at hread
    cases hread
  | ok q =>
    rw [h] at hread
    have hoperators : q.conditions.map (·.operator) = [.unknown "containſ"] := Option.some.inj hread
    have hmem : Operator.unknown "containſ" ∈ q.conditions.map (·.operator) := by
      rw [hoperators]
      exact List.mem_singleton_self _
    obtain ⟨c, hc, hoperator⟩ := List.mem_map.mp hmem
    have hknown := hall _ q h c hc
    rw [hoperator] at hknown
    revert hknown
    decide

end Query

end NoteQuery

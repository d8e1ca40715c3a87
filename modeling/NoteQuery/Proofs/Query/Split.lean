import NoteQuery.Proofs.Query.Conditions

/-!
# Splitting joined conditions

The text of several conditions is split where they were joined and nowhere else. Behind a join
every quote is closed. An `AND` inside a quoted text leaves the quote behind it open.
-/

namespace NoteQuery.Query

open NoteQuery.Text (isWord isFieldChar)

def splitHere? (cs : List Char) : Option (List Char) :=
  (afterSpacedWord? "and".toList cs).filter (quotesClose none)

def splitTexts (cs : List Char) : List (List Char) := splitAnd (cs.length + 1) cs

theorem exists_splitHere? {cs rest : List Char} (h : splitHere? cs = some rest) :
    ∃ run, cs = ' ' :: (run ++ ' ' :: rest) ∧ Reads "and".toList run ∧ quotesClose none rest = true := by
  obtain ⟨hafter, hclosed⟩ := Option.filter_eq_some_iff.mp h
  cases cs with
  | nil => cases hafter
  | cons c cs =>
    unfold afterSpacedWord? at hafter
    split at hafter
    · rename_i heq
      obtain ⟨run, hrun, hread⟩ := exists_reads (afterWord?_eq_some_iff.mp hafter)
      exact ⟨run, by rw [heq, hrun], hread, hclosed⟩
    · cases hafter

theorem length_of_splitHere? {cs rest : List Char} (h : splitHere? cs = some rest) : rest.length < cs.length := by
  obtain ⟨run, rfl, -⟩ := exists_splitHere? h
  simp
  omega

theorem splitAnd_eq (steps : Nat) : ∀ cs : List Char, cs.length < steps → splitAnd steps cs = splitTexts cs := by
  induction steps using Nat.strong_induction_on with
  | _ steps ih =>
    intro cs hsteps
    cases steps with
    | zero => cases hsteps
    | succ steps =>
      cases cs with
      | nil => rfl
      | cons c cs =>
        have hlen : cs.length < steps := by simpa using hsteps
        simp only [splitTexts, splitAnd, List.length_cons]
        rw [← splitHere?]
        cases hhere : splitHere? (c :: cs) with
        | none =>
          -- the bound of the definition and that of `splitTexts` are both long enough for what is left
          have hshort := ih steps (Nat.lt_succ_self _) cs hlen
          have hexact := ih (cs.length + 1) (by omega) cs (Nat.lt_succ_self _)
          simp only [hshort, hexact]
        | some rest =>
          have hrest : rest.length < cs.length + 1 := length_of_splitHere? hhere
          have hshort := ih steps (Nat.lt_succ_self _) rest (by omega)
          have hexact := ih (cs.length + 1) (by omega) rest hrest
          simp only [hshort, hexact]

theorem splitTexts_of_some {c : Char} {cs rest : List Char} (h : splitHere? (c :: cs) = some rest) :
    splitTexts (c :: cs) = [] :: splitTexts rest := by
  have hrest := splitAnd_eq (cs.length + 1) rest (length_of_splitHere? h)
  rw [splitHere?] at h
  simp only [splitTexts, List.length_cons, splitAnd, h] at hrest ⊢
  rw [hrest]

theorem splitTexts_of_none {c : Char} {cs piece : List Char} {pieces : List (List Char)}
    (h : splitHere? (c :: cs) = none) (hcs : splitTexts cs = piece :: pieces) :
    splitTexts (c :: cs) = (c :: piece) :: pieces := by
  rw [splitHere?] at h
  rw [splitTexts] at hcs
  simp only [splitTexts, List.length_cons, splitAnd, h, hcs]

/-! ## Texts that are not split -/

def Uncut : (cs rest : List Char) → Prop
  | [], _ => True
  | c :: cs, rest => splitHere? (c :: (cs ++ rest)) = none ∧ Uncut cs rest

theorem splitTexts_append : ∀ {cs rest piece : List Char} {pieces : List (List Char)}, Uncut cs rest →
    splitTexts rest = piece :: pieces → splitTexts (cs ++ rest) = (cs ++ piece) :: pieces
  | [], _, _, _, _, h => h
  | _ :: _, _, _, _, hcut, h => splitTexts_of_none hcut.1 (splitTexts_append hcut.2 h)

theorem uncut_append : ∀ {a b rest : List Char}, Uncut (a ++ b) rest ↔ Uncut a (b ++ rest) ∧ Uncut b rest
  | [], b, rest => by simp [Uncut]
  | c :: a, b, rest => by
    rw [List.cons_append, Uncut, Uncut, uncut_append, List.append_assoc, and_assoc]

theorem splitHere?_of_ne {c : Char} (h : c ≠ ' ') (cs : List Char) : splitHere? (c :: cs) = none := by
  cases hhere : splitHere? (c :: cs) with
  | none => rfl
  | some rest =>
    obtain ⟨run, hrun, -⟩ := exists_splitHere? hhere
    exact absurd (List.cons.inj hrun).1 h

theorem uncut_of_not_mem : ∀ {cs : List Char}, ' ' ∉ cs → ∀ rest, Uncut cs rest
  | [], _, _ => trivial
  | _ :: _, h, rest => by
    obtain ⟨hc, hcs⟩ := not_or.mp (mt List.mem_cons.mpr h)
    exact ⟨splitHere?_of_ne (Ne.symm hc) _, uncut_of_not_mem hcs rest⟩

theorem uncut_space {cs rest : List Char} (hfree : Free ["and".toList] cs) (hrest : AtBreak rest) :
    Uncut [' '] (cs ++ rest) := by
  refine ⟨?_, trivial⟩
  have hafter : afterWord? "and".toList (cs ++ rest) = none :=
    afterWord?_of_free hfree (List.mem_singleton_self _) (by decide) hrest
  rw [splitHere?, List.nil_append, afterSpacedWord?, hafter]
  rfl

/-! ## Open and closed quotes -/

/-- Every quote is closed, and after an open double quote none is. -/
structure Closed (cs : List Char) : Prop where
  outside : quotesClose none cs = true
  inside : quotesClose (some '"') cs = false

theorem closed_nil : Closed [] := ⟨rfl, rfl⟩

theorem quotesClose_append {quote : Option Char} (hquote : ∀ q ∈ quote, isQuote q = true) {rest : List Char} :
    ∀ {cs : List Char}, (∀ c ∈ cs, isQuote c = false) → quotesClose quote (cs ++ rest) = quotesClose quote rest
  | [], _ => rfl
  | c :: cs, h => by
    have hc := h c (List.mem_cons_self ..)
    have ih := @quotesClose_append quote hquote rest cs fun d hd => h d (List.mem_cons_of_mem _ hd)
    cases quote with
    | none => simp only [List.cons_append, quotesClose, hc, Bool.false_eq_true, if_false, ih]
    | some q =>
      have hne : (c == q) = false := by
        refine beq_eq_false_iff_ne.mpr ?_
        rintro rfl
        rw [hquote c rfl] at hc
        cases hc
      simp only [List.cons_append, quotesClose, hne, Bool.false_eq_true, if_false, ih]

section
variable {cs : List Char} (hcs : ∀ c ∈ cs, isQuote c = false)
include hcs

theorem quotesClose_outside (rest : List Char) : quotesClose none (cs ++ rest) = quotesClose none rest :=
  quotesClose_append (fun _ hq => by cases hq) hcs

theorem quotesClose_inside (rest : List Char) : quotesClose (some '"') (cs ++ rest) = quotesClose (some '"') rest :=
  quotesClose_append (fun q hq => by rw [← Option.mem_some.mp hq]; rfl) hcs

theorem Closed.append {rest : List Char} (hrest : Closed rest) : Closed (cs ++ rest) :=
  ⟨by rw [quotesClose_outside hcs, hrest.outside], by rw [quotesClose_inside hcs, hrest.inside]⟩

theorem Closed.enclosed {rest : List Char} (hrest : Closed rest) : Closed ('"' :: (cs ++ '"' :: rest)) := by
  constructor
  · show quotesClose (some '"') (cs ++ '"' :: rest) = true
    rw [quotesClose_inside hcs]
    exact hrest.outside
  · show quotesClose none (cs ++ '"' :: rest) = false
    rw [quotesClose_outside hcs]
    exact hrest.inside

theorem quotesClose_before_quote {rest : List Char} (hrest : Closed rest) :
    quotesClose none (cs ++ '"' :: rest) = false := by
  rw [quotesClose_outside hcs]
  exact hrest.inside

theorem uncut_enclosed {rest : List Char} (hrest : Closed rest) : Uncut cs ('"' :: rest) := by
  induction cs with
  | nil => trivial
  | cons c cs ih =>
    have htail : ∀ d ∈ cs, isQuote d = false := fun d hd => hcs d (List.mem_cons_of_mem _ hd)
    refine ⟨?_, ih htail⟩
    cases hhere : splitHere? (c :: (cs ++ '"' :: rest)) with
    | none => rfl
    | some after =>
      -- what is behind an `AND` in here still has the last quote to come, so that quote is left open
      exfalso
      obtain ⟨run, hrun, hread, hclosed⟩ := exists_splitHere? hhere
      have hopen : ∀ b, (∀ d ∈ b, isQuote d = false) → after ≠ b ++ '"' :: rest := by
        rintro b hb rfl
        rw [quotesClose_before_quote hb hrest] at hclosed
        cases hclosed
      have hsplit : cs ++ '"' :: rest = (run ++ [' ']) ++ after := by simpa using (List.cons.inj hrun).2
      rcases List.append_eq_append_iff.mp hsplit with ⟨b, hb, hafter⟩ | ⟨b, hb, hafter⟩
      · cases b with
        | nil => exact hopen [] (fun _ hd => by cases hd) hafter.symm
        | cons d b =>
          have hd : '"' ∈ run ++ [' '] := by
            rw [hb, (List.cons.inj hafter).1]
            simp
          rcases List.mem_append.mp hd with hd | hd
          · have hquote := isWord_of_reads (by decide) hread '"' hd
            cases hquote
          · simp at hd
      · exact hopen b (fun d hd => htail d (by rw [hb]; exact List.mem_append_right _ hd)) hafter

end

/-! ## Conditions -/

theorem not_isQuote_of {p : Char → Bool} (hdouble : p '"' = false) (hsingle : p '\'' = false) {c : Char}
    (h : p c = true) : isQuote c = false := by
  cases hq : isQuote c with
  | false => rfl
  | true =>
    simp only [isQuote, Bool.or_eq_true, beq_iff_eq] at hq
    rcases hq with rfl | rfl
    · rw [hdouble] at h; cases h
    · rw [hsingle] at h; cases h

theorem not_isQuote_of_isLiteral {s : String} (h : IsLiteral (.text s)) : ∀ c ∈ s.toList, isQuote c = false := by
  intro c hc
  have hdouble : c ≠ '"' := fun e => h.1.unquoted (e ▸ hc)
  have hsingle : c ≠ '\'' := fun e => h.2 (e ▸ hc)
  simp [isQuote, hdouble, hsingle]

theorem literalText_cases {v : Value} (h : IsLiteral v) :
    (∃ s, v = .text s ∧ literalText v = '"' :: (s.toList ++ ['"'])) ∨
      (∀ c ∈ literalText v, isBareChar c = true) ∧ Free ["and".toList] (literalText v) := by
  cases v with
  | bool b => cases b <;> exact Or.inr ⟨by decide, free_of_isWord (by decide) (by decide)⟩
  | int n => exact Or.inr ⟨fun c => isBareChar_of_mem_signedDecimal, free_signedDecimal (by decide) n⟩
  | text s => exact Or.inl ⟨s, rfl, rfl⟩
  | _ => exact absurd h id

theorem closed_literalText {v : Value} (h : IsLiteral v) {rest : List Char} (hrest : Closed rest) :
    Closed (literalText v ++ rest) := by
  rcases literalText_cases h with ⟨s, rfl, htext⟩ | ⟨hbare, -⟩
  · rw [htext]
    simpa using hrest.enclosed (not_isQuote_of_isLiteral h)
  · exact hrest.append fun c hc => not_isQuote_of (p := isBareChar) rfl rfl (hbare c hc)

theorem uncut_quoted {s : String} (hs : ∀ c ∈ s.toList, isQuote c = false) {rest : List Char} (hrest : Closed rest) :
    Uncut ([' '] ++ quoted s) rest := by
  have hquote : ' ' ∉ ['"'] := by decide
  have hinside : Uncut (s.toList ++ ['"']) rest :=
    uncut_append.mpr ⟨uncut_enclosed hs hrest, uncut_of_not_mem hquote rest⟩
  exact uncut_append.mpr ⟨⟨rfl, trivial⟩, uncut_append (a := ['"']).mpr ⟨uncut_of_not_mem hquote _, hinside⟩⟩

theorem uncut_literalText {v : Value} (h : IsLiteral v) {rest : List Char} (hbreak : AtBreak rest)
    (hrest : Closed rest) : Uncut ([' '] ++ literalText v) rest := by
  rcases literalText_cases h with ⟨s, rfl, -⟩ | ⟨hbare, hfree⟩
  · exact uncut_quoted (not_isQuote_of_isLiteral h) hrest
  · have hspace : ' ' ∉ literalText v := fun hin => by cases hbare ' ' hin
    exact uncut_append.mpr ⟨uncut_space hfree hbreak, uncut_of_not_mem hspace rest⟩

theorem conditionText_eq (c : Condition) :
    conditionText c = c.field.toList ++ ([' '] ++ (c.operator.text.toList ++ ([' '] ++ literalText c.literal))) := by
  simp [conditionText]

theorem operator_text : ∀ o ∈ Operator.all.map (·.2), (∀ c ∈ o.text.toList, isQuote c = false ∧ c ≠ ' ') ∧
    Free ["and".toList] o.text.toList := by decide

theorem closed_conditionText {c : Condition} (h : c.IsWritable) {rest : List Char} (hrest : Closed rest) :
    Closed (conditionText c ++ rest) := by
  have hspace : ∀ d ∈ [' '], isQuote d = false := by decide
  rw [conditionText_eq]
  simp only [List.append_assoc]
  refine Closed.append (fun d hd => ?_) ?_
  · exact not_isQuote_of (p := isFieldChar) rfl rfl (h.field.chars d hd)
  · refine Closed.append hspace (Closed.append (fun d hd => ((operator_text _ h.operator).1 d hd).1) ?_)
    exact Closed.append hspace (closed_literalText h.literal hrest)

theorem uncut_comparison {field : List Char} (hfield : ∀ c ∈ field, isFieldChar c = true) {o : Operator}
    (ho : o ∈ Operator.all.map (·.2)) {cs rest : List Char} (hcs : Uncut ([' '] ++ cs) rest) :
    Uncut (field ++ ([' '] ++ (o.text.toList ++ ([' '] ++ cs)))) rest := by
  obtain ⟨hchars, hfree⟩ := operator_text o ho
  have hspace : ' ' ∉ field := fun hin => by cases hfield ' ' hin
  have hoperator : ' ' ∉ o.text.toList := fun hin => (hchars ' ' hin).2 rfl
  refine uncut_append.mpr ⟨uncut_of_not_mem hspace _, uncut_append.mpr ⟨?_, ?_⟩⟩
  · rw [List.append_assoc]
    exact uncut_space hfree (atBreak_space _)
  · exact uncut_append.mpr ⟨uncut_of_not_mem hoperator _, hcs⟩

theorem uncut_conditionText {c : Condition} (h : c.IsWritable) {rest : List Char} (hbreak : AtBreak rest)
    (hrest : Closed rest) : Uncut (conditionText c) rest := by
  rw [conditionText_eq]
  exact uncut_comparison h.field.chars h.operator (uncut_literalText h.literal hbreak hrest)

/-! ## All conditions of a clause -/

theorem not_isQuote_and : ∀ d ∈ [' ', 'A', 'N', 'D', ' '], isQuote d = false := by decide

def joined (conditions : List Condition) : List Char := Text.joinWith " AND ".toList (conditions.map conditionText)

theorem joined_cons (c : Condition) {conditions : List Condition} (hne : conditions ≠ []) :
    joined (c :: conditions) = conditionText c ++ (' ' :: (['A', 'N', 'D'] ++ ' ' :: joined conditions)) := by
  have hand : " AND ".toList = [' ', 'A', 'N', 'D', ' '] := rfl
  have hmap : conditions.map conditionText ≠ [] := by simpa using hne
  rw [joined, List.map_cons, Text.joinWith_cons _ _ hmap, hand]
  simp [joined]

theorem closed_joined : ∀ {conditions : List Condition}, (∀ c ∈ conditions, c.IsWritable) → Closed (joined conditions)
  | [], _ => closed_nil
  | [c], h => by
    have hone := closed_conditionText (h c (List.mem_cons_self ..)) closed_nil
    rwa [List.append_nil] at hone
  | c :: next :: conditions, h => by
    have ih : Closed (joined (next :: conditions)) := closed_joined fun d hd => h d (List.mem_cons_of_mem _ hd)
    rw [joined_cons c (List.cons_ne_nil next conditions)]
    exact closed_conditionText (h c (List.mem_cons_self ..)) (ih.append not_isQuote_and)

theorem splitTexts_joined : ∀ {conditions : List Condition}, conditions ≠ [] → (∀ c ∈ conditions, c.IsWritable) →
    splitTexts (joined conditions) = conditions.map conditionText
  | [], hne, _ => absurd rfl hne
  | [c], _, h => by
    have hcut := uncut_conditionText (h c (List.mem_cons_self ..)) atBreak_nil closed_nil
    have hsplit := splitTexts_append hcut (show splitTexts [] = [[]] from rfl)
    rwa [List.append_nil] at hsplit
  | c :: next :: conditions, _, h => by
    have hnext : ∀ d ∈ next :: conditions, d.IsWritable := fun d hd => h d (List.mem_cons_of_mem _ hd)
    have ih := splitTexts_joined (List.cons_ne_nil next conditions) hnext
    have hclosed := closed_joined hnext
    -- all quotes behind the `AND` are closed, so it stands outside of quotes
    have hhere : splitHere? (' ' :: (['A', 'N', 'D'] ++ ' ' :: joined (next :: conditions))) =
        some (joined (next :: conditions)) := by
      rw [splitHere?, afterSpacedWord?, afterWord?_of_reads (by decide)]
      simp [hclosed.outside]
    have hcut := uncut_conditionText (h c (List.mem_cons_self ..)) (atBreak_space _) (hclosed.append not_isQuote_and)
    rw [joined_cons c (List.cons_ne_nil next conditions)]
    have hsplit := splitTexts_append hcut (splitTexts_of_some hhere)
    rw [List.append_nil, ih] at hsplit
    exact hsplit

theorem mapM_parseCondition : ∀ {conditions : List Condition}, (∀ c ∈ conditions, c.IsWritable) →
    (conditions.map conditionText).mapM (parseCondition ∘ Text.trim) = .ok conditions
  | [], _ => rfl
  | c :: conditions, h => by
    have hc := h c (List.mem_cons_self ..)
    have ih := mapM_parseCondition fun d hd => h d (List.mem_cons_of_mem _ hd)
    have hparse : (parseCondition ∘ Text.trim) (conditionText c) = .ok c := by
      have hdigits : checkDigits (literalDigits (conditionText c) c.literal) = .ok () := by
        rw [conditionText]
        exact checkDigits_literalText _ hc.literal
      rw [Function.comp_apply, Text.trim_of_tight (isPart_conditionText hc).tight, parseCondition,
        condition?_conditionText hc]
      dsimp only
      rw [hdigits]
      rfl
    rw [List.map_cons, List.mapM_cons, hparse, ih]
    rfl

end NoteQuery.Query

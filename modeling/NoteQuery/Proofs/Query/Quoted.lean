import Mathlib
import NoteQuery.Proofs.Fallible
import NoteQuery.Proofs.Query.Phrase
import NoteQuery.Proofs.Query.Split

/-!
# Quoted texts in conditions

What is read of a query whose one condition compares a field with a quoted text. The text is opaque
just if nothing in it is read as a clause. If a clause keyword stands behind a space in it, the
condition is cut there, and with one quote left to it the query is refused.
-/

namespace NoteQuery.Query

open NoteQuery.Text (isWord isFieldChar isBlank afterKeyword? Tight)

/-! ## One quote is never closed -/

theorem not_mem_of_countP_eq_zero {cs : List Char} (h : cs.countP isQuote = 0) : ∀ c ∈ cs, isQuote c = false := by
  intro c hc
  simpa using List.countP_eq_zero.mp h c hc

theorem countP_isQuote_of {cs : List Char} (h : ∀ c ∈ cs, isQuote c = false) : cs.countP isQuote = 0 :=
  List.countP_eq_zero.mpr fun c hc => by simp [h c hc]

theorem literal?_of_one_quote {cs : List Char} (h : cs.countP isQuote = 1) : literal? cs = none := by
  have hunquoted : unquoted? cs = none := by
    cases cs with
    | nil => rfl
    | cons q cs =>
      refine if_neg fun hboth => ?_
      obtain ⟨hq, hlast⟩ := Bool.and_eq_true_iff.mp hboth
      rw [List.countP_cons_of_pos hq, Nat.add_eq_right] at h
      have hmem := List.mem_of_getLast? (eq_of_beq hlast)
      rw [not_mem_of_countP_eq_zero h q hmem] at hq
      cases hq
  have hbare : cs.all isBareChar = false := by
    obtain ⟨c, hc, hquote⟩ := List.countP_pos_iff.mp (h ▸ Nat.one_pos : 0 < cs.countP isQuote)
    refine List.all_eq_false.mpr ⟨c, hc, fun hbarechar => ?_⟩
    rw [not_isQuote_of (p := isBareChar) rfl rfl hbarechar] at hquote
    cases hquote
  rw [literal?, hunquoted, hbare]
  simp

theorem countP_dropSpace (cs : List Char) : (dropSpace cs).countP isQuote = cs.countP isQuote := by
  unfold dropSpace
  split
  · rfl
  · rfl

theorem comparison?_of_one_quote (before : Char) {cs : List Char} (h : cs.countP isQuote = 1) :
    comparison? before cs = none := by
  -- whatever stands before the literal has no quote, so the literal is left with one that nothing closes
  have hliteral : ∀ {head rest : List Char}, cs = head ++ rest → (∀ c ∈ head, isQuote c = false) →
      literal? (dropSpace rest) = none := by
    rintro head rest rfl hhead
    refine literal?_of_one_quote ?_
    rw [countP_dropSpace]
    rwa [List.countP_append, countP_isQuote_of hhead, Nat.zero_add] at h
  have hsigns : ∀ sign ∈ signs, ∀ c ∈ sign, isQuote c = false := by decide
  have hsigned : (signs.findSome? fun sign => ((Text.after? sign cs).bind (literal? ∘ dropSpace)).map
      fun value => (Operator.ofText (String.ofList sign), value)) = none := by
    refine List.findSome?_eq_none_iff.mpr fun sign hsign => ?_
    cases hafter : Text.after? sign cs with
    | none => rfl
    | some rest =>
      rw [Option.bind_some, Function.comp_apply, hliteral (Text.after?_eq_some_iff.mp hafter) (hsigns sign hsign)]
      rfl
  rw [comparison?, hsigned]
  cases hword : afterKeyword? "contains".toList cs with
  | none => rfl
  | some rest =>
    obtain ⟨run, happ, hread⟩ := exists_reads hword
    have hrun : ∀ c ∈ run, isQuote c = false := fun c hc =>
      not_isQuote_of (p := isWord) rfl rfl (isWord_of_reads (by decide) hread c hc)
    simp [hliteral happ hrun]

theorem conditionFrom?_of_one_quote : ∀ {taken rest : List Char}, (∀ c ∈ taken, isQuote c = false) →
    rest.countP isQuote = 1 → conditionFrom? taken rest = none
  | [], _, _, _ => rfl
  | c :: taken, rest, htaken, h => by
    obtain ⟨hc, htail⟩ := List.forall_mem_cons.mp htaken
    have hnext : (c :: rest).countP isQuote = 1 := by
      rw [List.countP_cons_of_neg (by simp [hc]), h]
    have ih := conditionFrom?_of_one_quote htail hnext
    cases rest with
    | nil => cases h
    | cons d rest =>
      by_cases hd : d = ' '
      · subst hd
        have hmore : rest.countP isQuote = 1 := by rwa [List.countP_cons_of_neg (by decide)] at h
        simp only [conditionFrom?, comparison?_of_one_quote ' ' hmore, ih]
      · simp [conditionFrom?, hd, comparison?_of_one_quote c h, ih]

theorem condition?_of_one_quote {cs : List Char} (h : cs.countP isQuote = 1) : condition? cs = none := by
  have hfield : ∀ c ∈ cs.takeWhile isFieldChar, isQuote c = false := fun c hc =>
    not_isQuote_of (p := isFieldChar) rfl rfl (List.all_eq_true.mp List.all_takeWhile c hc)
  rw [condition?, Text.span_eq]
  refine conditionFrom?_of_one_quote (fun c hc => hfield c (List.mem_reverse.mp hc)) ?_
  have hsplit := List.takeWhile_append_dropWhile (p := isFieldChar) (l := cs)
  rw [← hsplit, List.countP_append, countP_isQuote_of hfield, Nat.zero_add] at h
  exact h

theorem countP_trim (cs : List Char) : (Text.trim cs).countP isQuote = cs.countP isQuote := by
  have hdrop : ∀ cs : List Char, (cs.dropWhile isBlank).countP isQuote = cs.countP isQuote := by
    intro cs
    induction cs with
    | nil => rfl
    | cons c cs ih =>
      cases hc : isBlank c with
      | true =>
        have hquote := not_isQuote_of (p := isBlank) rfl rfl hc
        rw [List.dropWhile_cons_of_pos hc, ih, List.countP_cons_of_neg (by simp [hquote])]
      | false => rw [List.dropWhile_cons_of_neg (by simp [hc])]
  rw [Text.trim, Text.dropFinalBlanks, List.countP_reverse, hdrop, List.countP_reverse, Text.dropBlanks, hdrop]

theorem splitTexts_ne_nil : ∀ cs : List Char, splitTexts cs ≠ []
  | [] => List.cons_ne_nil _ _
  | c :: cs => by
    rw [splitTexts, List.length_cons, splitAnd]
    split
    · exact List.cons_ne_nil _ _
    · split <;> exact List.cons_ne_nil _ _

/-- An `AND` takes no quote away. -/
theorem sum_splitTexts : ∀ cs : List Char,
    ((splitTexts cs).map (·.countP isQuote)).sum = cs.countP isQuote := by
  intro cs
  -- a separator takes several characters at once, so the induction is on the length
  induction hlen : cs.length using Nat.strong_induction_on generalizing cs with
  | _ n ih =>
    subst hlen
    cases cs with
    | nil => rfl
    | cons c cs =>
      cases hhere : splitHere? (c :: cs) with
      | some rest =>
        have hrest := ih rest.length (length_of_splitHere? hhere) rest rfl
        obtain ⟨run, heq, hread, -⟩ := exists_splitHere? hhere
        have hrun : ∀ d ∈ run, isQuote d = false := fun d hd =>
          not_isQuote_of (p := isWord) rfl rfl (isWord_of_reads (by decide) hread d hd)
        rw [splitTexts_of_some hhere, List.map_cons, List.sum_cons, hrest, heq, List.countP_cons_of_neg (by decide),
          List.countP_append, countP_isQuote_of hrun, List.countP_cons_of_neg (by decide)]
        rfl
      | none =>
        have hcs := ih cs.length (Nat.lt_succ_self _) cs rfl
        obtain ⟨piece, pieces, hpieces⟩ := List.exists_cons_of_ne_nil (splitTexts_ne_nil cs)
        rw [hpieces, List.map_cons, List.sum_cons] at hcs
        rw [splitTexts_of_none hhere hpieces, List.map_cons, List.sum_cons, List.countP_cons, List.countP_cons, ← hcs,
          Nat.add_right_comm]

theorem parseConditions_of_first {texts : List (List Char)} {piece : List Char} {pieces : List (List Char)}
    (htexts : texts.flatMap splitTexts = piece :: pieces) (hnone : condition? (Text.trim piece) = none) :
    (texts.flatMap splitTexts).mapM (parseCondition ∘ Text.trim) =
      .error (.condition (String.ofList (Text.trim piece))) := by
  rw [htexts, List.mapM_cons, Function.comp_apply, parseCondition, hnone]
  rfl

/-! ## Where a clause ends -/

/-- Behind a space of the text stands a whole word that is read as a clause keyword. -/
def EndsClause (cs : List Char) : Prop :=
  ∃ before word after, cs = before ++ ' ' :: (word ++ after) ∧ (∃ keyword ∈ clauseKeywords, Reads keyword word) ∧
    wordEnds after = true

theorem clauseEnds_cons_iff {c : Char} {cs : List Char} : clauseEnds (c :: cs) = true ↔
    c = ' ' ∧ ∃ word after, cs = word ++ after ∧ (∃ keyword ∈ clauseKeywords, Reads keyword word) ∧
      wordEnds after = true := by
  rw [clauseEnds, Bool.and_eq_true_iff, beq_iff_eq, List.any_eq_true]
  refine and_congr_right fun _ => ?_
  constructor
  · rintro ⟨keyword, hmem, hends⟩
    split at hends
    · rename_i after hafter
      obtain ⟨word, rfl, hread⟩ := exists_reads hafter
      exact ⟨word, after, rfl, ⟨keyword, hmem, hread⟩, hends⟩
    · cases hends
  · rintro ⟨word, after, rfl, ⟨keyword, hmem, hread⟩, hends⟩
    refine ⟨keyword, hmem, ?_⟩
    rw [afterKeyword?_of_reads hread]
    exact hends

theorem endsClause_cons_iff {c : Char} {cs : List Char} :
    EndsClause (c :: cs) ↔ clauseEnds (c :: cs) = true ∨ EndsClause cs := by
  rw [clauseEnds_cons_iff]
  constructor
  · rintro ⟨before, word, after, happ, hread, hends⟩
    cases before with
    | nil =>
      obtain ⟨rfl, rfl⟩ := List.cons.inj happ
      exact Or.inl ⟨rfl, word, after, rfl, hread, hends⟩
    | cons d before =>
      obtain ⟨rfl, rfl⟩ := List.cons.inj happ
      exact Or.inr ⟨before, word, after, rfl, hread, hends⟩
  · rintro (⟨rfl, word, after, rfl, hread, hends⟩ | ⟨before, word, after, rfl, hread, hends⟩)
    · exact ⟨[], word, after, rfl, hread, hends⟩
    · exact ⟨c :: before, word, after, rfl, hread, hends⟩

theorem not_endsClause_nil : ¬EndsClause [] := by
  rintro ⟨before, word, after, happ, -⟩
  cases before <;> cases happ

theorem untilClause_snd_eq_nil_iff : ∀ {cs : List Char}, (untilClause cs).2 = [] ↔ ¬EndsClause cs
  | [] => iff_of_true rfl not_endsClause_nil
  | c :: cs => by
    rw [endsClause_cons_iff, untilClause]
    cases hends : clauseEnds (c :: cs) with
    | true => simp
    | false =>
      have ih := @untilClause_snd_eq_nil_iff cs
      simpa using ih

theorem endsClause_quote {cs : List Char} : EndsClause (cs ++ ['"']) ↔ EndsClause cs := by
  constructor
  · rintro ⟨before, word, after, happ, ⟨keyword, hmem, hread⟩, hends⟩
    rcases List.eq_nil_or_concat after with rfl | ⟨more, d, rfl⟩
    · -- the word would have to end with the quote
      have hlast : (before ++ ' ' :: (word ++ [])).getLast? = some '"' := by rw [← happ, List.getLast?_concat]
      have hin := isWord_of_reads (isKeyword_of_clauseKeywords keyword hmem) hread
      rw [List.append_nil, List.getLast?_append, List.getLast?_cons] at hlast
      cases hword : word.getLast? with
      | none => simp [hword] at hlast
      | some d =>
        obtain rfl : d = '"' := by simpa [hword] using hlast
        cases hin '"' (List.mem_of_getLast? hword)
    · have hsplit : cs ++ ['"'] = (before ++ ' ' :: (word ++ more)) ++ [d] := by simpa using happ
      obtain ⟨rfl, hd⟩ := List.append_inj' hsplit rfl
      obtain rfl : d = '"' := (List.cons.inj hd).1.symm
      rw [List.concat_eq_append, wordEnds_quote] at hends
      exact ⟨before, word, more, rfl, ⟨keyword, hmem, hread⟩, hends⟩
  · rintro ⟨before, word, after, rfl, hread, hends⟩
    exact ⟨before, word, after ++ ['"'], by simp, hread, by rwa [wordEnds_quote]⟩

/-! ## A query with one condition -/

/-- No word of the field is read as a clause keyword, and the text has no quotes and no blanks but single
spaces. -/
structure IsComparison (field : String) (o : Operator) (s : String) : Prop where
  ne_nil : field.toList ≠ []
  chars : ∀ c ∈ field.toList, isFieldChar c = true
  free : Free clauseKeywords field.toList
  operator : o ∈ Operator.all.map (·.2)
  unquoted : ∀ c ∈ s.toList, isQuote c = false
  spaced : Text.SingleSpaced s.toList

def listWhere (field : String) (o : Operator) (s : String) : String :=
  "LIST WHERE " ++ field ++ " " ++ o.text ++ " \"" ++ s ++ "\""

def otherKeywords : List (List Char) := ["from", "flatten", "group", "sort", "limit"].map String.toList

theorem mem_clauseKeywords_of_other : ∀ keyword ∈ otherKeywords, keyword ∈ clauseKeywords := by decide

theorem isKeyword_of_otherKeywords : ∀ keyword ∈ otherKeywords, IsKeyword keyword := fun keyword hmem =>
  isKeyword_of_clauseKeywords keyword (mem_clauseKeywords_of_other keyword hmem)

theorem free_operator {o : Operator} (ho : o ∈ Operator.all.map (·.2)) : Free clauseKeywords o.text.toList :=
  (isPart_operator ho).free.mono fun _ => List.mem_cons_of_mem _

/-! ### One comparison -/

section
variable {cs : List Char}

theorem squeeze_of_comparison (h : Tight cs) :
    Text.squeeze (['L', 'I', 'S', 'T'] ++ ' ' :: (['W', 'H', 'E', 'R', 'E'] ++ ' ' :: cs)) =
      ['L', 'I', 'S', 'T'] ++ ' ' :: (['W', 'H', 'E', 'R', 'E'] ++ ' ' :: cs) := by
  have hword : ∀ word : List Char, (∀ c ∈ word, isWord c = true) → word ≠ [] → Tight word := fun word hchars hne =>
    Tight.of_not_blank (fun c hc => Text.not_isBlank_of_isWord (hchars c hc)) hne
  refine Text.squeeze_of_tight (Tight.space (hword _ (by decide) (by decide)) ?_)
  exact Tight.space (hword _ (by decide) (by decide)) h

theorem whereTexts_of_comparison {found : List Char × List Char} (h : freeClause? cs = some found) :
    whereTexts (['L', 'I', 'S', 'T'] ++ ' ' :: (['W', 'H', 'E', 'R', 'E'] ++ ' ' :: cs)) =
      found.1 :: whereTexts found.2 := by
  have hclause : whereClause? (['W', 'H', 'E', 'R', 'E'] ++ ' ' :: cs) = some found := by
    rw [whereClause?, afterWord?_of_reads (by decide), Option.bind_some, h]
  have hsearch := search_of_some hclause
  rw [← search_space whereClause?_ledBy (by decide), ← search_append_of_free whereClause?_ledBy (by decide)
    (show Free ["where".toList] ['L', 'I', 'S', 'T'] by decide) (atBreak_space _)] at hsearch
  rw [whereTexts_eq, hsearch]

theorem parseConditions_of_comparison {text : List Char} {c : Condition} (htexts : whereTexts text = [cs])
    (hsplit : splitTexts cs = [cs]) (htight : Tight cs) (hparse : parseCondition cs = .ok c) :
    parseConditions text = .ok [c] := by
  show ((whereTexts text).flatMap splitTexts).mapM (parseCondition ∘ Text.trim) = _
  rw [htexts, List.flatMap_singleton, hsplit, List.mapM_cons, List.mapM_nil, Function.comp_apply,
    Text.trim_of_tight htight, hparse]
  rfl

variable {field : String} {o : Operator} (hne : field.toList ≠ []) (hchars : ∀ c ∈ field.toList, isFieldChar c = true)
variable (ho : o ∈ Operator.all.map (·.2))
include hne hchars ho

theorem tight_of_literal (h : Tight cs) : Tight (field.toList ++ ' ' :: o.text.toList ++ ' ' :: cs) := by
  have hfield : Tight field.toList :=
    Tight.of_not_blank (fun c hc => Text.not_isBlank_of_isFieldChar (hchars c hc)) hne
  exact (hfield.space (isPart_operator ho).tight).space h

theorem parseCondition_of_literal? {v : Value} (h : literal? cs = some v)
    (hshort : checkDigits (literalDigits (field.toList ++ ' ' :: o.text.toList ++ ' ' :: cs) v) = .ok ()) :
    parseCondition (field.toList ++ ' ' :: o.text.toList ++ ' ' :: cs) = .ok ⟨field, o, v⟩ := by
  have hfound := condition?_of_literal? ho h hne hchars
  rw [← List.cons_append, ← List.append_assoc] at hfound
  rw [parseCondition, hfound]
  dsimp only
  rw [hshort]
  rfl

end

theorem toList_listWhere (field : String) (o : Operator) (s : String) : (listWhere field o s).toList =
    ['L', 'I', 'S', 'T'] ++ ' ' :: (['W', 'H', 'E', 'R', 'E'] ++ ' ' ::
      (field.toList ++ ' ' :: o.text.toList ++ ' ' :: quoted s)) := by
  show ("LIST WHERE " ++ field ++ " " ++ o.text ++ " \"" ++ s ++ "\"").toList = _
  simp [quoted]

section
variable {field : String} {o : Operator} {s : String} (h : IsComparison field o s)
include h

theorem tight_comparison : Tight (field.toList ++ ' ' :: o.text.toList ++ ' ' :: quoted s) :=
  tight_of_literal h.ne_nil h.chars h.operator (Tight.enclosed rfl rfl h.spaced)

theorem squeeze_listWhere : Text.squeeze (listWhere field o s).toList = (listWhere field o s).toList := by
  rw [toList_listWhere]
  exact squeeze_of_comparison (tight_comparison h)

/-! ### Other clauses -/

theorem search_listWhere {α : Type} {f : List Char → Option α} {keyword : List Char} (hf : LedBy keyword f)
    (hmem : keyword ∈ otherKeywords) : search f (listWhere field o s).toList = search f (s.toList ++ ['"']) := by
  have hk := isKeyword_of_otherKeywords keyword hmem
  have hfield : Free otherKeywords field.toList := h.free.mono mem_clauseKeywords_of_other
  have hoperator : Free otherKeywords o.text.toList := (free_operator h.operator).mono mem_clauseKeywords_of_other
  have hbefore : Free otherKeywords (['L', 'I', 'S', 'T'] ++ ' ' :: (['W', 'H', 'E', 'R', 'E'] ++ ' ' ::
      (field.toList ++ ' ' :: o.text.toList))) := by
    refine (free_append_cons isWord_space _ _).mpr ⟨by decide, (free_append_cons isWord_space _ _).mpr ⟨by decide, ?_⟩⟩
    exact (free_append_cons isWord_space _ _).mpr ⟨hfield, hoperator⟩
  have htext : (listWhere field o s).toList = (['L', 'I', 'S', 'T'] ++ ' ' :: (['W', 'H', 'E', 'R', 'E'] ++ ' ' ::
      (field.toList ++ ' ' :: o.text.toList))) ++ ' ' :: '"' :: (s.toList ++ ['"']) := by
    rw [toList_listWhere, quoted]
    simp
  have hquote : f ('"' :: (s.toList ++ ['"'])) = none := hf.eq_none_of_not_isWord hk fun c hc => by
    rw [← Option.mem_some.mp hc]
    rfl
  rw [htext, search_append_of_free hf hk (hbefore.mono (by simpa using hmem)) (atBreak_space _), search_space hf hk,
    search, searchFrom_of_none none hquote, searchFrom_of_not_isWord rfl]

omit h in
theorem folderClause?_of_one_quote {cs : List Char} (hone : cs.countP isQuote ≤ 1) : folderClause? cs = none := by
  unfold folderClause?
  split
  · rename_i inside hafter
    obtain ⟨word, rfl, -⟩ := exists_reads_of_afterWord? hafter
    split
    · rename_i path rest hrun
      obtain ⟨rfl, -⟩ := exists_append_of_run? hrun
      -- a folder would need both its quotes
      simp only [List.countP_append, List.countP_cons, show isQuote '"' = true from rfl, if_true] at hone
      omega
    · rfl
  · rfl

theorem search_folder_listWhere : search folderClause? (listWhere field o s).toList = none := by
  rw [search_listWhere h folderClause?_ledBy (by decide)]
  refine searchFrom_eq_none_iff.mpr fun after hstart => folderClause?_of_one_quote ?_
  refine (hstart.suffix.sublist.countP_le (p := isQuote)).trans ?_
  rw [List.countP_append, countP_isQuote_of h.unquoted]
  decide

theorem search_closed {α : Type} {f : List Char → Option α} {keyword : List Char} (hf : LedBy keyword f)
    (hmem : keyword ∈ otherKeywords) (hquote : ∀ cs, f (cs ++ ['"']) = f cs) :
    search f (listWhere field o s).toList = search f s.toList := by
  have hk := isKeyword_of_otherKeywords keyword hmem
  rw [search_listWhere h hf hmem]
  exact search_quote hf hk hquote s.toList none

/-! ### Conditions -/

omit h in
theorem untilClause_open_quote (cs : List Char) :
    untilClause (' ' :: '"' :: cs) = (' ' :: '"' :: (untilClause cs).1, (untilClause cs).2) := by
  have hspace : clauseEnds (' ' :: '"' :: cs) = false := rfl
  have hquote : clauseEnds ('"' :: cs) = false := rfl
  rw [untilClause, hspace, untilClause, hquote]
  rfl

theorem freeClause?_comparison : freeClause? (field.toList ++ ' ' :: o.text.toList ++ ' ' :: quoted s) =
    some (field.toList ++ ' ' :: o.text.toList ++ ' ' :: '"' :: (untilClause (s.toList ++ ['"'])).1,
      (untilClause (s.toList ++ ['"'])).2) := by
  have hfree := (free_append_cons isWord_space field.toList o.text.toList).mpr ⟨h.free, free_operator h.operator⟩
  obtain ⟨c, rest, hfield⟩ := List.exists_cons_of_ne_nil h.ne_nil
  rw [hfield] at hfree ⊢
  have huntil := untilClause_append_of_free (atBreak_space ('"' :: (s.toList ++ ['"']))) (rest ++ ' ' :: o.text.toList) [c]
    hfree
  rw [untilClause_open_quote] at huntil
  rw [quoted, List.cons_append, List.cons_append, freeClause?, List.cons_append, huntil]
  rfl

theorem whereTexts_listWhere : whereTexts (listWhere field o s).toList =
    (field.toList ++ ' ' :: o.text.toList ++ ' ' :: '"' :: (untilClause (s.toList ++ ['"'])).1) ::
      whereTexts (untilClause (s.toList ++ ['"'])).2 := by
  rw [toList_listWhere]
  exact whereTexts_of_comparison (freeClause?_comparison h)

theorem parseConditions_of_endsClause (hends : EndsClause s.toList) :
    ∃ part, parseConditions (listWhere field o s).toList = .error (.condition part) := by
  have htexts := whereTexts_listWhere h
  have hrest : (untilClause (s.toList ++ ['"'])).2 ≠ [] := fun hnil =>
    untilClause_snd_eq_nil_iff.mp hnil (endsClause_quote.mpr hends)
  have hsplit := untilClause_append (s.toList ++ ['"'])
  have hinside : ∀ c ∈ (untilClause (s.toList ++ ['"'])).1, isQuote c = false := by
    obtain ⟨front, d, hconcat⟩ := (List.eq_nil_or_concat (untilClause (s.toList ++ ['"'])).2).resolve_left hrest
    rw [hconcat, List.concat_eq_append, ← List.append_assoc] at hsplit
    have hfront := (List.append_inj' hsplit rfl).1
    intro c hc
    exact h.unquoted c (by rw [← hfront]; exact List.mem_append_left _ hc)
  have hfield : ∀ c ∈ field.toList, isQuote c = false := fun c hc =>
    not_isQuote_of (p := isFieldChar) rfl rfl (h.chars c hc)
  have hoperator : ∀ c ∈ o.text.toList, isQuote c = false := fun c hc => ((operator_text o h.operator).1 c hc).1
  generalize (untilClause (s.toList ++ ['"'])).1 = inside at hinside htexts
  obtain ⟨piece, pieces, hpieces⟩ := List.exists_cons_of_ne_nil (splitTexts_ne_nil inside)
  -- the first piece holds the quote, whatever `AND` stands behind it
  have hcut := uncut_comparison h.chars h.operator
    (show Uncut ([' '] ++ ['"']) inside from ⟨rfl, splitHere?_of_ne (by decide) _, trivial⟩)
  have hsplit := splitTexts_append hcut hpieces
  have hsum := sum_splitTexts (field.toList ++ ([' '] ++ (o.text.toList ++ ([' '] ++ ['"']))) ++ inside)
  rw [hsplit, List.map_cons, List.sum_cons] at hsum
  simp only [List.countP_append, countP_isQuote_of hfield, countP_isQuote_of hoperator,
    countP_isQuote_of hinside] at hsum
  have hone : (field.toList ++ ([' '] ++ (o.text.toList ++ ([' '] ++ ['"']))) ++ piece).countP isQuote = 1 := by
    simp only [List.countP_append, countP_isQuote_of hfield, countP_isQuote_of hoperator]
    have hquote : List.countP isQuote [' '] = 0 ∧ List.countP isQuote ['"'] = 1 := by decide
    omega
  have hwhole : field.toList ++ ' ' :: o.text.toList ++ ' ' :: '"' :: inside =
      field.toList ++ ([' '] ++ (o.text.toList ++ ([' '] ++ ['"']))) ++ inside := by simp
  rw [hwhole] at htexts
  have hfirst : (whereTexts (listWhere field o s).toList).flatMap splitTexts =
      (field.toList ++ ([' '] ++ (o.text.toList ++ ([' '] ++ ['"']))) ++ piece) ::
        (pieces ++ (whereTexts (untilClause (s.toList ++ ['"'])).2).flatMap splitTexts) := by
    rw [htexts, List.flatMap_cons, hsplit]
    rfl
  exact ⟨_, parseConditions_of_first hfirst (condition?_of_one_quote ((countP_trim _).trans hone))⟩

theorem parseConditions_of_not_endsClause (hends : ¬EndsClause s.toList) :
    parseConditions (listWhere field o s).toList = .ok [⟨field, o, .text s⟩] := by
  have hrest : (untilClause (s.toList ++ ['"'])).2 = [] :=
    untilClause_snd_eq_nil_iff.mpr fun hquote => hends (endsClause_quote.mp hquote)
  have hinside := untilClause_append (s.toList ++ ['"'])
  rw [hrest, List.append_nil] at hinside
  have htexts := whereTexts_listWhere h
  rw [hrest, hinside] at htexts
  have hcut := uncut_comparison h.chars h.operator (uncut_quoted h.unquoted closed_nil)
  have hsplit := splitTexts_append hcut (show splitTexts [] = [[]] from rfl)
  have hparse := parseCondition_of_literal? h.ne_nil h.chars h.operator (literal?_quoted s) rfl
  have hone : splitTexts (field.toList ++ ' ' :: o.text.toList ++ ' ' :: quoted s) =
      [field.toList ++ ' ' :: o.text.toList ++ ' ' :: quoted s] := by
    simpa using hsplit
  exact parseConditions_of_comparison htexts hone (tight_comparison h) hparse

/-! ### The query -/

omit h in
theorem parseHead_listWhere (field : String) (o : Operator) (s : String) :
    parseHead (listWhere field o s).toList = .ok { kind := .list } := by
  rw [toList_listWhere]
  rfl

theorem limitDigits_listWhere :
    search limitDigits? (listWhere field o s).toList = search limitDigits? s.toList :=
  search_closed h limitDigits?_ledBy (by decide) limitDigits?_quote

theorem parse_of_hasLongLimit (hlong : HasLongLimit s.toList) :
    ∃ n, parse (listWhere field o s) = .error (.digits n) := by
  obtain ⟨-, n, hfault⟩ := (checkDigits_limit s.toList).resolve_right fun hshort => hshort.1 hlong
  refine ⟨n, ?_⟩
  rw [parse, squeeze_listWhere h, parseChars, parseHead_listWhere, limitDigits_listWhere h, hfault]
  rfl

section
variable (hshort : ¬HasLongLimit s.toList)
include hshort

theorem parse_of_endsClause (hends : EndsClause s.toList) :
    ∃ part, parse (listWhere field o s) = .error (.condition part) := by
  obtain ⟨part, hpart⟩ := parseConditions_of_endsClause h hends
  obtain ⟨-, hlimit⟩ := (checkDigits_limit s.toList).resolve_left fun hlong => hshort hlong.1
  refine ⟨part, ?_⟩
  rw [parse, squeeze_listWhere h, parseChars, parseHead_listWhere, limitDigits_listWhere h, hlimit, hpart]
  rfl

/-- Where the condition is whole, the clauses read are those that the text itself would be searched for. -/
theorem parse_of_not_endsClause (hends : ¬EndsClause s.toList) : parse (listWhere field o s) = .ok {
    kind := .list
    source := search tagClause? s.toList
    conditions := [⟨field, o, .text s⟩]
    flatten := search flattenClause? s.toList
    groupBy := search groupClause? s.toList
    sort := (search sortClause? s.toList).map fun (target, direction) => ⟨sortKey none target, direction⟩
    limit := ((search limitClause? s.toList).filter (0 < ·)).map fun n : Nat => .count n } := by
  have hfolder := search_folder_listWhere h
  have htag := search_closed h tagClause?_ledBy (by decide) tagClause?_quote
  have hflatten := search_closed h flattenClause?_ledBy (by decide) flattenClause?_quote
  have hgroup := search_closed h groupClause?_ledBy (by decide) groupClause?_quote
  have hsort := search_closed h sortClause?_ledBy (by decide) sortClause?_quote
  have hlimit : search limitClause? (listWhere field o s).toList = search limitClause? s.toList := by
    rw [search_limitClause?, search_limitClause?, limitDigits_listWhere h]
  obtain ⟨-, hdigits⟩ := (checkDigits_limit s.toList).resolve_left fun hlong => hshort hlong.1
  rw [parse, squeeze_listWhere h, parseChars, parseHead_listWhere, limitDigits_listWhere h, hdigits,
    parseConditions_of_not_endsClause h hends, parseSource, hfolder, htag, hflatten, hgroup, hsort, hlimit]
  cases (search limitClause? s.toList).filter (0 < ·) <;> rfl

end

end

example : (parse (listWhere "a" .equal "LIMIT 3")).toOption.bind (·.limit) = some (.count 3) := by decide +kernel

/-! ## Opaque texts -/

/-- Nothing in the text is read as a clause. A limit is harmless behind a limit of zero. -/
structure IsOpaque (cs : List Char) : Prop where
  readable : ¬HasLongLimit cs
  uncut : ¬EndsClause cs
  unphrased : ∀ after, WordStart none cs after → ¬Phrase after
  unlimited : ∀ after n, WordStart none cs after → LimitsTo n after → 0 < n →
    ∃ earlier, WordStart none cs earlier ∧ after.length < earlier.length ∧ LimitsTo 0 earlier

/-- A quoted text is read as it stands just if it is opaque. -/
theorem parse_listWhere {field : String} {o : Operator} {s : String} (h : IsComparison field o s) :
    (parse (listWhere field o s) = .ok { kind := .list, conditions := [⟨field, o, .text s⟩] } ↔ IsOpaque s.toList) ∧
    ((∃ n, parse (listWhere field o s) = .error (.digits n)) ↔ HasLongLimit s.toList) ∧
    ((∃ fault, parse (listWhere field o s) = .error fault ∧ fault.isSyntax = true) ↔
      EndsClause s.toList ∧ ¬HasLongLimit s.toList) := by
  -- the digits of a limit are checked before the conditions are read
  by_cases hlong : HasLongLimit s.toList
  · obtain ⟨n, hfault⟩ := parse_of_hasLongLimit h hlong
    rw [hfault]
    refine ⟨iff_of_false nofun fun hopaque => hopaque.readable hlong, iff_of_true ⟨n, rfl⟩ hlong,
      iff_of_false ?_ fun hcut => hcut.2 hlong⟩
    rintro ⟨fault, hsame, hsyntax⟩
    rw [← Except.error.inj hsame] at hsyntax
    cases hsyntax
  by_cases hends : EndsClause s.toList
  · obtain ⟨part, hfault⟩ := parse_of_endsClause h hlong hends
    rw [hfault]
    refine ⟨iff_of_false nofun fun hopaque => hopaque.uncut hends, iff_of_false ?_ hlong,
      iff_of_true ⟨_, rfl, rfl⟩ ⟨hends, hlong⟩⟩
    rintro ⟨n, hn⟩
    cases hn
  · have hparse := parse_of_not_endsClause h hlong hends
    refine ⟨⟨fun hok => ?_, fun hopaque => ?_⟩, iff_of_false ?_ hlong, iff_of_false ?_ fun hcut => hends hcut.1⟩
    · rw [hparse] at hok
      have hsame := Except.ok.inj hok
      have hphrases := forall_not_phrase_iff.mpr ⟨congrArg Query.source hsame, congrArg Query.flatten hsame,
        congrArg Query.groupBy hsame, Option.map_eq_none_iff.mp (congrArg Query.sort hsame)⟩
      have hlimits := filter_search_limit_eq_none_iff.mp (Option.map_eq_none_iff.mp (congrArg Query.limit hsame))
      exact ⟨hlong, hends, hphrases, hlimits⟩
    · obtain ⟨htag, hflatten, hgroup, hsort⟩ := forall_not_phrase_iff.mp hopaque.unphrased
      have hlimit := filter_search_limit_eq_none_iff.mpr hopaque.unlimited
      rw [hparse, htag, hflatten, hgroup, hsort, hlimit]
      rfl
    · rintro ⟨n, hfault⟩
      rw [hparse] at hfault
      cases hfault
    · rintro ⟨fault, hfault, -⟩
      rw [hparse] at hfault
      cases hfault

theorem isOpaque_of_free {cs : List Char} (h : Free clauseKeywords cs) : IsOpaque cs := by
  have hsearch : ∀ {α : Type} {f : List Char → Option α} {keyword : List Char}, LedBy keyword f →
      keyword ∈ clauseKeywords → search f cs = none := fun hf hmem =>
    search_of_free hf (isKeyword_of_clauseKeywords _ hmem) (h.mono (by simpa using hmem))
  have hlimit := hsearch limitDigits?_ledBy (by decide)
  refine ⟨?_, ?_, forall_not_phrase_iff.mpr ⟨?_, ?_, ?_, ?_⟩,
    filter_search_limit_eq_none_iff.mp (by rw [search_limitClause?, hlimit]; rfl)⟩
  · rw [hasLongLimit_iff, hlimit]
    rintro ⟨digits, hnone, -⟩
    cases hnone
  · rintro ⟨before, word, after, rfl, ⟨keyword, hmem, hread⟩, hends⟩
    -- a keyword in the middle of a word ends no clause
    have hword := ((free_append_cons isWord_space before (word ++ after)).mp h).2
    have hinside := wordEnds_of_free hword hmem (isKeyword_of_clauseKeywords keyword hmem) atBreak_nil
      (by rw [List.append_nil]; exact afterKeyword?_of_reads hread after)
    rw [hends] at hinside
    cases hinside
  · exact hsearch tagClause?_ledBy (by decide)
  · exact hsearch flattenClause?_ledBy (by decide)
  · exact hsearch groupClause?_ledBy (by decide)
  · exact hsearch sortClause?_ledBy (by decide)

theorem parse_saltAndPepper : IsComparison "title" .contains "Salt AND Pepper, limited" ∧
    parse (listWhere "title" .contains "Salt AND Pepper, limited") =
      .ok { kind := .list, conditions := [⟨"title", .contains, .text "Salt AND Pepper, limited"⟩] } := by
  have h : IsComparison "title" .contains "Salt AND Pepper, limited" :=
    ⟨by decide, by decide, by decide, by decide, by decide, by decide⟩
  exact ⟨h, (parse_listWhere h).1.mpr (isOpaque_of_free (by decide))⟩

/-- A clause keyword cuts a text behind a space. -/
theorem not_always_opaque : ¬∀ (field : String) (o : Operator) (s : String), IsComparison field o s →
    parse (listWhere field o s) = .ok { kind := .list, conditions := [⟨field, o, .text s⟩] } := by
  intro hall
  have h : IsComparison "a" .equal "x LIMIT 3" := ⟨by decide, by decide, by decide, by decide, by decide, by decide⟩
  have hends : EndsClause "x LIMIT 3".toList :=
    ⟨['x'], ['L', 'I', 'M', 'I', 'T'], [' ', '3'], by decide, ⟨"limit".toList, by decide, by decide⟩, by decide⟩
  have hshort : ¬HasLongLimit "x LIMIT 3".toList := by
    rw [hasLongLimit_iff]
    rintro ⟨digits, hfound, hlong⟩
    obtain rfl : ['3'] = digits := Option.some.inj (hfound ▸ by decide +kernel)
    exact absurd hlong (by decide)
  obtain ⟨part, hfault⟩ := parse_of_endsClause h hshort hends
  rw [hall "a" .equal "x LIMIT 3" h] at hfault
  cases hfault

end NoteQuery.Query

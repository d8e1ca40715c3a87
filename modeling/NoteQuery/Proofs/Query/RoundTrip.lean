import NoteQuery.Proofs.Fallible
import NoteQuery.Proofs.Text.Digits
import NoteQuery.Proofs.Query.Head
import NoteQuery.Proofs.Query.Split

/-!
# Queries read back from their texts

A text of a head and clauses is read as the head with these clauses. Each search tries its
recogniser once for each clause, and only clauses of its own kind are read. So a query is read back
from its text with the clauses in any order.
-/

namespace NoteQuery.Query

open NoteQuery.Text (isWord Tight)

/-! ## The text as a whole -/

def clausesText (clauses : List Clause) : List Char := clauses.flatMap fun c => ' ' :: c.text

theorem clausesText_cons (c : Clause) (clauses : List Clause) :
    clausesText (c :: clauses) = ' ' :: (c.text ++ clausesText clauses) := rfl

theorem textWith_eq (q : Query) (clauses : List Clause) : q.textWith clauses = q.headText ++ clausesText clauses := by
  have hjoin : ∀ (clauses : List Clause) (head : List Char),
      Text.joinWith [' '] (head :: clauses.map Clause.text) = head ++ clausesText clauses := by
    intro clauses
    induction clauses with
    | nil => intro head; exact (List.append_nil head).symm
    | cons c clauses ih =>
      intro head
      rw [List.map_cons, Text.joinWith_cons _ _ (List.cons_ne_nil _ _), ih, clausesText_cons]
      simp
  exact hjoin clauses q.headText

theorem atBreak_clausesText : ∀ clauses : List Clause, AtBreak (clausesText clauses)
  | [] => atBreak_nil
  | _ :: _ => atBreak_space _

theorem clauseEnds_clausesText : ∀ clauses : List Clause, clauseEnds (clausesText clauses) = true
  | [] => rfl
  | c :: clauses => by
    obtain ⟨keyword, hmem, hread⟩ := exists_reads_of_writtenKeywords c.keyword c.keyword_mem
    rw [clausesText_cons, c.text_eq, List.append_assoc, clauseEnds, Bool.and_eq_true]
    refine ⟨rfl, List.any_eq_true.mpr ⟨keyword, hmem, ?_⟩⟩
    rw [afterKeyword?_of_reads hread]
    rfl

def headWords : List (List Char) :=
  [['L', 'I', 'S', 'T'], ['T', 'A', 'B', 'L', 'E'], ['W', 'I', 'T', 'H', 'O', 'U', 'T'], ['I', 'D']]

theorem tight_and_free_headWords : ∀ word ∈ headWords, Tight word ∧ Free clauseKeywords word := by
  have hwords : ∀ word ∈ headWords, (∀ c ∈ word, Text.isBlank c = false) ∧ word ≠ [] ∧ Free clauseKeywords word := by
    decide
  intro word hmem
  obtain ⟨hblank, hne, hfree⟩ := hwords word hmem
  exact ⟨Tight.of_not_blank hblank hne, hfree⟩

theorem tight_and_free_headText {q : Query} (h : q.IsWritable) :
    Tight q.headText ∧ Free clauseKeywords q.headText := by
  have hspace : ∀ {a b : List Char}, Tight a ∧ Free clauseKeywords a → Tight b ∧ Free clauseKeywords b →
      Tight (a ++ ' ' :: b) ∧ Free clauseKeywords (a ++ ' ' :: b) := fun ha hb =>
    ⟨ha.1.space hb.1, (free_append_cons isWord_space _ _).mpr ⟨ha.2, hb.2⟩⟩
  rcases h.head_cases with ⟨hkind, hid, hcolumns⟩ | ⟨hkind, columns, hne, hcolumns, hall⟩
  · rw [headText_list hkind hid hcolumns]
    exact tight_and_free_headWords _ (by decide)
  · have hpart := isPart_columnsText hne hall
    have hclauses : Free clauseKeywords (columnsText columns) := hpart.free.mono fun _ => List.mem_cons_of_mem _
    rw [headText_table q.withoutId columns hkind rfl hcolumns]
    cases q.withoutId with
    | true =>
      have hbare := hspace (tight_and_free_headWords ['W', 'I', 'T', 'H', 'O', 'U', 'T'] (by decide))
        (hspace (tight_and_free_headWords ['I', 'D'] (by decide)) ⟨hpart.tight, hclauses⟩)
      exact hspace (tight_and_free_headWords _ (by decide)) (by simpa using hbare)
    | false => exact hspace (tight_and_free_headWords _ (by decide)) (by simpa using And.intro hpart.tight hclauses)

theorem tight_append_clausesText {columns : Option (List Column)} : ∀ {clauses : List Clause} {head : List Char},
    Tight head → (∀ c ∈ clauses, c.IsWritable columns) → Tight (head ++ clausesText clauses)
  | [], head, hhead, _ => by rwa [clausesText, List.flatMap_nil, List.append_nil]
  | c :: clauses, head, hhead, h => by
    have hkeyword := (isWord_of_writtenKeywords c.keyword c.keyword_mem)
    have htight : Tight c.keyword :=
      Tight.of_not_blank (fun d hd => Text.not_isBlank_of_isWord (hkeyword.2 d hd)) hkeyword.1
    have hclause : Tight c.text := by
      rw [c.text_eq]
      exact htight.space (Clause.isPart_body (h c (List.mem_cons_self ..))).tight
    have hmore := tight_append_clausesText (hhead.space hclause) fun d hd => h d (List.mem_cons_of_mem _ hd)
    rw [clausesText_cons]
    simpa using hmore

/-! ## Searching the clauses -/

section
variable {α : Type} {f : List Char → Option α} {keyword : List Char} {columns : Option (List Column)}

theorem free_body {c : Clause} (h : c.IsWritable columns) (hmem : keyword ∈ clauseKeywords) : Free [keyword] c.body :=
  (Clause.isPart_body h).free.mono fun other hother => by
    rw [List.mem_singleton.mp hother]
    exact List.mem_cons_of_mem _ hmem

theorem search_clause (hf : LedBy keyword f) (hmem : keyword ∈ clauseKeywords) {c : Clause}
    (h : c.IsWritable columns) {rest : List Char} (hrest : AtBreak rest) :
    search f (' ' :: (c.text ++ rest)) = (f (c.text ++ rest)).or (search f rest) := by
  have hk := isKeyword_of_clauseKeywords keyword hmem
  obtain ⟨hne, hword⟩ := isWord_of_writtenKeywords c.keyword c.keyword_mem
  rw [search_space hf hk, c.text_eq]
  exact search_part hf hk hword hne (free_body h hmem) hrest

/-- What is read of each clause by itself decides what a search finds. -/
theorem search_clausesText (hf : LedBy keyword f) (hmem : keyword ∈ clauseKeywords) {pick : Clause → Option α}
    (hpick : ∀ c : Clause, c.IsWritable columns → ∀ rest, AtBreak rest → f (c.text ++ rest) = pick c) :
    ∀ {clauses : List Clause}, (∀ c ∈ clauses, c.IsWritable columns) →
      search f (clausesText clauses) = clauses.findSome? pick
  | [], _ => by
    rw [clausesText, List.flatMap_nil, search_nil hf (isKeyword_of_clauseKeywords keyword hmem)]
    rfl
  | c :: clauses, h => by
    have hc := h c (List.mem_cons_self ..)
    have hrest := atBreak_clausesText clauses
    have ih := search_clausesText hf hmem hpick fun d hd => h d (List.mem_cons_of_mem _ hd)
    rw [clausesText_cons, search_clause hf hmem hc hrest, hpick c hc _ hrest, ih, List.findSome?_cons]
    cases pick c <;> rfl

end

def Clause.filter? : Clause → Option (List Condition)
  | .filter conditions => some conditions
  | _ => none

theorem whereClause?_text {columns : Option (List Column)} {c : Clause} (h : c.IsWritable columns) {rest : List Char}
    (hrest : clauseEnds rest = true) :
    whereClause? (c.text ++ rest) = c.filter?.map fun conditions => (joined conditions, rest) := by
  cases c with
  | filter conditions =>
    have hpart : IsPart (joined conditions) := Clause.isPart_body h
    have hfree : Free clauseKeywords (joined conditions) := hpart.free.mono fun _ => List.mem_cons_of_mem _
    have hwords : (Clause.filter conditions).text ++ rest =
        ['W', 'H', 'E', 'R', 'E'] ++ ' ' :: (joined conditions ++ rest) := by
      rw [Clause.text_eq, List.append_assoc]
      rfl
    rw [hwords, whereClause?, afterWord?_of_reads (by decide), Option.bind_some,
      freeClause?_append hpart.tight.ne_nil hfree hrest]
    rfl
  | _ => exact whereClause?_ledBy.eq_none_of_other (by decide) (by rw [Clause.keyword]; decide) rest

theorem whereTexts_clausesText {columns : Option (List Column)} : ∀ {clauses : List Clause},
    (∀ c ∈ clauses, c.IsWritable columns) →
      whereTexts (clausesText clauses) = (clauses.filterMap Clause.filter?).map joined
  | [], _ => rfl
  | c :: clauses, h => by
    have hc := h c (List.mem_cons_self ..)
    have hmem : "where".toList ∈ clauseKeywords := by decide
    have hclause := whereClause?_text hc (clauseEnds_clausesText clauses)
    have ih := whereTexts_clausesText fun d hd => h d (List.mem_cons_of_mem _ hd)
    rw [whereTexts_eq, clausesText_cons, search_clause whereClause?_ledBy hmem hc (atBreak_clausesText clauses), hclause]
    cases hpick : c.filter? with
    | none =>
      rw [List.filterMap_cons_none hpick, Option.map_none, Option.none_or, ← ih, whereTexts_eq (clausesText clauses)]
    | some conditions =>
      rw [List.filterMap_cons_some hpick, List.map_cons, ← ih]
      rfl

/-! ## Reading everything back -/

/-- The head of a query with clauses. All conditions count, and otherwise the first clause of each
kind does. A folder goes before a tag. -/
def withClauses (q : Query) (clauses : List Clause) : Query where
  kind := q.kind
  withoutId := q.withoutId
  columns := q.columns
  source := clauses.findSome? Clause.folder? <|> clauses.findSome? Clause.tag?
  conditions := (clauses.filterMap Clause.filter?).flatten
  flatten := clauses.findSome? Clause.flatten?
  groupBy := clauses.findSome? Clause.group?
  sort := clauses.findSome? Clause.sort?
  limit := clauses.findSome? Clause.limit?

theorem writable_of_mem_filter? {columns : Option (List Column)} {clauses : List Clause}
    (h : ∀ c ∈ clauses, c.IsWritable columns) : ∀ conditions ∈ clauses.filterMap Clause.filter?,
      conditions ≠ [] ∧ ∀ c ∈ conditions, c.IsWritable := by
  intro conditions hconditions
  obtain ⟨c, hc, hpick⟩ := List.mem_filterMap.mp hconditions
  cases c with
  | filter found =>
    rw [← Option.some.inj hpick]
    exact h _ hc
  | _ => cases hpick

theorem flatMap_splitTexts : ∀ {groups : List (List Condition)},
    (∀ conditions ∈ groups, conditions ≠ [] ∧ ∀ c ∈ conditions, c.IsWritable) →
      (groups.map joined).flatMap splitTexts = groups.flatten.map conditionText
  | [], _ => rfl
  | conditions :: groups, h => by
    obtain ⟨hne, hall⟩ := h conditions (List.mem_cons_self ..)
    have ih := flatMap_splitTexts fun other hother => h other (List.mem_cons_of_mem _ hother)
    rw [List.map_cons, List.flatMap_cons, splitTexts_joined hne hall, ih, List.flatten_cons, List.map_append]

theorem sort_back {columns : Option (List Column)} {clauses : List Clause} (h : ∀ c ∈ clauses, c.IsWritable columns) :
    (clauses.findSome? fun c => c.sort?.map fun o => (o.key.text.toList, o.direction)).map
      (fun (target, direction) => ⟨sortKey columns target, direction⟩) = clauses.findSome? Clause.sort? := by
  rw [show (clauses.findSome? fun c => c.sort?.map fun o => (o.key.text.toList, o.direction)) =
    (clauses.findSome? Clause.sort?).map fun o => (o.key.text.toList, o.direction) from List.map_findSome?.symm]
  cases hfound : clauses.findSome? Clause.sort? with
  | none => rfl
  | some o =>
    obtain ⟨c, hc, hpick⟩ := List.exists_of_findSome?_eq_some hfound
    cases c with
    | sort other =>
      obtain rfl := Option.some.inj hpick
      have hback := sortKey_text (show other.IsWritable columns from h _ hc)
      simp [hback]
    | _ => cases hpick

theorem limit_back {columns : Option (List Column)} {clauses : List Clause} (h : ∀ c ∈ clauses, c.IsWritable columns) :
    Option.map (fun n => Limit.count n) (do
      let n : Nat ← (((clauses.findSome? Clause.limit?).map (·.text.toList)).map Text.digitsValue).filter (0 < ·)
      pure (n : Int)) = clauses.findSome? Clause.limit? := by
  cases hfound : clauses.findSome? Clause.limit? with
  | none => rfl
  | some l =>
    obtain ⟨c, hc, hpick⟩ := List.exists_of_findSome?_eq_some hfound
    cases c with
    | limit other =>
      obtain rfl := Option.some.inj hpick
      obtain ⟨n, rfl, hn⟩ := (show other.IsWritable from h _ hc).exists_count
      simp [toList_text_count, Text.digitsValue_decimal, Option.filter, hn]
    | _ => cases hpick

section
variable {q : Query} (h : q.IsWritable) {clauses : List Clause} (hclauses : ∀ c ∈ clauses, c.IsWritable q.columns)
include h hclauses

theorem search_textWith {α : Type} {f : List Char → Option α} {keyword : List Char} (hf : LedBy keyword f)
    (hmem : keyword ∈ clauseKeywords) {pick : Clause → Option α}
    (hpick : ∀ c : Clause, c.IsWritable q.columns → ∀ rest, AtBreak rest → f (c.text ++ rest) = pick c) :
    search f (q.headText ++ clausesText clauses) = clauses.findSome? pick := by
  have hfree : Free [keyword] q.headText := (tight_and_free_headText h).2.mono (by simpa using hmem)
  rw [search_append_of_free hf (isKeyword_of_clauseKeywords keyword hmem) hfree (atBreak_clausesText clauses)]
  exact search_clausesText hf hmem hpick hclauses

theorem parseConditions_textWith : parseConditions (q.headText ++ clausesText clauses) =
    .ok (clauses.filterMap Clause.filter?).flatten := by
  have hmem : "where".toList ∈ clauseKeywords := by decide
  have hfree : Free ["where".toList] q.headText := (tight_and_free_headText h).2.mono (by simpa using hmem)
  have hpass := search_append_of_free whereClause?_ledBy (by decide) hfree (atBreak_clausesText clauses)
  have htexts : whereTexts (q.headText ++ clausesText clauses) = (clauses.filterMap Clause.filter?).map joined := by
    rw [whereTexts_eq, hpass, ← whereTexts_eq, whereTexts_clausesText hclauses]
  have hgroups := writable_of_mem_filter? hclauses
  have hall : ∀ c ∈ (clauses.filterMap Clause.filter?).flatten, c.IsWritable := by
    intro c hc
    obtain ⟨conditions, hconditions, hin⟩ := List.mem_flatten.mp hc
    exact (hgroups conditions hconditions).2 c hin
  show ((whereTexts (q.headText ++ clausesText clauses)).flatMap splitTexts).mapM (parseCondition ∘ Text.trim) = _
  rw [htexts, flatMap_splitTexts hgroups, mapM_parseCondition hall]

theorem parse_headText_clausesText : parse (String.ofList (q.headText ++ clausesText clauses)) =
    (checkDigits (((clauses.findSome? Clause.limit?).map (·.text.toList)).getD [])).map fun _ =>
      q.withClauses clauses := by
  have htight := tight_append_clausesText (tight_and_free_headText h).1 hclauses
  have hhead := parseHead_headText h (clauseEnds_clausesText clauses)
  -- each clause is searched for by itself and found as it is written
  have hfolder := search_textWith h hclauses folderClause?_ledBy (by decide) fun c hc rest _ => folderClause?_text hc rest
  have htag := search_textWith h hclauses tagClause?_ledBy (by decide) fun c hc _ => tagClause?_text hc
  have hflatten := search_textWith h hclauses flattenClause?_ledBy (by decide) fun c hc _ => flattenClause?_text hc
  have hgroup := search_textWith h hclauses groupClause?_ledBy (by decide) fun c hc _ => groupClause?_text hc
  have hsort := search_textWith h hclauses sortClause?_ledBy (by decide) fun c hc _ => sortClause?_text hc
  have hlimit := search_textWith h hclauses limitDigits?_ledBy (by decide) fun c hc _ => limitDigits?_text hc
  rw [show (clauses.findSome? fun c => c.limit?.map (·.text.toList)) =
    (clauses.findSome? Clause.limit?).map (·.text.toList) from List.map_findSome?.symm] at hlimit
  rw [parse, String.toList_ofList, Text.squeeze_of_tight htight, parseChars, hhead, ok_bind, search_limitClause?, hlimit,
    parseConditions_textWith h hclauses, parseSource, hfolder, htag, hflatten, hgroup, hsort]
  cases checkDigits (((clauses.findSome? Clause.limit?).map (·.text.toList)).getD []) with
  | error fault => rfl
  | ok _ =>
    show Except.ok _ = Except.ok _
    rw [sort_back hclauses, limit_back hclauses]
    rfl

end

/-! ## Any order of the clauses -/

theorem findSome?_of_perm {α : Type} {pick : Clause → Option α} {clauses others : List Clause} {o : Option α}
    (hperm : clauses.Perm others) (h : others.filterMap pick = o.toList) : clauses.findSome? pick = o := by
  have hsame := hperm.filterMap pick
  rw [h] at hsame
  rw [← List.head?_filterMap]
  cases o with
  | none => rw [hsame.eq_nil]; rfl
  | some a => rw [List.perm_singleton.mp hsame]; rfl

theorem filterMap_toList {α β : Type} (f : α → Clause) (pick : Clause → Option β) (o : Option α) :
    (o.map f).toList.filterMap pick = (o.bind (pick ∘ f)).toList := by
  cases o with
  | none => rfl
  | some a =>
    show [f a].filterMap pick = (pick (f a)).toList
    cases hpick : pick (f a) with
    | none => exact List.filterMap_cons_none hpick
    | some b => exact List.filterMap_cons_some hpick

theorem filterMap_clauses {β : Type} (q : Query) (pick : Clause → Option β) :
    q.clauses.filterMap pick = (q.source.bind (pick ∘ .source)).toList ++ (q.flatten.bind (pick ∘ .flatten)).toList ++
      (if q.conditions.isEmpty then [] else [Clause.filter q.conditions]).filterMap pick ++
      (q.groupBy.bind (pick ∘ .group)).toList ++ (q.sort.bind (pick ∘ .sort)).toList ++
      (q.limit.bind (pick ∘ .limit)).toList := by
  simp only [clauses, List.filterMap_append, filterMap_toList]

theorem withClauses_of_perm {q : Query} {clauses : List Clause} (hperm : clauses.Perm q.clauses) :
    q.withClauses clauses = q := by
  have hfolder : clauses.findSome? Clause.folder? = q.source.bind fun s => (Clause.source s).folder? :=
    findSome?_of_perm hperm (by simp [filterMap_clauses, Function.comp_def, Clause.folder?])
  have htag : clauses.findSome? Clause.tag? = q.source.bind fun s => (Clause.source s).tag? :=
    findSome?_of_perm hperm (by simp [filterMap_clauses, Function.comp_def, Clause.tag?])
  -- a query has one source, so the order of folders and tags makes no difference
  have hsource : (clauses.findSome? Clause.folder? <|> clauses.findSome? Clause.tag?) = q.source := by
    rw [hfolder, htag]
    rcases q.source with _ | _ | _ <;> rfl
  have hfilters := hperm.filterMap Clause.filter?
  have hconditions : (clauses.filterMap Clause.filter?).flatten = q.conditions := by
    by_cases hempty : q.conditions = []
    · have hnone : q.clauses.filterMap Clause.filter? = [] := by
        simp [filterMap_clauses, Function.comp_def, Clause.filter?, hempty]
      rw [hnone] at hfilters
      rw [hfilters.eq_nil, hempty]
      rfl
    · have hone : q.clauses.filterMap Clause.filter? = [q.conditions] := by
        simp [filterMap_clauses, Function.comp_def, Clause.filter?, hempty]
      rw [hone] at hfilters
      rw [List.perm_singleton.mp hfilters]
      simp
  have hflatten : clauses.findSome? Clause.flatten? = q.flatten := findSome?_of_perm hperm (by
    simp [filterMap_clauses, Function.comp_def, Clause.flatten?])
  have hgroup : clauses.findSome? Clause.group? = q.groupBy := findSome?_of_perm hperm (by
    simp [filterMap_clauses, Function.comp_def, Clause.group?])
  have hsort : clauses.findSome? Clause.sort? = q.sort := findSome?_of_perm hperm (by
    simp [filterMap_clauses, Function.comp_def, Clause.sort?])
  have hlimit : clauses.findSome? Clause.limit? = q.limit := findSome?_of_perm hperm (by
    simp [filterMap_clauses, Function.comp_def, Clause.limit?])
  rw [withClauses, hsource, hconditions, hflatten, hgroup, hsort, hlimit]

theorem checkDigits_text {l : Limit} (h : l.IsWritable) (hshort : Text.isLong l.toInt = false) :
    checkDigits l.text.toList = .ok () := by
  obtain ⟨n, rfl, -⟩ := h.exists_count
  rw [toList_text_count]
  exact checkDigits_decimal (Text.isLong_eq_false_iff.mp hshort)

/-- A query whose names and texts are words of the query language, though no reserved ones. -/
def wordyQuery : Query where
  kind := .table
  withoutId := true
  columns := some [⟨"as", some "list and id", none⟩, ⟨"rows", some "desc", some .length⟩]
  source := some (.folder "table/by contains")
  conditions := [⟨"and", .contains, .text " AND x = 3 AND "⟩, ⟨"contains", .atMost, .int (-12)⟩]
  flatten := some ⟨"tags", "as"⟩
  groupBy := some "by"
  sort := some ⟨.groupSize, .descending⟩
  limit := some (.count 3)

end NoteQuery.Query

import NoteQuery.Proofs.Query.Reading

/-!
# Reading the head of a query

A column is read back from its text, a list of columns is cut at the commas between them, and the
kind of a query with its columns is read back whatever clauses follow.
-/

namespace NoteQuery.Query

open NoteQuery.Text (isWord isFieldChar isBlank afterKeyword?)

/-! ## Columns -/

theorem not_head {p : Char → Bool} {d : Char} (hd : p d = false) (cs : List Char) :
    ∀ c ∈ (d :: cs).head?, p c = false := by
  intro c hc
  rw [← Option.mem_some.mp hc]
  exact hd

theorem aliasText?_quoted {a : String} (h : ∀ c ∈ a.toList, isQuote c = false) (hne : a.toList ≠ []) :
    aliasText? (' ' :: quoted a) = some a.toList := by
  have hspan : (' ' :: quoted a).span isBlank = ([' '], quoted a) :=
    @Text.span_append isBlank [' '] (quoted a) (by decide) (not_head rfl _)
  have hrun : run? (!isQuote ·) (a.toList ++ ['"']) = some (a.toList, ['"']) :=
    run?_append hne (fun c hc => by simp [h c hc]) (not_head rfl _)
  have hquote : isQuote '"' = true := rfl
  rw [aliasText?, hspan]
  simp only [quoted, List.cons_append, List.isEmpty_cons, Bool.false_eq_true, if_false, hquote, if_true,
    plainAlias?, hrun, aliasEnds]

theorem aliasClause?_quoted {a : String} (h : IsTrimmed a ∧ '\'' ∉ a.toList ∧ ',' ∉ a.toList) :
    aliasClause? (" AS ".toList ++ quoted a) = some a := by
  have hquotes : ∀ c ∈ a.toList, isQuote c = false := by
    intro c hc
    have hdouble : c ≠ '"' := fun e => h.1.unquoted (e ▸ hc)
    have hsingle : c ≠ '\'' := fun e => h.2.1 (e ▸ hc)
    simp [isQuote, hdouble, hsingle]
  have htext : " AS ".toList ++ quoted a = [' '] ++ (['A', 'S'] ++ ' ' :: quoted a) := by simp
  have hrun : run? isBlank ([' '] ++ (['A', 'S'] ++ ' ' :: quoted a)) = some ([' '], ['A', 'S'] ++ ' ' :: quoted a) :=
    run?_append (by decide) (by decide) (not_head rfl _)
  rw [htext, aliasClause?, hrun]
  simp only [afterKeyword?_of_reads (show Reads ['a', 's'] ['A', 'S'] by decide), Option.bind_some,
    aliasText?_quoted hquotes h.1.ne_nil, Option.map_some, Function.comp_apply, h.1.trimmed, String.ofList_toList]

def titleText (title : Option String) : List Char :=
  match title with
  | none => []
  | some a => " AS ".toList ++ quoted a

theorem atBreak_titleText (title : Option String) : AtBreak (titleText title) := by
  cases title with
  | none => exact atBreak_nil
  | some a => exact atBreak_space _

/-- No field is taken for a call: no bracket stands behind its first run. -/
theorem callHead?_field {s : String} (h : IsName isFieldChar s) {rest : List Char} (hrest : AtBreak rest) :
    callHead? (s.toList ++ rest) = none := by
  refine List.findSome?_eq_none_iff.mpr fun name hname => ?_
  split
  · rename_i after hafter
    exfalso
    have hk : ∀ name ∈ aggregateNames, IsKeyword name := by decide
    obtain ⟨run, htext, hread⟩ := exists_reads hafter
    have hword := isWord_of_reads (hk name hname) hread
    have hspan := Text.span_append h.chars (hrest.not_of_space (p := isFieldChar) rfl)
    rw [htext, Text.span_append (fun c hc => Text.isFieldChar_of_isWord (hword c hc)) (not_head rfl _)] at hspan
    have hbracket := hrest '(' (by rw [← (Prod.mk.inj hspan).2]; rfl)
    cases hbracket
  · rfl

theorem callHead?_call {f : Aggregate} (h : f ∈ [Aggregate.length, .count, .sum]) (cs : List Char) :
    callHead? (f.text.toList ++ '(' :: cs) = some (f.text.toList, cs) := by
  have hnames : aggregateNames = [['l', 'e', 'n', 'g', 't', 'h'], ['c', 'o', 'u', 'n', 't'], ['s', 'u', 'm']] := rfl
  cases f with
  | unknown name => simp at h
  | _ => simp [callHead?, hnames, Aggregate.text, afterKeyword?, Text.readsAs]

theorem lower_aggregate : ∀ f ∈ [Aggregate.length, .count, .sum],
    Aggregate.ofText (String.ofList (Text.lower f.text.toList)) = f := by decide

theorem titled {c : Column} (h : c.IsWritable) (column : Option String → Column) :
    (if (titleText c.title).isEmpty then some (column none)
      else (aliasClause? (titleText c.title)).map (column ∘ some)) = some (column c.title) := by
  cases ht : c.title with
  | none => rfl
  | some a =>
    have hne : (titleText (some a)).isEmpty = false := rfl
    rw [hne, titleText, aliasClause?_quoted (h.title a ht)]
    rfl

theorem column?_columnText {c : Column} (h : c.IsWritable) : column? (columnText c) = some c := by
  have hbreak := atBreak_titleText c.title
  cases hf : c.aggregate with
  | none =>
    have htext : columnText c = c.field.toList ++ titleText c.title := by
      rw [columnText, hf]
      rfl
    -- a field is tried as a call first, and is none
    have hcall : callColumn? (c.field.toList ++ titleText c.title) = none := by
      rw [callColumn?, callHead?_field h.field hbreak]
    have hfield : fieldColumn? (c.field.toList ++ titleText c.title) = some c := by
      rw [fieldColumn?, run?_path h.field hbreak]
      refine (titled h fun a => ⟨String.ofList c.field.toList, a, none⟩).trans ?_
      rw [String.ofList_toList, ← hf]
    rw [htext, column?, hcall, hfield]
    rfl
  | some f =>
    have htext : columnText c = f.text.toList ++ '(' :: (c.field.toList ++ ')' :: titleText c.title) := by
      rw [columnText, hf]
      show f.text.toList ++ '(' :: c.field.toList ++ [')'] ++ titleText c.title = _
      simp
    have hmem := h.aggregate f hf
    have hrun : run? isFieldChar (c.field.toList ++ ')' :: titleText c.title) =
        some (c.field.toList, ')' :: titleText c.title) :=
      run?_append h.field.ne_nil h.field.chars (not_head rfl _)
    have hcall : callColumn? (f.text.toList ++ '(' :: (c.field.toList ++ ')' :: titleText c.title)) = some c := by
      rw [callColumn?, callHead?_call hmem]
      simp only [hrun]
      refine (titled h fun a =>
        ⟨String.ofList c.field.toList, a, some (.ofText (String.ofList (Text.lower f.text.toList)))⟩).trans ?_
      rw [String.ofList_toList, lower_aggregate f hmem, ← hf]
    rw [htext, column?, hcall]
    rfl

/-! ## Lists of columns -/

theorem not_comma_of_mem_columnText {c : Column} (h : c.IsWritable) : ∀ d ∈ columnText c, (d == ',') = false := by
  have hfield : ',' ∉ c.field.toList := fun hin => by cases h.field.chars ',' hin
  have hcall : ∀ f ∈ c.aggregate, ',' ∉ f.text.toList := fun f hf => by
    have hnames : ∀ f ∈ [Aggregate.length, .count, .sum], ',' ∉ f.text.toList := by decide
    exact hnames f (h.aggregate f hf)
  have hnone : ',' ∉ columnText c := by
    unfold columnText
    cases hf : c.aggregate with
    | none =>
      cases ht : c.title with
      | none => simpa using hfield
      | some a => simpa [quoted, hfield] using (h.title a ht).2.2
    | some f =>
      cases ht : c.title with
      | none => simp [hfield, hcall f hf]
      | some a => simpa [quoted, hfield, hcall f hf] using (h.title a ht).2.2
  intro d hd
  exact beq_eq_false_iff_ne.mpr fun e => hnone (e ▸ hd)

theorem map_trim_cutAt_space (cs : List Char) :
    (Text.cutAt ',' (' ' :: cs)).map Text.trim = (Text.cutAt ',' cs).map Text.trim := by
  obtain ⟨pieces, hcut⟩ := Text.exists_cutWhere (· == ',') cs
  have hspace := Text.cutWhere_cons_of_neg (· == ',') (show (' ' == ',') = false from rfl) hcut
  rw [Text.cutAt, Text.cutAt, hspace, hcut]
  rfl

theorem map_trim_cutAt_joinWith : ∀ {columns : List Column}, columns ≠ [] → (∀ c ∈ columns, c.IsWritable) →
    (Text.cutAt ',' (Text.joinWith [',', ' '] (columns.map columnText))).map Text.trim = columns.map columnText
  | [], hne, _ => absurd rfl hne
  | [c], _, h => by
    have hc := h c (List.mem_cons_self ..)
    have hcut := Text.cutWhere_of_forall_not (· == ',') (not_comma_of_mem_columnText hc)
    show (Text.cutAt ',' (columnText c)).map Text.trim = [columnText c]
    rw [Text.cutAt, hcut, List.map_singleton, Text.trim_of_tight (isPart_columnText hc).tight]
  | c :: next :: columns, _, h => by
    have hc := h c (List.mem_cons_self ..)
    have hcut := Text.cutWhere_of_forall_not (· == ',') (not_comma_of_mem_columnText hc)
    have ih := map_trim_cutAt_joinWith (List.cons_ne_nil next columns) fun d hd => h d (List.mem_cons_of_mem _ hd)
    have hmap : (next :: columns).map columnText ≠ [] := by simp
    -- the space behind a comma stays with the next column, where trimming takes it away
    have hspace := map_trim_cutAt_space (Text.joinWith [',', ' '] ((next :: columns).map columnText))
    have hrest : ∀ rest, Text.cutAt ',' (columnText c ++ ',' :: rest) = columnText c :: Text.cutAt ',' rest := by
      intro rest
      have happ := Text.cutWhere_append_cons (· == ',') (beq_self_eq_true ',') rest (columnText c)
      rwa [hcut] at happ
    rw [List.map_cons, Text.joinWith_cons _ _ hmap, List.append_assoc, List.cons_append, hrest, List.map_cons,
      Text.trim_of_tight (isPart_columnText hc).tight]
    rw [ih] at hspace
    exact congrArg (columnText c :: ·) hspace

theorem parseColumns_joinWith {columns : List Column} (hne : columns ≠ []) (h : ∀ c ∈ columns, c.IsWritable) :
    parseColumns (Text.joinWith [',', ' '] (columns.map columnText)) = columns := by
  have hall : columns.filterMap (column? ∘ columnText) = columns.filterMap some :=
    List.filterMap_congr fun c hc => column?_columnText (h c hc)
  have hmap : ∀ pieces : List (List Char), pieces.filterMap (fun part => column? (Text.trim part)) =
      (pieces.map Text.trim).filterMap column? := fun pieces => by
    rw [List.filterMap_map]
    rfl
  rw [parseColumns, hmap, map_trim_cutAt_joinWith hne h, List.filterMap_map, hall, List.filterMap_some]

/-! ## Kinds -/

def columnsText (columns : List Column) : List Char := Text.joinWith [',', ' '] (columns.map columnText)

theorem isPart_columnsText {columns : List Column} (hne : columns ≠ []) (h : ∀ c ∈ columns, c.IsWritable) :
    IsPart (columnsText columns) := by
  refine isPart_joinWith [',', ' '] (fun {x y} hx hy => ?_) (by simpa using hne) ?_
  · have hcomma := (IsPart.concat (c := ',') rfl rfl hx).space hy
    simpa using hcomma
  · intro part hpart
    obtain ⟨c, hc, rfl⟩ := List.mem_map.mp hpart
    exact isPart_columnText (h c hc)

theorem headText_table (withoutId : Bool) (columns : List Column) {q : Query} (hkind : q.kind = .table)
    (hid : q.withoutId = withoutId) (hcolumns : q.columns = some columns) :
    q.headText = ['T', 'A', 'B', 'L', 'E'] ++
      ' ' :: ((if withoutId then ['W', 'I', 'T', 'H', 'O', 'U', 'T', ' ', 'I', 'D', ' '] else []) ++
        columnsText columns) := by
  cases withoutId <;>
    simp [headText, kindLine, hkind, hid, hcolumns, QueryKind.text, columnsText]

theorem headText_list {q : Query} (hkind : q.kind = .list) (hid : q.withoutId = false) (hcolumns : q.columns = none) :
    q.headText = ['L', 'I', 'S', 'T'] := by
  simp [headText, kindLine, hkind, hid, hcolumns, QueryKind.text]

theorem tableHead?_bare {columns rest : List Char} (hne : columns ≠ []) (hfree : Free clauseKeywords columns)
    (hrest : clauseEnds rest = true) :
    tableHead? (['T', 'A', 'B', 'L', 'E'] ++ ' ' :: (['W', 'I', 'T', 'H', 'O', 'U', 'T'] ++ ' ' ::
      (['I', 'D'] ++ ' ' :: (columns ++ rest)))) = some (true, columns) := by
  rw [tableHead?, afterWord?_of_reads (by decide)]
  dsimp only
  rw [afterWord?_of_reads (by decide), Option.bind_some, afterWord?_of_reads (by decide), Option.bind_some,
    freeClause?_append hne hfree hrest]

theorem tableHead?_plain {columns rest : List Char} (hne : columns ≠ []) (hfree : Free reservedWords columns)
    (hrest : clauseEnds rest = true) :
    tableHead? (['T', 'A', 'B', 'L', 'E'] ++ ' ' :: (columns ++ rest)) = some (false, columns) := by
  have hbreak := atBreak_of_clauseEnds hrest
  have hmem : "without".toList ∈ reservedWords := List.mem_cons_self ..
  have hclauses : Free clauseKeywords columns := hfree.mono fun _ => List.mem_cons_of_mem _
  have hbare : afterWord? "without".toList (columns ++ rest) = none :=
    afterWord?_of_free hfree hmem (by decide) hbreak
  rw [tableHead?, afterWord?_of_reads (by decide)]
  simp only [hbare, Option.bind_none, freeClause?_append hne hclauses hrest]
  refine if_neg fun hends => ?_
  split at hends
  · rename_i more hmore
    rw [wordEnds_of_free hfree hmem (by decide) hbreak hmore] at hends
    cases hends
  · cases hends

theorem parseHead_headText {q : Query} (h : q.IsWritable) {rest : List Char} (hrest : clauseEnds rest = true) :
    parseHead (q.headText ++ rest) = .ok { kind := q.kind, withoutId := q.withoutId, columns := q.columns } := by
  rcases h.head_cases with ⟨hkind, hid, hcolumns⟩ | ⟨hkind, columns, hne, hcolumns, hall⟩
  · have htable : tableHead? (['L', 'I', 'S', 'T'] ++ rest) = none := rfl
    have hlist : isListHead (['L', 'I', 'S', 'T'] ++ rest) = true := by
      rw [isListHead, afterKeyword?_of_reads (by decide)]
      cases rest with
      | nil => rfl
      | cons c rest => simp [atBreak_of_clauseEnds hrest c rfl]
    rw [headText_list hkind hid hcolumns, parseHead, htable, hlist, hkind, hid, hcolumns]
    rfl
  · have hpart := isPart_columnsText hne hall
    have hclauses : Free clauseKeywords (columnsText columns) := hpart.free.mono fun _ => List.mem_cons_of_mem _
    -- the columns hold no clause keyword, so they end where the clauses begin
    have htable : tableHead? (q.headText ++ rest) = some (q.withoutId, columnsText columns) := by
      cases hid : q.withoutId with
      | true =>
        have hbare := tableHead?_bare hpart.tight.ne_nil hclauses hrest
        rw [headText_table true columns hkind hid hcolumns]
        simpa using hbare
      | false =>
        have hplain := tableHead?_plain hpart.tight.ne_nil hpart.free hrest
        rw [headText_table false columns hkind hid hcolumns]
        simpa using hplain
    have hempty : (q.headText ++ rest).isEmpty = false := by
      rw [headText_table q.withoutId columns hkind rfl hcolumns]
      rfl
    have hsome : columns.isEmpty = false := by simpa using hne
    have hback : parseColumns (columnsText columns) = columns := parseColumns_joinWith hne hall
    rw [parseHead, hempty, htable, hkind, hcolumns]
    simp [hback, hsome]

end NoteQuery.Query

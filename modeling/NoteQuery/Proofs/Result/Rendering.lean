import NoteQuery.Proofs.Query.Label
import NoteQuery.Proofs.Result.CellText
import NoteQuery.Proofs.Result.Columns
import NoteQuery.Proofs.Result.Grouping

/-!
# Rendered tables

A table has a header, a rule and a line for each row or group, all in the same columns, and a note of what a
limit has left out. The key of a group is shown as it is, so that a line feed in it breaks the line of the group.
-/

namespace NoteQuery

open Table (BreaksLine InColumns Fits dashes widths)

/-! ## What is shown -/

def Outcome.shown : Outcome → Nat
  | .rows es => es.length
  | .groups gs => gs.length
  | .failure _ _ => 0

namespace Query

theorem mem_of_applyLimit {α : Type} {q : Query} {items : List α} {a : α} (h : a ∈ q.applyLimit items) : a ∈ items := by
  unfold applyLimit at h
  split at h
  · exact List.mem_of_mem_take h
  · exact h

theorem mem_candidates_of_rows {q : Query} {records : List Record} {entries : List Entry}
    (h : (q.run records).outcome = .rows entries) : ∀ e ∈ entries, ∃ r ∈ q.candidates records, e = .ofRecord r := by
  unfold run at h
  dsimp only at h
  split at h
  · cases h
  · obtain rfl := Outcome.rows.inj h
    intro e he
    obtain ⟨r, hr, rfl⟩ := List.mem_map.mp he
    exact ⟨r, (sortedRows_perm q _).mem_iff.mp (mem_of_applyLimit hr), rfl⟩

theorem mem_candidates_of_groups {q : Query} {records : List Record} {groups : List Group}
    (h : (q.run records).outcome = .groups groups) :
    ∀ g ∈ groups, ∀ e ∈ g.rows, ∃ r ∈ q.candidates records, e = .ofRecord r := by
  unfold run at h
  dsimp only at h
  split at h
  · rename_i field _
    obtain rfl := Outcome.groups.inj h
    intro g hg e he
    obtain ⟨b, hb, rfl⟩ := List.mem_map.mp hg
    obtain ⟨r, hr, rfl⟩ := List.mem_map.mp he
    have hbucket := (Bucket.buckets_perm q field _).mem_iff.mp (mem_of_applyLimit hb)
    rw [(Bucket.complete_ofRecords field _).records b hbucket] at hr
    exact ⟨r, (List.mem_filter.mp hr).1, rfl⟩
  · cases h

end Query

namespace Result

/-! ## Cells and their texts -/

theorem text_of_cellTexts {row : List (Except CellFault Value)} {texts : List String} (h : cellTexts row = .ok texts) :
    ∀ s ∈ texts, ∃ v, .ok v ∈ row ∧ s = Cell.text v := by
  intro s hs
  obtain ⟨cell, hcell, htext⟩ := exists_of_mapM h s hs
  obtain ⟨v, rfl, rfl⟩ := map_eq_ok htext
  exact ⟨v, hcell, rfl⟩

section
variable {q : Query} {o : Outcome}

theorem exists_body (h : ∀ row ∈ cells q o, ∀ cell ∈ row, ∃ v, cell = .ok v) :
    ∃ body, (cells q o).mapM cellTexts = .ok body := by
  apply exists_mapM_eq_ok
  intro row hrow
  apply exists_mapM_eq_ok
  intro cell hcell
  obtain ⟨v, rfl⟩ := h row hrow cell hcell
  exact ⟨Cell.text v, rfl⟩

theorem length_cells (q : Query) (o : Outcome) : (cells q o).length = o.shown := by
  cases o with
  | rows entries => exact List.length_map _
  | groups groups => exact List.length_map _
  | failure message needsIndex => rfl

theorem length_of_mem_cells : ∀ row ∈ cells q o, row.length = q.columnList.length := by
  intro row hrow
  cases o with
  | rows entries =>
    obtain ⟨e, -, rfl⟩ := List.mem_map.mp hrow
    exact List.length_map _
  | groups groups =>
    obtain ⟨g, -, rfl⟩ := List.mem_map.mp hrow
    exact List.length_map _
  | failure message needsIndex => cases hrow

theorem length_rowNames (o : Outcome) : (rowNames o).length = o.shown := by
  cases o with
  | rows entries => exact List.length_map _
  | groups groups => exact List.length_map _
  | failure message needsIndex => rfl

variable {body : List (List String)} (h : (cells q o).mapM cellTexts = .ok body)
include h

theorem length_body : body.length = o.shown := by
  rw [length_of_mapM h, length_cells]

theorem length_of_mem_body : ∀ row ∈ body, row.length = q.columnList.length := by
  intro row hrow
  obtain ⟨found, hfound, htexts⟩ := exists_of_mapM h row hrow
  rw [length_of_mapM htexts, length_of_mem_cells found hfound]

theorem break_not_mem_body (hcells : ∀ row ∈ cells q o, ∀ v, .ok v ∈ row → v.Unbroken) :
    ∀ row ∈ body, ∀ s ∈ row, '\n' ∉ s.toList := by
  intro row hrow s hs
  obtain ⟨found, hfound, htexts⟩ := exists_of_mapM h row hrow
  obtain ⟨v, hv, rfl⟩ := text_of_cellTexts htexts s hs
  exact Cell.break_not_mem_text (hcells found hfound v hv)

end

theorem unbroken_cells {q : Query} {records : List Record} (h : ∀ r ∈ records, r.Unbroken) :
    ∀ row ∈ cells q (q.run records).outcome, ∀ v, .ok v ∈ row → v.Unbroken := by
  have hunbroken : ∀ r ∈ records, r.Inherits Value.Unbroken := fun r hr => (h r hr).inherits
  -- a cell shows what is read of a candidate, and reading inherits from the record
  have hcandidates := Query.inherits_candidates Value.inherited_unbroken q hunbroken
  have hresolve : ∀ field r, r ∈ q.candidates records → ((Entry.ofRecord r).resolve field).Unbroken := by
    intro field r hr
    exact (hcandidates r hr).resolve Value.inherited_unbroken field
  intro row hrow v hv
  cases ho : (q.run records).outcome with
  | rows entries =>
    rw [ho] at hrow
    obtain ⟨e, he, rfl⟩ := List.mem_map.mp hrow
    obtain ⟨c, -, hshown⟩ := List.mem_map.mp hv
    obtain ⟨_, hcell, hsame⟩ := bind_eq_ok hshown
    obtain rfl := Cell.eq_of_shown hsame
    obtain ⟨r, hr, rfl⟩ := Query.mem_candidates_of_rows ho e he
    exact Cell.unbroken_ofEntry (hresolve c.field r hr) hcell
  | groups groups =>
    rw [ho] at hrow
    obtain ⟨g, hg, rfl⟩ := List.mem_map.mp hrow
    obtain ⟨c, -, hshown⟩ := List.mem_map.mp hv
    obtain ⟨_, hcell, hsame⟩ := bind_eq_ok hshown
    obtain rfl := Cell.eq_of_shown hsame
    refine Cell.unbroken_ofGroup ?_ hcell
    intro e he
    obtain ⟨r, hr, rfl⟩ := Query.mem_candidates_of_groups ho g hg e he
    exact hresolve c.field r hr
  | failure message needsIndex =>
    rw [ho] at hrow
    cases hrow

/-! ## The table -/

def tableHeader (q : Query) : List String :=
  let labels := q.columnList.map (·.label)
  if q.withoutId then labels else q.groupField?.getD "File" :: labels

def tableRows (q : Query) (o : Outcome) (body : List (List String)) : List (List String) :=
  if q.withoutId then body else (rowNames o).zipWith List.cons body

theorem table_eq {q : Query} {o : Outcome} {body : List (List String)} (h : (cells q o).mapM cellTexts = .ok body) :
    table q o = .ok (Table.render (tableHeader q) (tableRows q o body)) := by
  unfold table tableHeader tableRows
  rw [h]
  dsimp only [bind, Except.bind, pure, Except.pure]
  split
  · rfl
  · rfl

theorem render_eq {q : Query} {r : Result} (hquery : r.query = some q) (htable : q.isTable = true)
    (hshown : 1 ≤ r.outcome.shown) {s : String} (h : table q r.outcome = .ok s) :
    r.render = .ok (s ++ shownNote r.outcome.shown r.total) := by
  unfold render
  rw [hquery, Option.getD_some]
  cases ho : r.outcome with
  | rows entries =>
    rw [ho] at hshown h
    have hne : entries.length ≠ 0 := Nat.ne_of_gt hshown
    simp only [htable, if_true, if_neg hne, h]
    rfl
  | groups groups =>
    rw [ho] at hshown h
    have hne : groups.length ≠ 0 := Nat.ne_of_gt hshown
    simp only [htable, if_true, if_neg hne, h]
    rfl
  | failure message needsIndex =>
    rw [ho] at hshown
    cases hshown

def noteLines (shown total : Nat) : List (List Char) :=
  if shown < total then [[], ("(" ++ toString shown ++ " of " ++ toString total ++ " shown)").toList] else []

theorem break_not_mem_toDigits (n : Nat) : '\n' ∉ Nat.toDigits 10 n := by
  intro h
  have hdigit := Nat.isDigit_of_mem_toDigits (by decide) (by decide) h
  cases hdigit

theorem break_not_mem_noteLines {shown total : Nat} : ∀ line ∈ noteLines shown total, '\n' ∉ line := by
  intro line hline
  unfold noteLines at hline
  split at hline
  · rcases List.mem_cons.mp hline with rfl | hline
    · exact List.not_mem_nil
    · rw [List.mem_singleton.mp hline]
      simp [break_not_mem_toDigits]
  · cases hline

theorem toList_render (header : List String) (rows : List (List String)) (shown total : Nat) :
    (Table.render header rows ++ shownNote shown total).toList =
      ['\n'].intercalate ((Table.lines header rows).map String.toList ++ noteLines shown total) := by
  have hlines : (Table.lines header rows).map String.toList ≠ [] := by simp [Table.lines]
  rw [String.toList_append, Table.render, String.toList_intercalate]
  unfold shownNote noteLines
  split
  · rw [← Text.joinWith_eq_intercalate, ← Text.joinWith_eq_intercalate, Text.joinWith_append _ hlines (by simp)]
    simp [Text.joinWith]
  · simp

section
variable {q : Query} {o : Outcome} {body : List (List String)} (h : (cells q o).mapM cellTexts = .ok body)
include h

theorem length_tableRows : (tableRows q o body).length = o.shown := by
  have hbody := length_body h
  unfold tableRows
  split
  · exact hbody
  · rw [List.length_zipWith, length_rowNames, hbody, Nat.min_self]

theorem length_of_mem_tableRows : ∀ row ∈ tableRows q o body, row.length = (tableHeader q).length := by
  have hbody := length_of_mem_body h
  intro row hrow
  unfold tableRows at hrow
  unfold tableHeader
  split at hrow
  · rename_i hbare
    rw [if_pos hbare, List.length_map]
    exact hbody row hrow
  · rename_i hnamed
    rw [← List.map_uncurry_zip_eq_zipWith] at hrow
    obtain ⟨⟨name, cells⟩, hmem, rfl⟩ := List.mem_map.mp hrow
    rw [if_neg hnamed, List.length_cons, List.length_map]
    exact congrArg Nat.succ (hbody cells (List.of_mem_zip hmem).2)

end

theorem break_not_mem_tableHeader {text : String} {q : Query} (h : Query.parse text = .ok q) :
    ∀ label ∈ tableHeader q, '\n' ∉ label.toList := by
  have hlabels : ∀ label ∈ q.columnList.map (·.label), '\n' ∉ label.toList := by
    intro label hlabel
    obtain ⟨c, hc, rfl⟩ := List.mem_map.mp hlabel
    exact Query.break_not_mem_labels h c hc
  unfold tableHeader
  dsimp only
  split
  · exact hlabels
  · refine List.forall_mem_cons.mpr ⟨?_, hlabels⟩
    cases hfield : q.groupField? with
    | none => exact (by decide : '\n' ∉ "File".toList)
    | some field => exact Query.break_not_mem_groupBy h field (Option.filter_eq_some_iff.mp hfield).1

theorem splitOn_render_iff {header : List String} {rows : List (List String)} (shown total : Nat)
    (hrows : ∀ row ∈ rows, row.length = header.length) (hheader : ∀ label ∈ header, '\n' ∉ label.toList) :
    (Table.render header rows ++ shownNote shown total).toList.splitOn '\n' =
        (Table.lines header rows).map String.toList ++ noteLines shown total ↔
      ∀ row ∈ rows, '\n' ∉ (Table.line (widths header rows) row).toList := by
  have hfits := Table.fits_widths hrows header List.mem_cons_self
  rw [toList_render, Text.splitOn_intercalate_eq_iff (by simp [Table.lines])]
  unfold Table.lines
  simp only [List.map_cons, List.cons_append, List.forall_mem_cons, List.forall_mem_append, List.map_map,
    List.forall_mem_map, Function.comp_apply]
  constructor
  · intro h
    exact h.2.2.1
  · intro h
    exact ⟨Table.not_mem_line hfits hheader, Table.not_mem_rule _, h, break_not_mem_noteLines⟩

theorem not_breaksLine {name : String} (h : '\n' ∉ name.toList) (cells : List String) : ¬BreaksLine name cells := by
  rintro ⟨before, after, hname, -⟩
  rw [hname] at h
  exact h (List.mem_append_right _ List.mem_cons_self)

section
variable {q : Query} {o : Outcome} {body : List (List String)} {ws : List Nat}
variable (hfits : ∀ row ∈ tableRows q o body, Fits ws row) (hbody : ∀ row ∈ body, ∀ s ∈ row, '\n' ∉ s.toList)
include hfits hbody

theorem break_not_mem_bareRow (hbare : q.withoutId = true) :
    ∀ row ∈ tableRows q o body, '\n' ∉ (Table.line ws row).toList := by
  intro row hrow
  have hmem := hrow
  unfold tableRows at hmem
  rw [if_pos hbare] at hmem
  exact Table.not_mem_line (hfits row hrow) (hbody row hmem)

theorem break_not_mem_namedRow_iff (hnamed : q.withoutId = false) :
    (∀ row ∈ tableRows q o body, '\n' ∉ (Table.line ws row).toList) ↔
      ∀ p ∈ (rowNames o).zip body, ¬BreaksLine p.1 p.2 := by
  have hrows : tableRows q o body = ((rowNames o).zip body).map fun p => p.1 :: p.2 := by
    unfold tableRows
    rw [hnamed, ← List.map_uncurry_zip_eq_zipWith]
    rfl
  rw [hrows] at hfits ⊢
  simp only [List.forall_mem_map] at hfits ⊢
  constructor
  · intro h p hp
    exact mt (Table.mem_line_iff (hfits p hp) (hbody p.2 (List.of_mem_zip hp).2)).mpr (h p hp)
  · intro h p hp
    exact mt (Table.mem_line_iff (hfits p hp) (hbody p.2 (List.of_mem_zip hp).2)).mp (h p hp)

end

/-- How a text shows a table: which lines it is put together of, and when it is cut into them again. -/
structure Layout (q : Query) (r : Result) (s : String) (body : List (List String)) (ws : List Nat)
    (lines : List (List Char)) : Prop where
  texts : (cells q r.outcome).mapM cellTexts = .ok body
  count : lines.length = r.outcome.shown + 2
  columns : List.Forall₂ (InColumns ws) (tableHeader q :: dashes ws :: tableRows q r.outcome body) lines
  text : s.toList = ['\n'].intercalate (lines ++ noteLines r.outcome.shown r.total)
  /-- Lines of rows, and lines without names, are never broken. -/
  whole : q.groupField? = none ∨ q.withoutId = true →
    s.toList.splitOn '\n' = lines ++ noteLines r.outcome.shown r.total
  grouped : ∀ groups, r.outcome = .groups groups → q.withoutId = false →
    (s.toList.splitOn '\n' = lines ++ noteLines r.outcome.shown r.total ↔
      ∀ p ∈ (groups.map (·.heading)).zip body, ¬BreaksLine p.1 p.2)

theorem not_breaksLine_rows {q : Query} {records : List Record} (hrecords : ∀ r ∈ records, r.Unbroken)
    (hfield : q.groupField? = none) (body : List (List String)) :
    ∀ p ∈ (rowNames (q.run records).outcome).zip body, ¬BreaksLine p.1 p.2 := by
  intro p hp
  have hname := (List.of_mem_zip hp).1
  apply not_breaksLine
  cases ho : (q.run records).outcome with
  | rows entries =>
    rw [ho] at hname
    obtain ⟨e, he, hpath⟩ := List.mem_map.mp hname
    obtain ⟨r, hr, rfl⟩ := Query.mem_candidates_of_rows ho e he
    -- a row that flattening made has the path of the record that it was made of
    obtain ⟨before, hbefore, hsame⟩ := Query.exists_path_of_candidates hr
    rw [← hpath, ← show before.path = (Entry.ofRecord r).path from hsame]
    exact (hrecords before hbefore).path
  | groups groups =>
    unfold Query.run at ho
    rw [hfield] at ho
    cases ho
  | failure message needsIndex =>
    rw [ho] at hname
    cases hname

theorem isTable_of_parse {text : String} {q : Query} (hparse : Query.parse text = .ok q) (hkind : q.kind = .table) :
    q.isTable = true := by
  unfold Query.isTable
  rw [hkind, Bool.and_eq_true, Bool.not_eq_true', List.isEmpty_eq_false_iff]
  exact ⟨rfl, Query.columnList_ne_nil hparse hkind⟩

theorem query_run (q : Query) (records : List Record) : (q.run records).query = some q := by
  unfold Query.run
  dsimp only
  split
  · rfl
  · rfl

/-- A table has one line for each row, and for each group whose key does not break its line. -/
theorem render_run {text : String} {q : Query} (hparse : Query.parse text = .ok q) (hkind : q.kind = .table)
    {records : List Record} (hrecords : ∀ r ∈ records, r.Unbroken) (hshown : 1 ≤ (q.run records).outcome.shown)
    (hcells : ∀ row ∈ cells q (q.run records).outcome, ∀ cell ∈ row, ∃ v, cell = .ok v) :
    ∃ s body ws lines, (q.run records).render = .ok s ∧ Layout q (q.run records) s body ws lines := by
  obtain ⟨body, hbody⟩ := exists_body hcells
  have hrender := render_eq (query_run q records) (isTable_of_parse hparse hkind) hshown (table_eq hbody)
  have hlengths := length_of_mem_tableRows hbody
  have hfits := (List.forall_mem_cons.mp (Table.fits_widths hlengths)).2
  have htexts := break_not_mem_body hbody (unbroken_cells hrecords)
  have hsplit := splitOn_render_iff (q.run records).outcome.shown (q.run records).total hlengths
    (break_not_mem_tableHeader hparse)
  refine ⟨_, body, widths (tableHeader q) (tableRows q (q.run records).outcome body),
    (Table.lines (tableHeader q) (tableRows q (q.run records).outcome body)).map String.toList, hrender, ?_⟩
  exact {
    texts := hbody
    count := by simp [Table.lines, length_tableRows hbody]
    columns := Table.inColumns_lines hlengths
    text := toList_render _ _ _ _
    -- of a row the name is its path, which holds no line feed
    whole := by
      intro h
      rw [hsplit]
      by_cases hbare : q.withoutId = true
      · exact break_not_mem_bareRow hfits htexts hbare
      · rw [break_not_mem_namedRow_iff hfits htexts (Bool.eq_false_iff.mpr hbare)]
        exact not_breaksLine_rows hrecords (h.resolve_right hbare) body
    grouped := by
      intro groups hgroups hnamed
      rw [hsplit, break_not_mem_namedRow_iff hfits htexts hnamed, hgroups]
      rfl }

def groupedText : String := "TABLE a GROUP BY g"

def groupedQuery : Query := { kind := .table, columns := some [⟨"a", none, none⟩], groupBy := some "g" }

def groupedRecord (key : String) : Record :=
  ⟨"a.md", "a.md", "", [], [], [(.text "g", .text key), (.text "a", .int 1)], false⟩

theorem parse_groupedText : Query.parse groupedText = .ok groupedQuery := rfl

theorem unbroken_groupedRecord (key : String) : ∀ r ∈ [groupedRecord key], r.Unbroken := by
  intro r hr
  rw [List.mem_singleton.mp hr]
  have hpath : '\n' ∉ "a.md".toList := by decide
  refine ⟨hpath, hpath, Value.unbroken_map.mpr ?_⟩
  intro entry hentry
  rcases List.mem_cons.mp hentry with rfl | hentry
  · exact Value.unbroken_text key
  · rw [List.mem_singleton.mp hentry]
    exact Value.unbroken_int 1

theorem cells_groupedRecord (key : String) :
    cells groupedQuery (groupedQuery.run [groupedRecord key]).outcome = [[.ok (.seq [.int 1])]] := rfl

theorem render_groupedRecord : Query.parse groupedText = .ok groupedQuery ∧ (groupedRecord "x").Unbroken ∧
    (groupedQuery.run [groupedRecord "x"]).outcome.shown = 1 ∧
    ∃ s body ws lines, (groupedQuery.run [groupedRecord "x"]).render = .ok s ∧
      Layout groupedQuery (groupedQuery.run [groupedRecord "x"]) s body ws lines ∧ s.toList.splitOn '\n' = lines := by
  have hunbroken := unbroken_groupedRecord "x"
  obtain ⟨s, body, ws, lines, hrender, hlayout⟩ := render_run parse_groupedText rfl hunbroken Nat.one_pos (by
    rw [cells_groupedRecord]
    simp)
  refine ⟨parse_groupedText, hunbroken _ List.mem_cons_self, rfl, s, body, ws, lines, hrender, hlayout, ?_⟩
  have hnote : noteLines (groupedQuery.run [groupedRecord "x"]).outcome.shown
      (groupedQuery.run [groupedRecord "x"]).total = [] := rfl
  rw [(hlayout.grouped _ rfl rfl).mpr, hnote, List.append_nil]
  intro p hp
  apply not_breaksLine
  have hname : p.1 = "x" := List.mem_singleton.mp (List.of_mem_zip hp).1
  rw [hname]
  decide

theorem not_always_one_line : ¬∀ (text : String) (q : Query) (records : List Record) (s : String),
    Query.parse text = .ok q → q.kind = .table → (∀ r ∈ records, r.Unbroken) →
    1 ≤ (q.run records).outcome.shown → (q.run records).render = .ok s →
    (s.toList.splitOn '\n').length =
      (q.run records).outcome.shown + 2 + (noteLines (q.run records).outcome.shown (q.run records).total).length := by
  intro hall
  have hrender : (groupedQuery.run [groupedRecord "x\ny"]).render = .ok "g    a\n---  -\nx\ny  1" := by
    rfl
  have hlength := hall groupedText groupedQuery [groupedRecord "x\ny"] _ parse_groupedText rfl (unbroken_groupedRecord _)
    Nat.one_pos hrender
  revert hlength
  decide

end Result

end NoteQuery

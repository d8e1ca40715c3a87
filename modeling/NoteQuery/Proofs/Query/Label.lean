import NoteQuery.Proofs.Query.Accepted
import NoteQuery.Proofs.Text.Lines

/-!
# Labels of columns

The label of a column is put together of parts of the squeezed text of its query, so that it stands on
one line.
-/

namespace NoteQuery

theorem Aggregate.text_ofText (s : String) : (Aggregate.ofText s).text = s := by
  unfold Aggregate.ofText
  split
  · rename_i h
    exact h.symm
  · split
    · rename_i h
      exact h.symm
    · split
      · rename_i h
        exact h.symm
      · rfl

namespace Query

open Text (isFieldChar isBlank)

/-! ## Titles -/

theorem infix_of_run? {p : Char → Bool} {cs run rest : List Char} (h : run? p cs = some (run, rest)) :
    run <:+: cs ∧ rest <:+: cs := by
  obtain ⟨rfl, -⟩ := exists_append_of_run? h
  exact ⟨(List.prefix_append run rest).isInfix, (List.suffix_append run rest).isInfix⟩

theorem infix_of_plainAlias? {cs inside : List Char} (h : plainAlias? cs = some inside) : inside <:+: cs := by
  unfold plainAlias? at h
  split at h
  · rename_i run rest hrun
    obtain ⟨-, h⟩ := Option.ite_none_right_eq_some.mp h
    rw [← Option.some.inj h]
    exact (infix_of_run? hrun).1
  · cases h

theorem infix_of_aliasText? {cs inside : List Char} (h : aliasText? cs = some inside) : inside <:+: cs := by
  have hblanks : cs.takeWhile isBlank <:+: cs := (List.takeWhile_prefix isBlank).isInfix
  have hbody : cs.dropWhile isBlank <:+: cs := (List.dropWhile_suffix isBlank).isInfix
  rw [aliasText?, Text.span_eq] at h
  dsimp only at h
  -- all that matters of the two halves is that they stand in the text
  generalize cs.takeWhile isBlank = blanks at h hblanks
  generalize cs.dropWhile isBlank = body at h hbody
  obtain ⟨-, h⟩ := Option.ite_none_left_eq_some.mp h
  split at h
  · rename_i found hquoted
    obtain rfl := Option.some.inj h
    split at hquoted
    · rename_i q rest
      obtain ⟨-, hquoted⟩ := Option.ite_none_right_eq_some.mp hquoted
      exact (infix_of_plainAlias? hquoted).trans ((List.suffix_cons q rest).isInfix.trans hbody)
    · cases hquoted
  · split at h
    · rename_i found hplain
      rw [← Option.some.inj h]
      exact (infix_of_plainAlias? hplain).trans hbody
    · split at h
      · obtain ⟨-, h⟩ := Option.ite_none_right_eq_some.mp h
        rw [← Option.some.inj h]
        exact (List.drop_suffix _ blanks).isInfix.trans hblanks
      · cases h

theorem infix_of_aliasClause? {cs : List Char} {title : String} (h : aliasClause? cs = some title) :
    title.toList <:+: cs := by
  unfold aliasClause? at h
  split at h
  · rename_i blanks rest hrun
    obtain ⟨inside, hbind, rfl⟩ := Option.map_eq_some_iff.mp h
    obtain ⟨after, hafter, halias⟩ := Option.bind_eq_some_iff.mp hbind
    obtain ⟨word, rfl, -⟩ := exists_reads hafter
    rw [Function.comp_apply, String.toList_ofList]
    have hinside := (infix_of_aliasText? halias).trans (List.suffix_append word after).isInfix
    exact (infix_trim inside).trans (hinside.trans (infix_of_run? hrun).2)
  · cases h

theorem infix_of_title {rest : List Char} {column : Option String → Column} {c : Column}
    (h : (if rest.isEmpty then some (column none) else (aliasClause? rest).map (column ∘ some)) = some c) :
    ∃ title, c = column title ∧ ∀ t ∈ title, t.toList <:+: rest := by
  split at h
  · exact ⟨none, (Option.some.inj h).symm, fun _ ht => nomatch ht⟩
  · obtain ⟨t, ht, rfl⟩ := Option.map_eq_some_iff.mp h
    refine ⟨some t, rfl, ?_⟩
    intro u hu
    rw [← Option.mem_some.mp hu]
    exact infix_of_aliasClause? ht

theorem infix_of_callHead? {cs name inside : List Char} (h : callHead? cs = some (name, inside)) : inside <:+: cs := by
  obtain ⟨keyword, -, hafter⟩ := List.exists_of_findSome?_eq_some h
  split at hafter
  · rename_i rest hrest
    obtain ⟨-, rfl⟩ := Prod.mk.inj (Option.some.inj hafter)
    obtain ⟨word, rfl, -⟩ := exists_reads hrest
    exact (List.suffix_cons '(' rest).isInfix.trans (List.suffix_append word _).isInfix
  · cases hafter

theorem infix_title_of_callColumn? {cs : List Char} {c : Column} (h : callColumn? cs = some c) :
    ∀ t ∈ c.title, t.toList <:+: cs := by
  unfold callColumn? at h
  split at h
  · cases h
  · rename_i name inside hhead
    split at h
    · rename_i field rest hfield
      obtain ⟨title, rfl, htitle⟩ := infix_of_title h
      intro t ht
      have hrest := (List.suffix_cons ')' rest).isInfix.trans (infix_of_run? hfield).2
      exact (htitle t ht).trans (hrest.trans (infix_of_callHead? hhead))
    · cases h

theorem infix_title_of_fieldColumn? {cs : List Char} {c : Column} (h : fieldColumn? cs = some c) :
    ∀ t ∈ c.title, t.toList <:+: cs := by
  unfold fieldColumn? at h
  split at h
  · rename_i field rest hfield
    obtain ⟨title, rfl, htitle⟩ := infix_of_title h
    intro t ht
    exact (htitle t ht).trans (infix_of_run? hfield).2
  · cases h

theorem infix_title_of_mem {cs : List Char} {c : Column} (h : c ∈ parseColumns cs) : ∀ t ∈ c.title, t.toList <:+: cs := by
  obtain ⟨part, hpart, hcolumn⟩ := List.mem_filterMap.mp h
  have hwhole := (infix_trim part).trans (infix_of_mem_cutWhere hpart)
  intro t ht
  refine List.IsInfix.trans ?_ hwhole
  unfold column? at hcolumn
  cases hcall : callColumn? (Text.trim part) with
  | some found =>
    rw [hcall] at hcolumn
    obtain rfl := Option.some.inj hcolumn
    exact infix_title_of_callColumn? hcall t ht
  | none =>
    rw [hcall] at hcolumn
    exact infix_title_of_fieldColumn? hcolumn t ht

theorem infix_title_of_parseHead {cs : List Char} {head : Query} (h : parseHead cs = .ok head) :
    ∀ c ∈ head.columnList, ∀ t ∈ c.title, t.toList <:+: cs := by
  unfold parseHead at h
  split at h
  · cases h
  · split at h
    · rename_i bare list htable
      dsimp only at h
      split at h
      · cases h
      · obtain rfl := Except.ok.inj h
        intro c hc t ht
        exact (infix_title_of_mem hc t ht).trans (infix_of_tableHead? htable)
    · split at h
      · obtain rfl := Except.ok.inj h
        exact fun _ hc => nomatch hc
      · cases h

/-! ## Labels -/

theorem break_not_mem_of_part {cs part : List Char} (h : part <:+: Text.squeeze cs) : '\n' ∉ part := fun hmem =>
  absurd (Text.isBlank_of_mem_squeeze (h.subset hmem) rfl) (by decide)

theorem break_not_mem_of_isOver {p : Char → Bool} (hp : p '\n' = false) {s : String} (h : IsOver p s) :
    '\n' ∉ s.toList := by
  intro hmem
  rw [h.2 _ hmem] at hp
  cases hp

theorem break_not_mem_lower {word : List Char} (h : '\n' ∉ word) : '\n' ∉ Text.lower word := fun hmem =>
  h (Text.mem_of_mem_lowerAfter (by decide) (by decide) hmem)

theorem break_not_mem_label {cs : List Char} {c : Column} (h : IsColumn (Text.squeeze cs) c)
    (htitle : ∀ t ∈ c.title, t.toList <:+: Text.squeeze cs) : '\n' ∉ c.label.toList := by
  have hfield : '\n' ∉ c.field.toList := break_not_mem_of_isOver rfl h.field
  unfold Column.label
  split
  · rename_i t ht
    have hmem := (Option.filter_eq_some_iff.mp ht).1
    exact break_not_mem_of_part (htitle t hmem)
  · split
    · rename_i f hf
      obtain ⟨word, hword, rfl, -⟩ := h.aggregate f (Option.filter_eq_some_iff.mp hf).1
      have hname := break_not_mem_lower (break_not_mem_of_part hword.occurs)
      rw [Aggregate.text_ofText]
      simpa [hfield] using hname
    · exact hfield

section
variable {text : String} {q : Query} (h : parse text = .ok q)
include h

theorem break_not_mem_labels : ∀ c ∈ q.columnList, '\n' ∉ c.label.toList := by
  obtain ⟨head, hhead, h⟩ := bind_eq_ok h
  obtain ⟨-, -, h⟩ := bind_eq_ok h
  obtain ⟨conditions, -, h⟩ := bind_eq_ok h
  obtain rfl := Except.ok.inj h
  intro c hc
  exact break_not_mem_label ((accepted_of_parseHead hhead).2 c hc) (infix_title_of_parseHead hhead c hc)

theorem break_not_mem_groupBy : ∀ field ∈ q.groupBy, '\n' ∉ field.toList := fun field hfield =>
  break_not_mem_of_isOver rfl (groupBy_of_parse h field hfield)

theorem columnList_ne_nil (hkind : q.kind = .table) : q.columnList ≠ [] := by
  obtain ⟨head, hhead, h⟩ := bind_eq_ok h
  obtain ⟨-, -, h⟩ := bind_eq_ok h
  obtain ⟨conditions, -, h⟩ := bind_eq_ok h
  obtain rfl := Except.ok.inj h
  rcases (accepted_of_parseHead hhead).1 with ⟨-, hcolumns⟩ | ⟨hlist, -⟩
  · exact hcolumns
  · cases hkind.symm.trans hlist

end

end Query

end NoteQuery

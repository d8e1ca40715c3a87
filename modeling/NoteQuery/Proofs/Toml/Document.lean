import NoteQuery.Proofs.Lookup
import NoteQuery.Proofs.Toml.Scalar

/-!
# Written documents

A document is read line by line: a header opens a table, and an entry goes into the table that was opened last. So
tables of scalars are read back as they were written, where their names and keys are bare and different from each
other.
-/

namespace NoteQuery.Toml

/-! ## Names -/

structure IsBare (name : String) : Prop where
  ne_nil : name.toList ≠ []
  chars : ∀ c ∈ name.toList, isBareChar c = true

instance (name : String) : Decidable (IsBare name) :=
  decidable_of_iff (name.toList ≠ [] ∧ ∀ c ∈ name.toList, isBareChar c = true)
    ⟨fun h => ⟨h.1, h.2⟩, fun h => ⟨h.ne_nil, h.chars⟩⟩

theorem IsBare.exists_cons {name : String} (h : IsBare name) :
    ∃ c cs, name.toList = c :: cs ∧ isBareChar c = true := by
  obtain ⟨c, cs, hcs⟩ := List.exists_cons_of_ne_nil h.ne_nil
  exact ⟨c, cs, hcs, h.chars c (hcs ▸ List.mem_cons_self)⟩

theorem isBareChar_ne {c d : Char} (hc : isBareChar c = true) (hd : isBareChar d = false) : c ≠ d := by
  rintro rfl
  rw [hc] at hd
  cases hd

theorem isSpace_of_isBareChar {c : Char} (hc : isBareChar c = true) : isSpace c = false := by
  rw [isSpace, Bool.or_eq_false_iff, beq_eq_false_iff_ne, beq_eq_false_iff_ne]
  exact ⟨isBareChar_ne hc (by decide), isBareChar_ne hc (by decide)⟩

theorem skipSpaces_cons {c : Char} (hc : isSpace c = false) (cs : List Char) : skipSpaces (c :: cs) = c :: cs := by
  rw [skipSpaces, List.dropWhile_cons_of_neg (by simp [hc])]

theorem keyPart_bare {name : String} (h : IsBare name) {rest : List Char} (hrest : ∀ c ∈ rest.head?, isBareChar c = false) :
    keyPart (name.toList ++ rest) = .ok (name, rest) := by
  have hspan := Text.span_append h.chars hrest
  have hname := String.ofList_toList (s := name)
  obtain ⟨c, cs, hcs, hc⟩ := h.exists_cons
  rw [hcs] at hspan hname ⊢
  rw [List.cons_append] at hspan ⊢
  rw [keyPart, if_pos hc, hspan]
  dsimp only
  rw [hname]

theorem keyHere_bare {name : String} (h : IsBare name) {rest : List Char} (hrest : ∀ c ∈ rest.head?, isBareChar c = false)
    (hpoint : (skipSpaces rest).head? ≠ some '.') :
    keyHere (name.toList ++ rest) = .ok ([name], skipSpaces rest) := by
  rw [keyHere, key, keyPart_bare h hrest, ok_bind]
  dsimp only
  split
  · rename_i more heq
    exact absurd (by rw [heq]; rfl) hpoint
  · rfl

/-! ## Entries -/

theorem toList_entryLine (key : String) (v : Toml) (rest : List Char) : (entryLine (key, v)).toList ++ rest =
    key.toList ++ ' ' :: '=' :: ' ' :: (v.written.toList ++ '\n' :: rest) := by
  rw [entryLine, String.toList_append, String.toList_append, String.toList_append, List.append_assoc, List.append_assoc,
    List.append_assoc]
  rfl

theorem keyValue_entry {key : String} (hkey : IsBare key) {v : Toml} (hv : IsScalar v) (fuel : Nat) (rest : List Char) :
    keyValue (value (fuel + 1)) (key.toList ++ ' ' :: '=' :: ' ' :: (v.written.toList ++ '\n' :: rest)) =
      .ok (([key], v), '\n' :: rest) := by
  have hequals (cs : List Char) : skipSpaces (' ' :: '=' :: cs) = '=' :: cs := rfl
  have hvalue : value (fuel + 1) (skipSpaces (' ' :: (v.written.toList ++ '\n' :: rest))) = .ok (v, '\n' :: rest) := by
    obtain ⟨c, cs, hcs, hc⟩ := exists_written hv
    have hskip : skipSpaces (' ' :: (v.written.toList ++ '\n' :: rest)) = v.written.toList ++ '\n' :: rest := by
      rw [hcs]
      exact skipSpaces_cons hc _
    rw [hskip, value_written hv]
  rw [keyValue, keyHere_bare hkey (by simp [isBareChar]) (by simp [hequals]), hequals, ok_bind]
  exact congrArg (· >>= fun read => .ok (([key], read.1), read.2)) hvalue

/-! ## Drafts -/

namespace Draft

/-- What was read where the tables in `content` were declared, each by a header of its own. -/
def ofTables (content : Table) (header : Key) : Draft :=
  ⟨content, header, [], (content.map fun entry => [entry.1]).reverse, []⟩

theorem ofTables_snoc (content : Table) (header next : Key) (name : String) (v : Toml) :
    ofTables (content ++ [(name, v)]) next = { ofTables content header with
      content := content ++ [(name, v)], header := next, declared := [name] :: (ofTables content header).declared } := by
  rw [ofTables, List.map_append, List.reverse_append]
  rfl

theorem isDeclared_ofTables {content : Table} {name : String} (h : ∀ entry ∈ content, name ≠ entry.1) (header : Key) :
    (ofTables content header).isDeclared [name] = false := by
  rw [isDeclared, ofTables, ← Bool.not_eq_true, List.contains_iff_mem, List.mem_reverse, List.mem_map]
  rintro ⟨entry, hentry, heq⟩
  exact h entry hentry (List.cons.inj heq).1.symm

theorem openTable_new {content : Table} {name : String} (h : ∀ entry ∈ content, name ≠ entry.1) :
    openTable [name] content = some (content ++ [(name, .table [])]) := by
  rw [openTable, changeTable, lookup_eq_none h]
  rfl

theorem statement_header {content : Table} {header : Key} {name : String} (hname : IsBare name)
    (hnew : ∀ entry ∈ content, name ≠ entry.1) (rest : List Char) :
    (ofTables content header).statement ('[' :: (name.toList ++ ']' :: rest)) =
      .ok (ofTables (content ++ [(name, .table [])]) [name], rest) := by
  have hend : skipSpaces (']' :: rest) = ']' :: rest := skipSpaces_cons rfl rest
  have hkey : keyHere (name.toList ++ ']' :: rest) = .ok ([name], ']' :: rest) := by
    rw [keyHere_bare hname (by simp [isBareChar]) (by simp [hend]), hend]
  have hfree : ((ofTables content header).isDeclared [name] || (ofTables content header).isClosed [name]) = false := by
    rw [isDeclared_ofTables hnew]
    rfl
  obtain ⟨c, cs, hcs, hc⟩ := hname.exists_cons
  rw [hcs, List.cons_append] at hkey ⊢
  have hheader : (ofTables content header).statement ('[' :: c :: (cs ++ ']' :: rest)) =
      (ofTables content header).tableHeader (c :: (cs ++ ']' :: rest)) := by
    -- a name does not begin with a bracket, so this is no header of an array
    rw [statement]
    · rfl
    · intro more heq
      exact isBareChar_ne hc (by decide) (List.cons.inj heq).1
  rw [hheader, tableHeader, skipSpaces_cons (isSpace_of_isBareChar hc), hkey, ok_bind]
  dsimp only
  rw [hfree, if_neg Bool.false_ne_true, show (ofTables content header).content = content from rfl, openTable_new hnew]
  dsimp only
  rw [ofTables_snoc content header]
  rfl

theorem lookup_last {content : Table} {name : String} (h : ∀ entry ∈ content, name ≠ entry.1) (v : Toml) :
    (content ++ [(name, v)]).lookup name = some v := by
  rw [List.lookup_append, lookup_eq_none h, List.lookup_cons_self]
  rfl

theorem bind_last {name : String} (v w : Toml) : ∀ {content : Table}, (∀ entry ∈ content, name ≠ entry.1) →
    bind name w (content ++ [(name, v)]) = content ++ [(name, w)]
  | [], _ => if_pos rfl
  | (k, u) :: content, h => by
    obtain ⟨hk, hcontent⟩ := List.forall_mem_cons.mp h
    rw [List.cons_append, bind, if_neg fun heq => hk heq.symm, bind_last v w hcontent]
    rfl

theorem statement_bare (d : Draft) {c : Char} (hc : isBareChar c = true) (cs : List Char) :
    d.statement (c :: cs) = d.entry (c :: cs) := by
  rw [statement]
  · rw [hc]
    rfl
  · intro more heq
    exact absurd heq (isBareChar_ne hc (by decide))
  · exact isBareChar_ne hc (by decide)
  · exact isBareChar_ne hc (by decide)

theorem statement_entry {done entries : Table} {name key : String} (hname : ∀ entry ∈ done, name ≠ entry.1)
    (hkey : IsBare key) (hnew : ∀ entry ∈ entries, key ≠ entry.1) {v : Toml} (hv : IsScalar v) (rest : List Char) :
    (ofTables (done ++ [(name, .table entries)]) [name]).statement ((entryLine (key, v)).toList ++ rest) =
      .ok (ofTables (done ++ [(name, .table (entries ++ [(key, v)]))]) [name], '\n' :: rest) := by
  have hread (fuel : Nat) : keyValue (value (fuel + 1)) ((entryLine (key, v)).toList ++ rest) =
      .ok (([key], v), '\n' :: rest) := by
    rw [toList_entryLine]
    exact keyValue_entry hkey hv fuel rest
  have hchange : changeTable true (fun inner => if (inner.lookup key).isSome then none else some (inner ++ [(key, v)]))
      [name] (done ++ [(name, .table entries)]) = some (done ++ [(name, .table (entries ++ [(key, v)]))]) := by
    rw [changeTable, lookup_last hname]
    dsimp only
    rw [changeTable, lookup_eq_none hnew]
    exact congrArg some (bind_last _ _ hname)
  -- a bare key in a plain table opens no other table
  have houter : outerKeys [name] [key] = [] := rfl
  have hlast : [key].getLastD "" = key := rfl
  have hparent : [name] ++ [key].dropLast = [name] := rfl
  have hopen : isCollection v = false := by cases hv <;> rfl
  have hstatement (d : Draft) : d.statement ((entryLine (key, v)).toList ++ rest) =
      d.entry ((entryLine (key, v)).toList ++ rest) := by
    obtain ⟨c, cs, hcs, hc⟩ := hkey.exists_cons
    rw [toList_entryLine, hcs]
    exact statement_bare d hc _
  rw [hstatement, ofTables_snoc done [], ofTables_snoc done [], entry, hread, ok_bind]
  dsimp only [ofTables, isClosed, isUnder]
  simp only [houter, List.find?_nil, List.any_nil, Bool.false_eq_true, if_false, hopen]
  rw [hlast, hparent, hchange]
  rfl

/-! ## Lines -/

/-- Reading on from one place comes to another. The bounds on the number of lines stay large enough. -/
def Reads (d : Draft) (cs : List Char) (d' : Draft) (rest : List Char) : Prop :=
  ∀ steps, cs.length < steps → ∃ left, rest.length < left ∧ lines steps d cs = lines left d' rest

theorem Reads.refl (d : Draft) (cs : List Char) : Reads d cs d cs := fun steps h => ⟨steps, h, rfl⟩

theorem Reads.trans {d e f : Draft} {as bs cs : List Char} (hfirst : Reads d as e bs) (hsecond : Reads e bs f cs) :
    Reads d as f cs := by
  intro steps h
  obtain ⟨left, hleft, hlines⟩ := hfirst steps h
  obtain ⟨last, hlast, hmore⟩ := hsecond left hleft
  exact ⟨last, hlast, hlines.trans hmore⟩

theorem Reads.of_step {d d' : Draft} {cs rest : List Char} (hshort : rest.length < cs.length)
    (h : ∀ steps, lines (steps + 1) d cs = lines steps d' rest) : Reads d cs d' rest
  | 0, hsteps => absurd hsteps (Nat.not_lt_zero _)
  | steps + 1, hsteps => ⟨steps, by omega, h steps⟩

theorem Reads.lines_end {d d' : Draft} {cs : List Char} (h : Reads d cs d' []) {steps : Nat} (hsteps : cs.length < steps) :
    lines steps d cs = .ok d'.content := by
  obtain ⟨left, hleft, hlines⟩ := h steps hsteps
  obtain ⟨left, rfl⟩ : ∃ more, left = more + 1 := ⟨left - 1, (Nat.succ_pred_eq_of_pos hleft).symm⟩
  rw [hlines]
  rfl

theorem reads_blank (d : Draft) (rest : List Char) : Reads d ('\n' :: rest) d rest :=
  .of_step (Nat.lt_succ_self _) fun _ => rfl

theorem reads_statement {d d' : Draft} {c : Char} {cs rest : List Char} (hspace : isSpace c = false) (hline : c ≠ '\n')
    (hshort : rest.length < (c :: cs).length) (h : d.statement (c :: cs) = .ok (d', '\n' :: rest)) :
    Reads d (c :: cs) d' rest := by
  refine .of_step hshort fun steps => ?_
  rw [lines, skipSpaces_cons hspace]
  split
  · rename_i heq
    cases heq
  · rename_i heq
    exact absurd (List.cons.inj heq).1 hline
  · rw [h]
    rfl

theorem reads_header {content : Table} {header : Key} {name : String} (hname : IsBare name)
    (hnew : ∀ entry ∈ content, name ≠ entry.1) (rest : List Char) :
    Reads (ofTables content header) ('[' :: (name.toList ++ ']' :: '\n' :: rest))
      (ofTables (content ++ [(name, .table [])]) [name]) rest := by
  refine reads_statement rfl (by decide) ?_ (statement_header hname hnew _)
  rw [List.length_cons, List.length_append, List.length_cons, List.length_cons]
  omega

theorem reads_entry {done entries : Table} {name key : String} (hname : ∀ entry ∈ done, name ≠ entry.1)
    (hkey : IsBare key) (hnew : ∀ entry ∈ entries, key ≠ entry.1) {v : Toml} (hv : IsScalar v) (rest : List Char) :
    Reads (ofTables (done ++ [(name, .table entries)]) [name]) ((entryLine (key, v)).toList ++ rest)
      (ofTables (done ++ [(name, .table (entries ++ [(key, v)]))]) [name]) rest := by
  have hstatement := statement_entry hname hkey hnew hv rest
  obtain ⟨c, cs, hcs, hc⟩ := hkey.exists_cons
  rw [toList_entryLine, hcs, List.cons_append] at hstatement ⊢
  refine reads_statement (isSpace_of_isBareChar hc) (isBareChar_ne hc (by decide)) ?_ hstatement
  simp only [List.length_cons, List.length_append]
  omega

end Draft

/-! ## Documents -/

structure IsPlainTable (entries : Table) : Prop where
  distinct : entries.Pairwise fun a b => a.1 ≠ b.1
  bare : ∀ entry ∈ entries, IsBare entry.1
  scalar : ∀ entry ∈ entries, IsScalar entry.2

theorem IsPlainTable.of_keys {entries : Table} (keys : List String) (hkeys : entries.map (·.1) = keys)
    (hdistinct : keys.Nodup) (hbare : ∀ key ∈ keys, IsBare key) (hscalar : ∀ entry ∈ entries, IsScalar entry.2) :
    IsPlainTable entries := by
  subst hkeys
  exact ⟨List.pairwise_map.mp hdistinct, fun entry hentry => hbare _ (List.mem_map_of_mem hentry), hscalar⟩

structure IsPlainDocument (sections : List (String × Table)) : Prop where
  distinct : sections.Pairwise fun a b => a.1 ≠ b.1
  bare : ∀ part ∈ sections, IsBare part.1
  plain : ∀ part ∈ sections, IsPlainTable part.2

open Draft

theorem reads_entries {done : Table} {name : String} (hname : ∀ entry ∈ done, name ≠ entry.1) (rest : List Char) :
    ∀ {entries before : Table}, IsPlainTable (before ++ entries) →
      Reads (ofTables (done ++ [(name, .table before)]) [name]) ((String.join (entries.map entryLine)).toList ++ rest)
        (ofTables (done ++ [(name, .table (before ++ entries))]) [name]) rest
  | [], before, _ => by
    rw [List.append_nil]
    exact .refl _ _
  | (key, v) :: entries, before, h => by
    have hmem : (key, v) ∈ before ++ (key, v) :: entries := List.mem_append_right _ List.mem_cons_self
    have hnew : ∀ entry ∈ before, key ≠ entry.1 := fun entry hentry =>
      ((List.pairwise_append.mp h.distinct).2.2 entry hentry (key, v) List.mem_cons_self).symm
    have hfirst := reads_entry hname (h.bare _ hmem) hnew (h.scalar _ hmem)
      ((String.join (entries.map entryLine)).toList ++ rest)
    have hsplit : before ++ (key, v) :: entries = before ++ [(key, v)] ++ entries := by simp
    rw [hsplit] at h ⊢
    rw [List.map_cons, String.join_cons, String.toList_append, List.append_assoc]
    exact hfirst.trans (reads_entries hname rest h)

theorem toList_section (name : String) (entries : Table) (rest : List Char) : (section_ name entries).toList ++ rest =
    '[' :: (name.toList ++ ']' :: '\n' :: ((String.join (entries.map entryLine)).toList ++ rest)) := by
  rw [section_, String.toList_append, String.toList_append, String.toList_append, List.append_assoc, List.append_assoc,
    List.append_assoc]
  rfl

theorem reads_section {content : Table} (header : Key) {name : String} (hname : IsBare name)
    (hnew : ∀ entry ∈ content, name ≠ entry.1) {entries : Table} (h : IsPlainTable entries) (rest : List Char) :
    Reads (ofTables content header) ((section_ name entries).toList ++ rest)
      (ofTables (content ++ [(name, .table entries)]) [name]) rest := by
  rw [toList_section]
  exact (reads_header hname hnew _).trans (reads_entries hnew rest h)

def tables (sections : List (String × Table)) : Table := sections.map fun part => (part.1, .table part.2)

theorem document_singleton (name : String) (entries : Table) :
    document [(name, entries)] = section_ name entries := String.intercalate_singleton

theorem document_cons_cons (name : String) (entries : Table) (next : String × Table) (sections : List (String × Table)) :
    document ((name, entries) :: next :: sections) = section_ name entries ++ "\n" ++ document (next :: sections) :=
  String.intercalate_cons_cons

/-- A document is read to its end, behind whatever tables. -/
theorem reads_document (done : List (String × Table)) (header : Key) : ∀ {sections : List (String × Table)},
    IsPlainDocument (done ++ sections) → ∃ last, Reads (ofTables (tables done) header) (document sections).toList
      (ofTables (tables (done ++ sections)) last) []
  | [], _ => ⟨header, by rw [List.append_nil]; exact .refl _ _⟩
  | (name, entries) :: sections, h => by
    have hmem : (name, entries) ∈ done ++ (name, entries) :: sections := List.mem_append_right _ List.mem_cons_self
    have hnew : ∀ entry ∈ tables done, name ≠ entry.1 := by
      intro entry hentry
      obtain ⟨part, hpart, rfl⟩ := List.mem_map.mp hentry
      exact ((List.pairwise_append.mp h.distinct).2.2 part hpart _ List.mem_cons_self).symm
    -- the header moves on by one section, which joins those that are done
    have hfirst (rest : List Char) := reads_section header (h.bare _ hmem) hnew (h.plain _ hmem) rest
    have htables : tables done ++ [(name, .table entries)] = tables (done ++ [(name, entries)]) := by simp [tables]
    rw [htables] at hfirst
    cases sections with
    | nil =>
      refine ⟨[name], ?_⟩
      have hlast := hfirst []
      rw [List.append_nil] at hlast
      rw [document_singleton]
      exact hlast
    | cons next sections =>
      have hsplit : done ++ (name, entries) :: next :: sections = done ++ [(name, entries)] ++ next :: sections := by simp
      rw [hsplit] at h ⊢
      obtain ⟨last, hrest⟩ := reads_document (done ++ [(name, entries)]) [name] h
      refine ⟨last, ?_⟩
      rw [document_cons_cons, String.toList_append, String.toList_append, List.append_assoc]
      exact (hfirst _).trans ((reads_blank _ _).trans hrest)

/-! ## Line ends -/

theorem plainLineEnds_of_notMem : ∀ {cs : List Char}, '\r' ∉ cs → plainLineEnds cs = cs
  | [], _ => rfl
  | c :: cs, h => by
    obtain ⟨hc, hcs⟩ := not_or.mp (mt List.mem_cons.mpr h)
    rw [plainLineEnds]
    · rw [plainLineEnds_of_notMem hcs]
    · intro more heq
      exact absurd heq.symm hc

theorem IsBare.return_notMem {name : String} (h : IsBare name) : '\r' ∉ name.toList := fun hreturn =>
  absurd (h.chars _ hreturn) (by decide)

theorem return_notMem_entryLine {key : String} (hkey : IsBare key) {v : Toml} (hv : IsScalar v) :
    '\r' ∉ (entryLine (key, v)).toList := by
  have hline := toList_entryLine key v []
  rw [List.append_nil] at hline
  rw [hline]
  simp [hkey.return_notMem, return_notMem_written hv]

theorem return_notMem_section {name : String} (hname : IsBare name) {entries : Table} (h : IsPlainTable entries) :
    '\r' ∉ (section_ name entries).toList := by
  have hlines : '\r' ∉ (String.join (entries.map entryLine)).toList := by
    rw [String.toList_join, List.mem_flatMap]
    rintro ⟨line, hline, hreturn⟩
    obtain ⟨entry, hentry, rfl⟩ := List.mem_map.mp hline
    exact return_notMem_entryLine (h.bare entry hentry) (h.scalar entry hentry) hreturn
  have hsection := toList_section name entries []
  rw [List.append_nil] at hsection
  rw [hsection]
  simp only [List.mem_cons, List.mem_append, List.append_nil, hname.return_notMem, hlines, or_false, false_or]
  decide

theorem return_notMem_document : ∀ {sections : List (String × Table)}, (∀ part ∈ sections, IsBare part.1) →
    (∀ part ∈ sections, IsPlainTable part.2) → '\r' ∉ (document sections).toList
  | [], _, _ => by decide
  | (name, entries) :: sections, hbare, hplain => by
    obtain ⟨hname, hbare⟩ := List.forall_mem_cons.mp hbare
    obtain ⟨hentries, hplain⟩ := List.forall_mem_cons.mp hplain
    have hfirst := return_notMem_section hname hentries
    cases sections with
    | nil =>
      rw [document_singleton]
      exact hfirst
    | cons next sections =>
      rw [document_cons_cons, String.toList_append, String.toList_append, List.mem_append, List.mem_append, not_or, not_or]
      exact ⟨⟨hfirst, by decide⟩, return_notMem_document hbare hplain⟩

theorem read_document {sections : List (String × Table)} (h : IsPlainDocument sections) :
    read (document sections).toList = .ok (tables sections) := by
  obtain ⟨last, hreads⟩ := reads_document [] [] h
  have hlines := hreads.lines_end (Nat.lt_succ_self _)
  rw [read, plainLineEnds_of_notMem (return_notMem_document h.bare h.plain), readTable]
  exact congrArg (Except.mapError _) hlines

end NoteQuery.Toml

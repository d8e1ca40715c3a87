import NoteQuery.Index.Run
import NoteQuery.Proofs.Fallible
import NoteQuery.Proofs.Index.Call
import NoteQuery.Proofs.Index.Row
import NoteQuery.Proofs.Index.Rows

/-!
# What indexing runs leave

A run drops records and then puts in the records of notes, one after the other, so that what it
leaves at a path is known from the path's note and from what was there before.
-/

namespace NoteQuery

open Index (rowAt Keyed)

namespace Note

/-- The record that is stored for a note, if there is one. -/
def built [Yaml.Loader] (path : String) (content : List UInt8) : Option Record :=
  match toRecord path content with
  | .ok r => (Index.stored r).toOption
  | .error _ => none

theorem built_of_toRecord [Yaml.Loader] {path : String} {content : List UInt8} {r s : Record}
    (hr : toRecord path content = .ok r)
    (hs : Index.stored r = .ok s) : built path content = some s := by
  rw [built, hr]
  dsimp only
  rw [hs]
  rfl

theorem toRecord_of_built [Yaml.Loader] {path : String} {content : List UInt8} {s : Record}
    (h : built path content = some s) :
    ∃ r, toRecord path content = .ok r ∧ Index.stored r = .ok s := by
  rw [built] at h
  cases hr : toRecord path content with
  | error fault => rw [hr] at h; cases h
  | ok r =>
    rw [hr] at h
    dsimp only at h
    cases hs : Index.stored r with
    | error fault => rw [hs] at h; cases h
    | ok s' =>
      rw [hs] at h
      obtain rfl := Option.some.inj h
      exact ⟨r, rfl, hs⟩

theorem path_and_sha_of_toRecord [Yaml.Loader] {path : String} {content : List UInt8} {r : Record}
    (h : toRecord path content = .ok r) : r.path = path ∧ r.sha = contentHash content := by
  rw [toRecord] at h
  obtain ⟨text, -, h⟩ := bind_eq_ok h
  obtain ⟨entries, -, h⟩ := bind_eq_ok h
  dsimp only at h
  split at h
  · cases h
  · obtain rfl := Except.ok.inj h
    exact ⟨rfl, rfl⟩

end Note

namespace Index

theorem stored_eq_ok {r s : Record} (h : stored r = .ok s) :
    ∃ frontMatter, Value.storedEntries r.frontMatter = .ok frontMatter ∧ s = { r with frontMatter } := by
  rw [stored_eq] at h
  cases hentries : Value.storedEntries r.frontMatter with
  | error cause => rw [hentries] at h; cases h
  | ok frontMatter =>
    rw [hentries] at h
    exact ⟨frontMatter, rfl, (Except.ok.inj h).symm⟩

end Index

namespace Note

def Fails [Yaml.Loader] (path : String) (content : List UInt8) : Prop := ∃ fault, toRecord path content = .error fault

theorem built_of_fails [Yaml.Loader] {path : String} {content : List UInt8} (h : Fails path content) :
    built path content = none := by
  obtain ⟨fault, hr⟩ := h
  rw [built, hr]

theorem path_and_sha_of_built [Yaml.Loader] {path : String} {content : List UInt8} {s : Record}
    (h : built path content = some s) :
    s.path = path ∧ s.sha = contentHash content := by
  obtain ⟨r, hr, hs⟩ := toRecord_of_built h
  obtain ⟨frontMatter, -, rfl⟩ := Index.stored_eq_ok hs
  exact ⟨(path_and_sha_of_toRecord hr).1, (path_and_sha_of_toRecord hr).2⟩

end Note

namespace IndexRun

/-! ## One note -/

def addRow [Yaml.Loader] (key : VaultKey) (rows : List (VaultKey × Record)) (note : String × List UInt8) :
    List (VaultKey × Record) :=
  match Note.built note.1 note.2 with
  | some r => Index.put key r rows
  | none => rows

theorem keyed_addRow [Yaml.Loader] {rows : List (VaultKey × Record)} (h : Keyed rows) (key : VaultKey)
    (note : String × List UInt8) :
    Keyed (addRow key rows note) := by
  rw [addRow]
  split
  · exact Index.keyed_put h key _
  · exact h

theorem rowAt_addRow [Yaml.Loader] (key : VaultKey) (rows : List (VaultKey × Record)) (note : String × List UInt8)
    (other : VaultKey)
    (path : String) : rowAt (addRow key rows note) other path =
      if key = other ∧ note.1 = path then (Note.built note.1 note.2).or (rowAt rows other path)
      else rowAt rows other path := by
  rw [addRow]
  cases hbuilt : Note.built note.1 note.2 with
  | none => exact (ite_self _).symm
  | some r =>
    dsimp only
    rw [Index.rowAt_put, (Note.path_and_sha_of_built hbuilt).1]
    rfl

/-- An index that has the records of another, and is open if that one is. -/
structure SameRecords (x y : Index) : Prop where
  rows : y.rows = x.rows
  isOpen : y.isOpen = x.isOpen

theorem SameRecords.of_changeStatus {x y : Index} {key : VaultKey} {change : IndexStatus → IndexStatus}
    {status : IndexStatus} (h : x.changeStatus key change = .ok (status, y)) : SameRecords x y := by
  rw [Index.changeStatus] at h
  obtain ⟨old, -, h⟩ := bind_eq_ok h
  obtain ⟨-, rfl⟩ := Prod.mk.inj (Except.ok.inj h)
  exact ⟨rfl, rfl⟩

theorem sameRecords_withStatus (key : VaultKey) (change : IndexStatus → IndexStatus) (x : Index) :
    SameRecords x (withStatus key change x) := by
  rw [withStatus]
  split
  · rename_i hchange
    exact .of_changeStatus hchange
  · exact ⟨rfl, rfl⟩

theorem sameRecords_noteProgress (key : VaultKey) (position : Nat) (p : Progress) :
    SameRecords p.index (noteProgress key position p).index := by
  rw [noteProgress]
  split
  · split
    · rename_i hchange
      exact .of_changeStatus hchange
    · exact ⟨rfl, rfl⟩
  · exact ⟨rfl, rfl⟩

theorem upsert_eq_ok {x y : Index} {key : VaultKey} {r : Record} (h : x.upsert key r = .ok y) :
    ∃ s, Index.stored r = .ok s ∧ y = { x with rows := Index.put key s x.rows } := by
  rw [Index.upsert, Index.upsertMany_eq, List.mapM_cons, List.mapM_nil] at h
  obtain ⟨result, hresult, rfl⟩ := map_eq_ok h
  obtain ⟨written, hwritten, hresult⟩ := bind_eq_ok hresult
  obtain ⟨s, hs, hwritten⟩ := bind_eq_ok hwritten
  obtain rfl := Except.ok.inj hwritten
  obtain ⟨-, -, hresult⟩ := bind_eq_ok hresult
  obtain rfl := Except.ok.inj hresult
  exact ⟨s, hs, rfl⟩

theorem addNote_eq_ok [Yaml.Loader] {key : VaultKey} {note : String × List UInt8} {p q : Progress}
    (h : addNote key note p = .ok q) :
    q.index = { p.index with rows := addRow key p.index.rows note } ∧
      (Note.built note.1 note.2 = none → ∃ fault, Note.toRecord note.1 note.2 = .error fault) := by
  rw [addNote] at h
  cases hr : Note.toRecord note.1 note.2 with
  | ok r =>
    rw [hr] at h
    dsimp only at h
    cases hupsert : p.index.upsert key r with
    | error fault => rw [hupsert] at h; cases h
    | ok y =>
      rw [hupsert] at h
      obtain rfl := Except.ok.inj h
      -- what is written is the stored form, which is what `built` says of the note
      obtain ⟨s, hs, rfl⟩ := upsert_eq_ok hupsert
      have hbuilt := Note.built_of_toRecord hr hs
      refine ⟨?_, fun hnone => ?_⟩
      · rw [addRow, hbuilt]
      · rw [hnone] at hbuilt
        cases hbuilt
  | error fault =>
    have hbuilt : Note.built note.1 note.2 = none := by
      rw [Note.built, hr]
    rw [hr] at h
    dsimp only at h
    split at h
    · obtain rfl := Except.ok.inj h
      refine ⟨?_, fun _ => ⟨fault, rfl⟩⟩
      rw [addRow, hbuilt]
    · cases h

/-! ## All notes -/

theorem addNotes_spec [Yaml.Loader] (key : VaultKey) : ∀ (notes : List (String × List UInt8)) (position : Nat)
    (p : Progress),
    ∃ done, done <+: notes ∧ (addNotes key position notes p).1.index.isOpen = p.index.isOpen ∧
      (addNotes key position notes p).1.index.rows = done.foldl (addRow key) p.index.rows ∧
      ((addNotes key position notes p).2 = none → done = notes ∧ ∀ note ∈ notes,
        Note.built note.1 note.2 = none → ∃ fault, Note.toRecord note.1 note.2 = .error fault)
  | [], position, p => ⟨[], List.prefix_rfl, rfl, rfl, fun _ => ⟨rfl, fun _ hmem => nomatch hmem⟩⟩
  | note :: notes, position, p => by
    rw [addNotes]
    cases h : addNote key note p with
    | error fault => exact ⟨[], List.nil_prefix, rfl, rfl, fun hnone => nomatch hnone⟩
    | ok q =>
      obtain ⟨hindex, hfault⟩ := addNote_eq_ok h
      have hprogress := sameRecords_noteProgress key position q
      -- the progress that is noted in between touches no row
      obtain ⟨done, hdone, hopen, hrows, hall⟩ := addNotes_spec key notes (position + 1) (noteProgress key position q)
      refine ⟨note :: done, List.cons_prefix_cons.mpr ⟨rfl, hdone⟩, ?_, ?_, fun hnone => ?_⟩
      · rw [hopen, hprogress.isOpen, hindex]
      · rw [hrows, hprogress.rows, hindex]
        rfl
      · obtain ⟨rfl, hfaults⟩ := hall hnone
        refine ⟨rfl, fun other hother => ?_⟩
        rcases List.mem_cons.mp hother with rfl | hother
        · exact hfault
        · exact hfaults other hother

theorem rowAt_foldl_addRow [Yaml.Loader] (key other : VaultKey) (path : String) : ∀ {notes : List (String × List UInt8)}
    {rows : List (VaultKey × Record)}, notes.Pairwise (fun a b => a.1 ≠ b.1) →
      rowAt (notes.foldl (addRow key) rows) other path =
        if key = other then ((notes.lookup path).bind (Note.built path)).or (rowAt rows other path)
        else rowAt rows other path
  | [], rows, _ => (ite_self _).symm
  | (name, content) :: notes, rows, h => by
    obtain ⟨hhead, htail⟩ := List.pairwise_cons.mp h
    rw [List.foldl_cons, rowAt_foldl_addRow key other path htail, rowAt_addRow, List.lookup_cons]
    by_cases hkey : key = other
    · rw [if_pos hkey, if_pos hkey]
      by_cases hname : name = path
      · subst hname
        rw [if_pos ⟨hkey, rfl⟩, lookup_eq_none hhead, beq_self_eq_true]
        rfl
      · rw [if_neg fun hat => hname hat.2, beq_false_of_ne (Ne.symm hname)]
    · rw [if_neg hkey, if_neg hkey, if_neg fun hat => hkey hat.1]

/-! ## Dropped records -/

structure Dropped (rebuild : Bool) (key : VaultKey) (paths : List String) (x : Index) (known : List (String × String))
    (y : Index) : Prop where
  rows : ∃ keep, y.rows = x.rows.filter keep
  isOpen : y.isOpen = x.isOpen
  rowAt_of_mem : ∀ path ∈ paths, rowAt y.rows key path = if rebuild = true then none else rowAt x.rows key path
  rowAt_of_not_mem : ∀ path ∉ paths, rowAt y.rows key path = none
  known : ∀ path, known.lookup path = if rebuild = true then none else (rowAt x.rows key path).map (·.sha)

theorem lookup_hashes {x : Index} (h : Keyed x.rows) (key : VaultKey) (path : String) :
    ((x.recordsOf key).map fun r => (r.path, r.sha)).lookup path = (rowAt x.rows key path).map (·.sha) := by
  rw [← Index.find?_recordsOf h]
  induction x.recordsOf key with
  | nil => rfl
  | cons r rs ih =>
    rw [List.map_cons, List.lookup_cons, List.find?_cons, ih, BEq.comm]
    cases r.path == path <;> rfl

theorem hashes_eq_ok {x : Index} {key : VaultKey} {hashes : List (String × String)} (h : x.hashes key = .ok hashes) :
    (x.recordsOf key).map (fun r => (r.path, r.sha)) = hashes := by
  rw [Index.hashes] at h
  obtain ⟨rs, hrs, h⟩ := bind_eq_ok h
  rw [Index.listAll] at hrs
  obtain ⟨-, -, hrs⟩ := bind_eq_ok hrs
  rw [← Except.ok.inj hrs] at h
  exact Except.ok.inj h

theorem dropped_rebuild {x y : Index} {key : VaultKey} {paths : List String} {known : List (String × String)} {n : Nat}
    (h : drop true key paths x = .ok (known, n, y)) : Dropped true key paths x known y := by
  rw [drop, if_pos rfl] at h
  obtain ⟨result, hresult, h⟩ := bind_eq_ok h
  rw [Index.deleteAll_eq] at hresult
  obtain ⟨-, -, hresult⟩ := bind_eq_ok hresult
  obtain rfl := Except.ok.inj hresult
  obtain ⟨rfl, hrest⟩ := Prod.mk.inj (Except.ok.inj h)
  obtain ⟨-, rfl⟩ := Prod.mk.inj hrest
  have hgone : ∀ path, rowAt (x.rows.filter (·.1 != key)) key path = none := by
    intro path
    rw [Index.rowAt_filter fun k _ => k != key]
    simp
  exact {
    rows := ⟨_, rfl⟩
    isOpen := rfl
    rowAt_of_mem := fun path _ => hgone path
    rowAt_of_not_mem := fun path _ => hgone path
    known := fun _ => rfl }

theorem deleteMany_eq_ok {x y : Index} {key : VaultKey} {paths : List String} {n : Nat}
    (h : x.deleteMany key paths = .ok (n, y)) :
    y = { x with rows := x.rows.filter fun row => !(row.1 == key && paths.contains row.2.path) } := by
  rw [Index.deleteMany_eq] at h
  cases paths with
  | nil =>
    obtain ⟨-, rfl⟩ := Prod.mk.inj (Except.ok.inj h)
    simp
  | cons p paths =>
    obtain ⟨-, -, h⟩ := bind_eq_ok h
    exact (Prod.mk.inj (Except.ok.inj h)).2.symm

theorem dropped_refresh {x y : Index} {key : VaultKey} {paths : List String} {known : List (String × String)} {n : Nat}
    (hkeyed : Keyed x.rows) (h : drop false key paths x = .ok (known, n, y)) : Dropped false key paths x known y := by
  rw [drop, if_neg Bool.false_ne_true] at h
  obtain ⟨hashes, hhashes, h⟩ := bind_eq_ok h
  obtain ⟨⟨deleted, left⟩, hdelete, h⟩ := bind_eq_ok h
  obtain ⟨rfl, hrest⟩ := Prod.mk.inj (Except.ok.inj h)
  obtain ⟨-, rfl⟩ := Prod.mk.inj hrest
  obtain rfl := deleteMany_eq_ok hdelete
  have hlookup := lookup_hashes hkeyed key
  rw [hashes_eq_ok hhashes] at hlookup
  have hfilter := Index.rowAt_filter
    (fun k path => !(k == key && ((hashes.map (·.1)).filter (!paths.contains ·)).contains path)) x.rows key
  refine ⟨⟨_, rfl⟩, rfl, fun path hpath => ?_, fun path hpath => ?_, hlookup⟩
  · rw [hfilter, if_pos (by simp [hpath])]
    rfl
  · rw [hfilter]
    split
    · rename_i hkept
      -- a path that is kept has no hash, and so no record
      have hnot : path ∉ (hashes.map (·.1)).filter (!paths.contains ·) := by simpa using hkept
      have hnone : hashes.lookup path = none := by
        refine lookup_eq_none fun entry hentry => ?_
        rintro rfl
        exact hnot (List.mem_filter.mpr ⟨List.mem_map_of_mem hentry, by simpa using hpath⟩)
      rw [hlookup] at hnone
      exact Option.map_eq_none_iff.mp hnone
    · rfl

theorem dropped_drop {rebuild : Bool} {x y : Index} {key : VaultKey} {paths : List String}
    {known : List (String × String)} {n : Nat} (hkeyed : Keyed x.rows)
    (h : drop rebuild key paths x = .ok (known, n, y)) : Dropped rebuild key paths x known y := by
  cases rebuild with
  | true => exact dropped_rebuild h
  | false => exact dropped_refresh hkeyed h

/-! ## A run -/

def pending (known : List (String × String)) (notes : List (String × List UInt8)) : List (String × List UInt8) :=
  notes.filter (changeOf known · ≠ .unchanged)

theorem pending_eq (known : List (String × String)) (notes : List (String × List UInt8)) :
    ((notes.map fun note => (changeOf known note, note)).filter (·.1 ≠ .unchanged)).map (·.2) = pending known notes := by
  rw [List.filter_map, List.map_map]
  exact List.map_id' _

/-- A run drops records and puts in the records of some first ones of the notes that it reads. If it
returns it has put in all. -/
theorem run_spec [Yaml.Loader] {rebuild : Bool} {key : VaultKey} {now : String} {notes : List (String × List UInt8)}
    {x : Index} :
    (∃ fault, run rebuild key now notes x = ⟨x, [], .error (.index fault)⟩) ∨
    ∃ known n opened done, drop rebuild key (notes.map (·.1)) x = .ok (known, n, opened) ∧
      done <+: pending known notes ∧ (run rebuild key now notes x).index.isOpen = opened.isOpen ∧
      (run rebuild key now notes x).index.rows = done.foldl (addRow key) opened.rows ∧
      ∀ report, (run rebuild key now notes x).outcome = .ok report → done = pending known notes ∧
        ∀ note ∈ pending known notes,
          Note.built note.1 note.2 = none → ∃ fault, Note.toRecord note.1 note.2 = .error fault := by
  rw [run]
  cases hdrop : drop rebuild key (notes.map (·.1)) x with
  | error fault => exact Or.inl ⟨fault, rfl⟩
  | ok dropped =>
    obtain ⟨known, n, opened⟩ := dropped
    right
    dsimp only
    rw [pending_eq]
    obtain ⟨done, hdone, hopen, hrows, hall⟩ := addNotes_spec key (pending known notes) 1
      ⟨withStatus key (·.start (pending known notes).length now) opened, 0, 0, []⟩
    rw [(sameRecords_withStatus key _ opened).isOpen] at hopen
    rw [(sameRecords_withStatus key _ opened).rows] at hrows
    refine ⟨known, n, opened, done, rfl, hdone, ?_⟩
    -- the closing change of status touches no row
    generalize addNotes key 1 (pending known notes) _ = result at hopen hrows hall ⊢
    obtain ⟨p, fault⟩ := result
    cases fault with
    | some fault =>
      have hend := sameRecords_withStatus key (·.fail fault.message now) p.index
      exact ⟨hend.isOpen.trans hopen, hend.rows.trans hrows, fun _ hreport => nomatch hreport⟩
    | none =>
      have hend := sameRecords_withStatus key (·.complete p.indexed p.failed now) p.index
      exact ⟨hend.isOpen.trans hopen, hend.rows.trans hrows, fun _ _ => hall rfl⟩

theorem isOpen_run [Yaml.Loader] {x : Index} (hkeyed : Keyed x.rows) (rebuild : Bool) (key : VaultKey) (now : String)
    (notes : List (String × List UInt8)) : (run rebuild key now notes x).index.isOpen = x.isOpen := by
  rcases run_spec with ⟨fault, heq⟩ | ⟨known, n, opened, done, hdrop, -, hopen, -, -⟩
  · rw [heq]
  · rw [hopen, (dropped_drop hkeyed hdrop).isOpen]

theorem keyed_run [Yaml.Loader] {x : Index} (hkeyed : Keyed x.rows) (rebuild : Bool) (key : VaultKey) (now : String)
    (notes : List (String × List UInt8)) : Keyed (run rebuild key now notes x).index.rows := by
  rcases run_spec with ⟨fault, heq⟩ | ⟨known, n, opened, done, hdrop, -, -, hrows, -⟩
  · rw [heq]
    exact hkeyed
  · obtain ⟨keep, hkeep⟩ := (dropped_drop hkeyed hdrop).rows
    rw [hrows, hkeep]
    exact List.foldlRecOn done _ (Index.keyed_filter hkeyed keep) fun rows hrows note _ => keyed_addRow hrows key note

/-! ## Open indexes -/

theorem exists_drop {x : Index} (hopen : x.isOpen = true) (rebuild : Bool) (key : VaultKey) (paths : List String) :
    ∃ known n y, drop rebuild key paths x = .ok (known, n, y) := by
  have hcheck : x.checkOpen = .ok () := if_pos hopen
  cases rebuild with
  | true =>
    rw [drop, if_pos rfl, Index.deleteAll_eq, hcheck]
    exact ⟨_, _, _, rfl⟩
  | false =>
    rw [drop, if_neg Bool.false_ne_true, Index.hashes, Index.listAll, hcheck]
    change ∃ known n y, (x.deleteMany key _ >>= fun result => Except.ok (_, result)) = Except.ok (known, n, y)
    generalize List.filter _ _ = gone
    rw [Index.deleteMany_eq, hcheck]
    cases gone with
    | nil => exact ⟨_, _, _, rfl⟩
    | cons path gone => exact ⟨_, _, _, rfl⟩

theorem lookup_withStatus {x : Index} (hopen : x.isOpen = true) (key : VaultKey) (change : IndexStatus → IndexStatus) :
    (withStatus key change x).statuses.lookup key = some (change ((x.statuses.lookup key).getD .initial)) := by
  have hcheck : x.checkOpen = .ok () := if_pos hopen
  rw [withStatus, Index.changeStatus, Index.status?, hcheck]
  exact List.lookup_cons_self

end IndexRun

end NoteQuery

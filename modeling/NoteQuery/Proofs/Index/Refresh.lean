import Mathlib.Data.Set.Function
import NoteQuery.Proofs.Folder.Notes
import NoteQuery.Proofs.Index.Run
import NoteQuery.Yaml.Content

/-!
# Refreshes and rebuilds

A rebuild leaves the records that the notes of a folder have now. A refresh leaves them too where a
note can be read, but where it cannot it leaves the record that was there. That no content is passed
over as unchanged rests on an invariant of the index, that each record is one that some content has,
and on hashes that tell these contents apart.
-/

namespace NoteQuery

open Index (rowAt Keyed)
open Note (built contentHash)

/-- Each record is the one that a content among `C` has at its path, as it is read with one of the loaders. -/
structure Sound (loaders : Set Yaml.Loader) (C : Set (List UInt8)) (rows : List (VaultKey × Record)) : Prop where
  keyed : Keyed rows
  built : ∀ row ∈ rows, ∃ loader ∈ loaders, ∃ content ∈ C, @Note.built loader row.2.path content = some row.2

/-- The indexes that runs lead to from an empty one, over tidy folders whose notes have contents
among `C`, whether the runs return or are cut short. Each run reads with a loader of its own. -/
inductive Reached (loaders : Set Yaml.Loader) (C : Set (List UInt8)) : Index → Prop
  | empty (location : String) : Reached loaders C (Index.empty location)
  | run {x : Index} {f : Folder} (loader : Yaml.Loader) (rebuild : Bool) (key : VaultKey) (now : String) :
      Reached loaders C x → loader ∈ loaders → Folder.Tidy f → (∀ note ∈ f.notes, note.2 ∈ C) →
        Reached loaders C (IndexRun.run rebuild key now f.notes x).index

/-- All loaders make of a note what this one makes of it. -/
def ReadAlike [Yaml.Loader] (loaders : Set Yaml.Loader) (note : String × List UInt8) : Prop :=
  ∀ loader ∈ loaders, @Note.built loader note.1 note.2 = Note.built note.1 note.2

theorem readAlike_self [loader : Yaml.Loader] (note : String × List UInt8) : ReadAlike {loader} note := by
  intro other hother
  rw [Set.mem_singleton_iff.mp hother]

namespace Sound

variable {loaders : Set Yaml.Loader} {C : Set (List UInt8)} {rows : List (VaultKey × Record)}

theorem filter (h : Sound loaders C rows) (keep : VaultKey × Record → Bool) : Sound loaders C (rows.filter keep) :=
  ⟨Index.keyed_filter h.keyed keep, fun row hrow => h.built row (List.mem_of_mem_filter hrow)⟩

theorem addRow [loader : Yaml.Loader] (h : Sound loaders C rows) (hloader : loader ∈ loaders) (key : VaultKey)
    {note : String × List UInt8} (hnote : note.2 ∈ C) : Sound loaders C (IndexRun.addRow key rows note) := by
  refine ⟨IndexRun.keyed_addRow h.keyed key note, fun row hrow => ?_⟩
  rw [IndexRun.addRow] at hrow
  cases hbuilt : Note.built note.1 note.2 with
  | none =>
    rw [hbuilt] at hrow
    exact h.built row hrow
  | some r =>
    rw [hbuilt] at hrow
    rcases List.mem_append.mp hrow with hrow | hrow
    · exact h.built row (List.mem_of_mem_filter hrow)
    · obtain rfl := List.mem_singleton.mp hrow
      have hpath := (Note.path_and_sha_of_built hbuilt).1
      exact ⟨loader, hloader, note.2, hnote, by rw [hpath, hbuilt]⟩

theorem foldl_addRow [loader : Yaml.Loader] (hloader : loader ∈ loaders) (key : VaultKey) :
    ∀ {notes : List (String × List UInt8)} {rows : List (VaultKey × Record)}, Sound loaders C rows →
      (∀ note ∈ notes, note.2 ∈ C) → Sound loaders C (notes.foldl (IndexRun.addRow key) rows)
  | [], rows, h, hnotes => h
  | note :: notes, rows, h, hnotes => by
    have hrest : ∀ other ∈ notes, other.2 ∈ C := fun other hother => hnotes other (List.mem_cons_of_mem _ hother)
    rw [List.foldl_cons]
    exact foldl_addRow hloader key (h.addRow hloader key (hnotes note List.mem_cons_self)) hrest

theorem run [loader : Yaml.Loader] {x : Index} {notes : List (String × List UInt8)} (h : Sound loaders C x.rows)
    (hloader : loader ∈ loaders) (hnotes : ∀ note ∈ notes, note.2 ∈ C) (rebuild : Bool) (key : VaultKey) (now : String) :
    Sound loaders C (IndexRun.run rebuild key now notes x).index.rows := by
  rcases IndexRun.run_spec with ⟨fault, heq⟩ | ⟨known, n, opened, done, hdrop, hdone, -, hrows, -⟩
  · rw [heq]
    exact h
  · obtain ⟨keep, hkeep⟩ := (IndexRun.dropped_drop h.keyed hdrop).rows
    rw [hrows, hkeep]
    refine foldl_addRow hloader key (h.filter keep) fun note hnote => hnotes note ?_
    exact List.mem_of_mem_filter (hdone.subset hnote)

theorem exists_built (h : Sound loaders C rows) (hC : C.InjOn contentHash) {key : VaultKey} {path : String}
    {content : List UInt8} (hcontent : content ∈ C)
    (hsha : (rowAt rows key path).map (·.sha) = some (contentHash content)) :
    ∃ loader ∈ loaders, ∃ r, rowAt rows key path = some r ∧ @Note.built loader path content = some r := by
  obtain ⟨r, hr, hrsha⟩ := Option.map_eq_some_iff.mp hsha
  obtain ⟨hmem, rfl⟩ := Index.mem_of_rowAt hr
  obtain ⟨loader, hloader, other, hother, hbuilt⟩ := h.built (key, r) hmem
  have hsame : other = content := by
    refine hC hother hcontent ?_
    rw [← hrsha, ← (@Note.path_and_sha_of_built loader _ _ _ hbuilt).2]
  exact ⟨loader, hloader, r, hr, hsame ▸ hbuilt⟩

theorem rowAt_eq_built [Yaml.Loader] (h : Sound loaders C rows) (hC : C.InjOn contentHash) {key : VaultKey}
    {note : String × List UInt8} (hnote : note.2 ∈ C) (halike : ReadAlike loaders note)
    (hsha : (rowAt rows key note.1).map (·.sha) = some (contentHash note.2)) :
    rowAt rows key note.1 = Note.built note.1 note.2 := by
  obtain ⟨loader, hloader, r, hr, hbuilt⟩ := h.exists_built hC hnote hsha
  rw [hr, ← hbuilt, halike loader hloader]

end Sound

section
variable {loaders : Set Yaml.Loader} {C : Set (List UInt8)} {x : Index}

theorem Reached.sound (h : Reached loaders C x) : Sound loaders C x.rows := by
  induction h with
  | empty location => exact ⟨List.Pairwise.nil, fun _ hrow => nomatch hrow⟩
  | run loader rebuild key now _ hloader _ hnotes ih => exact ih.run hloader hnotes rebuild key now

theorem Reached.isOpen (h : Reached loaders C x) : x.isOpen = true := by
  induction h with
  | empty location => rfl
  | run loader rebuild key now hx _ _ _ ih => rw [IndexRun.isOpen_run hx.sound.keyed, ih]

end

namespace IndexRun

variable {key : VaultKey} {now : String} {notes : List (String × List UInt8)} {x : Index} {report : IndexReport}
  {loaders : Set Yaml.Loader} {C : Set (List UInt8)}

theorem changeOf_ne_unchanged {known : List (String × String)} {path : String} {content : List UInt8} :
    changeOf known (path, content) ≠ .unchanged ↔ known.lookup path ≠ some (contentHash content) := by
  rw [changeOf]
  cases known.lookup path with
  | none => simp
  | some hash => by_cases hhash : hash = contentHash content <;> simp [hhash]

theorem lookup_pending (hnotes : notes.Pairwise fun a b => a.1 ≠ b.1) (known : List (String × String)) (path : String) :
    (pending known notes).lookup path =
      (notes.lookup path).filter fun content => known.lookup path ≠ some (contentHash content) := by
  rw [pending, lookup_filter_of_distinct path _ hnotes]
  simp only [changeOf_ne_unchanged]

theorem rowAt_run [Yaml.Loader] {rebuild : Bool} (hkeyed : Keyed x.rows) (hnotes : notes.Pairwise fun a b => a.1 ≠ b.1)
    (h : (run rebuild key now notes x).outcome = .ok report) (path : String) :
    rowAt (run rebuild key now notes x).index.rows key path = (notes.lookup path).bind fun content =>
      if rebuild = true then built path content
      else if (rowAt x.rows key path).map (·.sha) = some (contentHash content) then rowAt x.rows key path
      else (built path content).or (rowAt x.rows key path) := by
  rcases run_spec with ⟨fault, heq⟩ | ⟨known, n, opened, done, hdrop, -, -, hrows, hall⟩
  · rw [heq] at h
    cases h
  -- the rows are those that the drop leaves, with the records of the notes that were read put over them
  have hdropped := dropped_drop hkeyed hdrop
  have hdistinct : (pending known notes).Pairwise fun a b => a.1 ≠ b.1 := hnotes.filter _
  rw [hrows, (hall report h).1, rowAt_foldl_addRow key key path hdistinct, if_pos rfl, lookup_pending hnotes]
  cases hlookup : notes.lookup path with
  | none =>
    have hnot : path ∉ notes.map (·.1) := by
      rintro hmem
      obtain ⟨note, hnote, rfl⟩ := List.mem_map.mp hmem
      rw [lookup_of_mem hnotes hnote] at hlookup
      cases hlookup
    rw [hdropped.rowAt_of_not_mem path hnot]
    rfl
  | some content =>
    have hmem : path ∈ notes.map (·.1) := List.mem_map_of_mem (mem_of_lookup hlookup)
    rw [hdropped.rowAt_of_mem path hmem, hdropped.known, Option.bind_some]
    cases rebuild with
    | true =>
      simp only [if_true, Option.or_none]
      rfl
    | false =>
      simp only [Bool.false_eq_true, if_false, Option.filter_some, decide_eq_true_eq, ne_eq, ite_not]
      split
      · rfl
      · rfl

theorem rowAt_rebuild [Yaml.Loader] (hkeyed : Keyed x.rows) (hnotes : notes.Pairwise fun a b => a.1 ≠ b.1)
    (h : (run true key now notes x).outcome = .ok report) (path : String) :
    rowAt (run true key now notes x).index.rows key path = (notes.lookup path).bind (built path) :=
  rowAt_run hkeyed hnotes h path

theorem rowAt_refresh [Yaml.Loader] (hsound : Sound loaders C x.rows) (hC : C.InjOn contentHash)
    (hcontents : ∀ note ∈ notes, note.2 ∈ C) (halike : ∀ note ∈ notes, ReadAlike loaders note)
    (hnotes : notes.Pairwise fun a b => a.1 ≠ b.1) (h : (run false key now notes x).outcome = .ok report) (path : String) :
    rowAt (run false key now notes x).index.rows key path =
      (notes.lookup path).bind fun content => (built path content).or (rowAt x.rows key path) := by
  rw [rowAt_run hsound.keyed hnotes h path]
  refine Option.bind_congr fun content hlookup => ?_
  rw [if_neg Bool.false_ne_true]
  split
  · rename_i hsha
    have hmem := mem_of_lookup hlookup
    rw [← hsound.rowAt_eq_built hC (hcontents _ hmem) (halike _ hmem) hsha, Option.or_self]
  · rfl

theorem recordsOf_run [loader : Yaml.Loader] {rebuild : Bool} (hsound : Sound loaders C x.rows) (hC : C.InjOn contentHash)
    (hcontents : ∀ note ∈ notes, note.2 ∈ C) (halike : ∀ note ∈ notes, ReadAlike loaders note)
    (hnotes : notes.Pairwise fun a b => a.1 < b.1) (hbuilt : ∀ note ∈ notes, (built note.1 note.2).isSome = true)
    (h : (run rebuild key now notes x).outcome = .ok report) :
    (run rebuild key now notes x).index.recordsOf key = notes.filterMap fun note => built note.1 note.2 := by
  have hdistinct := ne_of_ascending hnotes
  have hrow : ∀ path, rowAt (run rebuild key now notes x).index.rows key path =
      (notes.lookup path).bind (built path) := by
    intro path
    cases rebuild with
    | true => exact rowAt_rebuild hsound.keyed hdistinct h path
    | false =>
      rw [rowAt_refresh hsound hC hcontents halike hdistinct h path]
      refine Option.bind_congr fun content hlookup => ?_
      exact Option.or_of_isSome (hbuilt (path, content) (mem_of_lookup hlookup))
  have hkeyed := keyed_run hsound.keyed rebuild key now notes
  have hascending : (notes.filterMap fun note => built note.1 note.2).Pairwise fun a b => a.path < b.path := by
    refine hnotes.filterMap _ fun a b hlt r hr s hs => ?_
    rw [(Note.path_and_sha_of_built hr).1, (Note.path_and_sha_of_built hs).1]
    exact hlt
  -- both lists go up by path, so that having the same records makes them the same list
  refine eq_of_ascending (Index.recordsOf_ascending hkeyed key) hascending fun r => ?_
  rw [Index.mem_recordsOf_iff hkeyed, hrow, Option.bind_eq_some_iff, List.mem_filterMap]
  constructor
  · rintro ⟨content, hlookup, hr⟩
    exact ⟨(r.path, content), mem_of_lookup hlookup, hr⟩
  · rintro ⟨note, hnote, hr⟩
    obtain ⟨hpath, -⟩ := Note.path_and_sha_of_built hr
    exact ⟨note.2, by rw [hpath, lookup_of_mem hdistinct hnote], by rw [hpath, hr]⟩

theorem fails_of_rebuild [Yaml.Loader] (hkeyed : Keyed x.rows) (h : (run true key now notes x).outcome = .ok report) :
    ∀ note ∈ notes, built note.1 note.2 = none → Note.Fails note.1 note.2 := by
  intro note hnote
  rcases run_spec with ⟨fault, heq⟩ | ⟨known, n, opened, done, hdrop, -, -, -, hall⟩
  · rw [heq] at h
    cases h
  · refine (hall report h).2 note (List.mem_filter.mpr ⟨hnote, decide_eq_true (changeOf_ne_unchanged.mpr ?_)⟩)
    rw [(dropped_drop hkeyed hdrop).known, if_pos rfl]
    exact Option.some_ne_none _ |>.symm

end IndexRun

/-! ## When a refresh is a rebuild -/

/-- A record that a refresh and a rebuild leave alike for a note: the note can still be read, and it is read as this
record if it has its hash. -/
def Note.Renews [Yaml.Loader] (note : String × List UInt8) (r : Record) : Prop :=
  ¬Fails note.1 note.2 ∧ (r.sha = contentHash note.2 → built note.1 note.2 = some r)

section
variable [Yaml.Loader] {x : Index} {key : VaultKey} {now later : String} {notes : List (String × List UInt8)}
  {refreshed rebuilt : IndexReport}

theorem rows_eq_iff_renews (hkeyed : Keyed x.rows) (hnotes : notes.Pairwise fun a b => a.1 ≠ b.1)
    (hrefresh : (IndexRun.run false key now notes x).outcome = .ok refreshed)
    (hrebuild : (IndexRun.run true key later notes x).outcome = .ok rebuilt) {note : String × List UInt8}
    (hnote : note ∈ notes) :
    rowAt (IndexRun.run false key now notes x).index.rows key note.1 =
        rowAt (IndexRun.run true key later notes x).index.rows key note.1 ↔
      ∀ r, rowAt x.rows key note.1 = some r → Note.Renews note r := by
  have hfails : built note.1 note.2 = none ↔ Note.Fails note.1 note.2 :=
    ⟨IndexRun.fails_of_rebuild hkeyed hrebuild note hnote, Note.built_of_fails⟩
  rw [IndexRun.rowAt_run hkeyed hnotes hrefresh, IndexRun.rowAt_run hkeyed hnotes hrebuild, lookup_of_mem hnotes hnote,
    Option.bind_some, Option.bind_some, if_neg Bool.false_ne_true, if_pos rfl]
  unfold Note.Renews
  rw [← hfails]
  cases hrow : rowAt x.rows key note.1 with
  | none => simp
  | some r =>
    simp only [Option.map_some, Option.some.injEq, forall_eq']
    -- with the hash of the note the old record stays, otherwise both runs read the note
    by_cases hsha : r.sha = contentHash note.2
    · rw [if_pos hsha, eq_comm]
      constructor
      · intro hsame
        exact ⟨by rw [hsame]; exact Option.some_ne_none r, fun _ => hsame⟩
      · intro hrenews
        exact hrenews.2 hsha
    · rw [if_neg hsha]
      cases built note.1 note.2 <;> simp [hsha]

/-- A refresh leaves what a rebuild leaves just if each record from before is renewed. -/
theorem refresh_eq_rebuild_iff {loaders : Set Yaml.Loader} {C : Set (List UInt8)} (hC : C.InjOn contentHash)
    (hx : Reached loaders C x) {f : Folder} (hf : Folder.Tidy f) (hcontents : ∀ note ∈ f.notes, note.2 ∈ C)
    (hrefresh : (IndexRun.run false key now f.notes x).outcome = .ok refreshed)
    (hrebuild : (IndexRun.run true key later f.notes x).outcome = .ok rebuilt) :
    ((IndexRun.run false key now f.notes x).index.recordsOf key =
        (IndexRun.run true key later f.notes x).index.recordsOf key ↔
      ∀ note ∈ f.notes, ∀ r ∈ x.recordsOf key, r.path = note.1 → Note.Renews note r) ∧
    ((∀ note ∈ f.notes, ReadAlike loaders note) →
      ((IndexRun.run false key now f.notes x).index.recordsOf key =
          (IndexRun.run true key later f.notes x).index.recordsOf key ↔
        ∀ note ∈ f.notes, Note.Fails note.1 note.2 → ∀ r ∈ x.recordsOf key, r.path ≠ note.1)) := by
  have hsound := hx.sound
  have hkeyed := hsound.keyed
  have hnotes : f.notes.Pairwise fun a b => a.1 ≠ b.1 := ne_of_ascending (Folder.notes_ascending hf)
  have hleft := IndexRun.keyed_run hkeyed false key now f.notes
  have hright := IndexRun.keyed_run hkeyed true key later f.notes
  have hrow : ∀ {path : String} {r : Record}, rowAt x.rows key path = some r ↔ r ∈ x.recordsOf key ∧ r.path = path := by
    intro path r
    rw [Index.rowAt_eq_some_iff hkeyed, Index.mem_recordsOf]
  have hsame : (IndexRun.run false key now f.notes x).index.recordsOf key =
        (IndexRun.run true key later f.notes x).index.recordsOf key ↔
      ∀ note ∈ f.notes, ∀ r ∈ x.recordsOf key, r.path = note.1 → Note.Renews note r := by
    constructor
    · intro heq note hnote r hr hpath
      -- the record of a path is the only one with it, so the lists can be compared path by path
      have hfind := congrArg (List.find? (·.path == note.1)) heq
      rw [Index.find?_recordsOf hleft, Index.find?_recordsOf hright] at hfind
      exact (rows_eq_iff_renews hkeyed hnotes hrefresh hrebuild hnote).mp hfind r (hrow.mpr ⟨hr, hpath⟩)
    · intro hrenews
      refine Index.recordsOf_congr hleft hright fun path => ?_
      cases hlookup : f.notes.lookup path with
      | none =>
        rw [IndexRun.rowAt_run hkeyed hnotes hrefresh, IndexRun.rowAt_run hkeyed hnotes hrebuild, hlookup]
        rfl
      | some content =>
        have hnote := mem_of_lookup hlookup
        refine (rows_eq_iff_renews hkeyed hnotes hrefresh hrebuild hnote).mpr fun r hr => ?_
        obtain ⟨hmem, hpath⟩ := hrow.mp hr
        exact hrenews _ hnote r hmem hpath
  -- where the loaders agree, a note with the hash of its record is read as that record
  refine ⟨hsame, fun halike => hsame.trans ?_⟩
  constructor
  · intro hrenews note hnote hfails r hr hpath
    exact (hrenews note hnote r hr hpath).1 hfails
  · intro hfresh note hnote r hr hpath
    refine ⟨fun hfails => hfresh note hnote hfails r hr hpath, fun hsha => ?_⟩
    have hat := hrow.mpr ⟨hr, hpath⟩
    rw [← hat, hsound.rowAt_eq_built hC (hcontents note hnote) (halike note hnote) (by rw [hat, Option.map_some, hsha])]

end

/-! ## Folders of one and of two notes -/

section

variable (first second : List UInt8)

theorem tidy_single : Folder.Tidy [("a.md", .file first)] := by
  simp [Folder.Tidy, Folder.TidyItem, Folder.Slashless]

theorem tidy_pair : Folder.Tidy [("a.md", .file first), ("b.md", .file second)] := by
  simp [Folder.Tidy, Folder.TidyItem, Folder.Slashless]

theorem public_pair : ∀ path ∈ ["a.md", "b.md"], Note.isPrivatePath path = false := by decide +kernel

theorem notes_single : Folder.notes [("a.md", .file first)] = [("a.md", first)] := by
  have hitems : Folder.notesOfItems "" [("a.md", .file first)] = [("a.md", first)] := by with_unfolding_all rfl
  refine Folder.notes_of_pairwise ?_ (List.pairwise_singleton _ _)
  rw [hitems]
  simp [public_pair]

theorem notes_pair : Folder.notes [("a.md", .file first), ("b.md", .file second)] =
    [("a.md", first), ("b.md", second)] := by
  have hitems : Folder.notesOfItems "" [("a.md", .file first), ("b.md", .file second)] =
      [("a.md", first), ("b.md", second)] := by with_unfolding_all rfl
  have horder : ("a.md" : String) ≤ "b.md" := by decide
  refine Folder.notes_of_pairwise ?_ (List.pairwise_pair.mpr horder)
  rw [hitems]
  simp [public_pair]

end

/-! ## A note that breaks -/

def homeVault : VaultKey := ⟨"u", "o", "r", "b"⟩

def soundNote : List UInt8 := Bytes.encodeUtf8 "Seen #once\n".toList

/-- A note whose front matter is no document. -/
def brokenNote : List UInt8 := Bytes.encodeUtf8 "---\nkey: [oops\n---\n".toList

def seenOnce : Index :=
  (IndexRun.run false homeVault "" (Folder.notes [("a.md", .file soundNote)]) (Index.empty "index")).index

theorem injOn_notes : Set.InjOn contentHash {soundNote, brokenNote} := by
  refine Set.injOn_pair.mpr fun hhash => ?_
  have hne : contentHash soundNote ≠ contentHash brokenNote := by decide +kernel
  exact absurd hhash hne

theorem reached_seenOnce : Reached {Yaml.standard} {soundNote, brokenNote} seenOnce := by
  refine .run Yaml.standard false homeVault "" (.empty "index") rfl (tidy_single soundNote) ?_
  simp [notes_single]

theorem outcome_of_toOption {r : IndexRun} {report : IndexReport} (h : r.outcome.toOption = some report) :
    r.outcome = .ok report := by
  cases hr : r.outcome with
  | error fault => rw [hr] at h; cases h
  | ok other =>
    rw [hr] at h
    exact congrArg Except.ok (Option.some.inj h)

/-- Beside a note that is known, a new one that cannot be read does no harm. -/
theorem refresh_eq_rebuild_seenOnce : Set.InjOn contentHash {soundNote, brokenNote} ∧
    Reached {Yaml.standard} {soundNote, brokenNote} seenOnce ∧
    Folder.notes [("a.md", .file soundNote), ("b.md", .file brokenNote)] = [("a.md", soundNote), ("b.md", brokenNote)] ∧
    (IndexRun.run false homeVault "" (Folder.notes [("a.md", .file soundNote), ("b.md", .file brokenNote)])
        seenOnce).index.recordsOf homeVault =
      (IndexRun.run true homeVault "" (Folder.notes [("a.md", .file soundNote), ("b.md", .file brokenNote)])
        seenOnce).index.recordsOf homeVault := by
  refine ⟨injOn_notes, reached_seenOnce, notes_pair soundNote brokenNote, ?_⟩
  refine ((refresh_eq_rebuild_iff injOn_notes reached_seenOnce (tidy_pair soundNote brokenNote) (by simp [notes_pair])
    (@outcome_of_toOption _ ⟨false, 2, 1, 0, 1, 0, 0, 1⟩ (by rw [notes_pair]; decide +kernel))
    (@outcome_of_toOption _ ⟨true, 2, 2, 0, 0, 0, 1, 1⟩ (by rw [notes_pair]; decide +kernel))).2
      fun note _ => readAlike_self note).mpr ?_
  rintro note hnote ⟨fault, hfault⟩ r hr hpath
  rw [notes_pair, List.mem_cons, List.mem_singleton] at hnote
  rcases hnote with rfl | rfl
  · have hread : (Note.toRecord "a.md" soundNote).toOption.isSome = true := by decide +kernel
    rw [hfault] at hread
    cases hread
  · have hpaths : (seenOnce.recordsOf homeVault).map (·.path) = ["a.md"] := by decide +kernel
    have hmem := List.mem_map_of_mem (f := (·.path)) hr
    rw [hpaths, List.mem_singleton, hpath] at hmem
    revert hmem
    decide

theorem refresh_ne_rebuild : ¬∀ (C : Set (List UInt8)) (x : Index) (f : Folder) (key : VaultKey) (now later : String)
    (refreshed rebuilt : IndexReport), C.InjOn contentHash → Reached {Yaml.standard} C x → Folder.Tidy f →
      (∀ note ∈ f.notes, note.2 ∈ C) → (IndexRun.run false key now f.notes x).outcome = .ok refreshed →
      (IndexRun.run true key later f.notes x).outcome = .ok rebuilt →
        (IndexRun.run false key now f.notes x).index.recordsOf key =
          (IndexRun.run true key later f.notes x).index.recordsOf key := by
  intro hall
  have hsame := hall {soundNote, brokenNote} seenOnce [("a.md", .file brokenNote)] homeVault "" ""
    ⟨false, 1, 0, 1, 0, 0, 0, 1⟩ ⟨true, 1, 1, 0, 0, 0, 0, 1⟩ injOn_notes reached_seenOnce
    (tidy_single brokenNote) (by simp [notes_single])
    (outcome_of_toOption (by decide +kernel)) (outcome_of_toOption (by decide +kernel))
  have hpaths := congrArg (List.map (·.path)) hsame
  revert hpaths
  decide +kernel

end NoteQuery

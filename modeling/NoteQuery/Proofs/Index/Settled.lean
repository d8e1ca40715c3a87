import NoteQuery.Proofs.Vault.Books

/-!
# Settled indexes

After a run that returns, the index agrees with the notes: a note that can be read has its record, and
a note whose hash is not that of the record at its path cannot be read. A refresh over the same notes
has nothing to do then but to fail the notes that cannot be read once more.
-/

namespace NoteQuery

open Index (rowAt Keyed)
open Note (built contentHash)

instance Note.decidableFails [Yaml.Loader] (path : String) (content : List UInt8) : Decidable (Fails path content) :=
  match h : toRecord path content with
  | .ok _ => isFalse fun ⟨_, hfault⟩ => nomatch h.symm.trans hfault
  | .error fault => isTrue ⟨fault, h⟩

theorem Note.warningOf_eq_none_iff [Yaml.Loader] {note : String × List UInt8} :
    warningOf note = none ↔ ¬Fails note.1 note.2 := by
  rw [warningOf]
  cases hr : toRecord note.1 note.2 with
  | ok r => simp [Fails, hr]
  | error fault => simp [Fails, hr]

namespace IndexRun

variable {loaders : Set Yaml.Loader} {C : Set (List UInt8)} {rebuild : Bool} {key : VaultKey} {now : String} {notes : List (String × List UInt8)}
  {x : Index} {report : IndexReport}

/-! ## Agreement with notes -/

/-- The index holds the hash of each note that can be read, no hash of a note that cannot, and no
record without a note. -/
structure Agrees [Yaml.Loader] (key : VaultKey) (notes : List (String × List UInt8)) (x : Index) : Prop where
  hashed : ∀ note ∈ notes, built note.1 note.2 ≠ none →
    (rowAt x.rows key note.1).map (·.sha) = some (contentHash note.2)
  stale : ∀ note ∈ notes, built note.1 note.2 = none →
    (rowAt x.rows key note.1).map (·.sha) ≠ some (contentHash note.2)
  noted : ∀ path, rowAt x.rows key path ≠ none → path ∈ notes.map (·.1)

/-- Where a note cannot be read no loader has read it before. -/
def UnreadAlike [Yaml.Loader] (loaders : Set Yaml.Loader) (note : String × List UInt8) : Prop :=
  built note.1 note.2 = none → ∀ loader ∈ loaders, @Note.built loader note.1 note.2 = none

theorem unreadAlike_self [loader : Yaml.Loader] (note : String × List UInt8) : UnreadAlike {loader} note := by
  intro hnone other hother
  rw [Set.mem_singleton_iff.mp hother]
  exact hnone

theorem agrees_run [Yaml.Loader] (hsound : Sound loaders C x.rows) (hC : C.InjOn contentHash)
    (hcontents : ∀ note ∈ notes, note.2 ∈ C) (hunread : ∀ note ∈ notes, UnreadAlike loaders note)
    (hnotes : notes.Pairwise fun a b => a.1 ≠ b.1) (h : (run rebuild key now notes x).outcome = .ok report) :
    Agrees key notes (run rebuild key now notes x).index := by
  have hrow := rowAt_run hsound.keyed hnotes h
  refine ⟨fun note hnote hread => ?_, fun note hnote hnone => ?_, fun path hpath => ?_⟩
  · obtain ⟨s, hs⟩ := Option.ne_none_iff_exists'.mp hread
    have hsha := (Note.path_and_sha_of_built hs).2
    rw [hrow, lookup_of_mem hnotes hnote, Option.bind_some, hs]
    split
    · rw [Option.map_some, hsha]
    split
    · assumption
    · rw [Option.some_or, Option.map_some, hsha]
  · -- a record with this hash would be one that a loader has made of the note
    have hbefore : (rowAt x.rows key note.1).map (·.sha) ≠ some (contentHash note.2) := by
      intro hsha
      obtain ⟨loader, hloader, r, -, hbuilt⟩ := hsound.exists_built hC (hcontents note hnote) hsha
      rw [hunread note hnote hnone loader hloader] at hbuilt
      cases hbuilt
    rw [hrow, lookup_of_mem hnotes hnote, Option.bind_some, hnone]
    split
    · exact nofun
    · rw [Option.none_or]
      exact hbefore
  · rw [hrow] at hpath
    cases hlookup : notes.lookup path with
    | none =>
      rw [hlookup] at hpath
      exact absurd rfl hpath
    | some content => exact List.mem_map_of_mem (mem_of_lookup hlookup)

namespace Agrees

variable [Yaml.Loader] (h : Agrees key notes x)
include h

theorem isPending_iff {note : String × List UInt8} (hnote : note ∈ notes) :
    isPending false key x note = true ↔ built note.1 note.2 = none := by
  rw [isPending, Bool.false_or, bne_iff_ne]
  cases hbuilt : Note.built note.1 note.2 with
  | none => exact iff_of_true (h.stale note hnote hbuilt) rfl
  | some s =>
    refine iff_of_false (not_not_intro (h.hashed note hnote ?_)) (Option.some_ne_none s)
    rw [hbuilt]
    exact Option.some_ne_none s

theorem orphans_eq_nil (hkeyed : Keyed x.rows) : orphans x key (notes.map (·.1)) = [] := by
  refine List.filter_eq_nil_iff.mpr fun r hr => ?_
  have hrow := (Index.mem_recordsOf_iff hkeyed).mp hr
  have hpath := h.noted r.path (by rw [hrow]; exact Option.some_ne_none r)
  simpa using hpath

theorem drop_eq {known : List (String × String)} {n : ℕ} {y : Index} (hkeyed : Keyed x.rows)
    (hdrop : drop false key (notes.map (·.1)) x = .ok (known, n, y)) : y = x := by
  rw [drop, if_neg Bool.false_ne_true] at hdrop
  obtain ⟨hashes, hhashes, hdrop⟩ := bind_eq_ok hdrop
  obtain ⟨⟨deleted, left⟩, hdelete, hdrop⟩ := bind_eq_ok hdrop
  obtain ⟨-, hrest⟩ := Prod.mk.inj (Except.ok.inj hdrop)
  obtain ⟨-, rfl⟩ := Prod.mk.inj hrest
  have hnone : (hashes.map (·.1)).filter (!(notes.map (·.1)).contains ·) = [] := by
    rw [← hashes_eq_ok hhashes, List.map_map, List.filter_map]
    exact List.map_eq_nil_iff.mpr (h.orphans_eq_nil hkeyed)
  rw [hnone] at hdelete
  exact (Prod.mk.inj (Except.ok.inj hdelete)).2.symm

end Agrees

/-! ## A refresh of a settled index -/

theorem foldl_addRow_of_unbuilt [Yaml.Loader] (key : VaultKey) : ∀ {notes : List (String × List UInt8)}
    (rows : List (VaultKey × Record)), (∀ note ∈ notes, built note.1 note.2 = none) →
      notes.foldl (addRow key) rows = rows
  | [], _, _ => rfl
  | note :: notes, rows, h => by
    obtain ⟨hnote, hrest⟩ := List.forall_mem_cons.mp h
    rw [List.foldl_cons, addRow, hnote]
    exact foldl_addRow_of_unbuilt key rows hrest

/-- A run that finds nothing to do but to fail and log the notes that cannot be read. -/
structure Idle [Yaml.Loader] (key : VaultKey) (notes : List (String × List UInt8)) (before : Index) (r : IndexRun)
    (report : IndexReport) : Prop where
  outcome : r.outcome = .ok report
  indexed : report.indexed = 0
  deleted : report.deleted = 0
  pending : ∀ note ∈ notes, isPending false key before note = true ↔ Note.Fails note.1 note.2
  failed : report.failed = notes.countP fun note => Note.Fails note.1 note.2
  unchanged : report.unchanged = notes.countP fun note => ¬Note.Fails note.1 note.2
  logged : r.log = notes.filterMap Note.warningOf ++ [.finished key report]
  rows : r.index.rows = before.rows

theorem Agrees.rows_run [Yaml.Loader] (h : Agrees key notes x) (hkeyed : Keyed x.rows) (later : String) :
    (run false key later notes x).index.rows = x.rows := by
  rcases run_spec with ⟨fault, heq⟩ | ⟨known, n, opened, done, hdrop, hdone, -, hrows, -⟩
  · rw [heq]
  · have hdropped := dropped_drop hkeyed hdrop
    rw [hrows, h.drop_eq hkeyed hdrop]
    refine foldl_addRow_of_unbuilt key x.rows fun note hnote => ?_
    have hmem := hdone.subset hnote
    rw [pending_of_dropped hdropped, List.mem_filter] at hmem
    exact (h.isPending_iff hmem.1).mp hmem.2

theorem Agrees.idle [Yaml.Loader] (h : Agrees key notes x) (hopen : x.isOpen = true) (hkeyed : Keyed x.rows)
    (hnotes : notes.Pairwise fun a b => a.1 ≠ b.1)
    (hfails : ∀ note ∈ notes, built note.1 note.2 = none → Note.Fails note.1 note.2 ∧ Note.haltOf note = none)
    (later : String) : ∃ again, Idle key notes x (run false key later notes x) again := by
  have hbuilt : ∀ note ∈ notes, built note.1 note.2 = none ↔ Note.Fails note.1 note.2 := fun note hnote =>
    ⟨fun hnone => (hfails note hnote hnone).1, Note.built_of_fails⟩
  have hpending : ∀ note ∈ notes, isPending false key x note = true ↔ Note.Fails note.1 note.2 := fun note hnote =>
    (h.isPending_iff hnote).trans (hbuilt note hnote)
  have hfilter : notes.filter (isPending false key x) = notes.filter fun note => Note.Fails note.1 note.2 :=
    List.filter_congr fun note hnote => by rw [Bool.eq_iff_iff, hpending note hnote, decide_eq_true_iff]
  -- no note that is read ends the run
  have hends := run_ends hopen hkeyed notes false key later
  have hnone : (notes.filter (isPending false key x)).findSome? Note.haltOf = none := by
    refine List.findSome?_eq_none_iff.mpr fun note hnote => ?_
    obtain ⟨hmem, hread⟩ := List.mem_filter.mp hnote
    exact (hfails note hmem ((h.isPending_iff hmem).mp hread)).2
  rw [hnone] at hends
  obtain ⟨again, houtcome, hcompleted⟩ := hends
  have hbalanced := balanced_run hopen hkeyed hnotes houtcome
  -- what is read fails, so nothing is put in
  have hindexed : again.indexed = 0 := by
    rw [hcompleted.indexed, List.countP_eq_zero]
    intro note hnote
    obtain ⟨hmem, hread⟩ := List.mem_filter.mp hnote
    rw [(h.isPending_iff hmem).mp hread]
    exact Bool.false_ne_true
  have hfailed : again.failed = notes.countP fun note => Note.Fails note.1 note.2 := by
    rw [hcompleted.failed, hfilter, List.countP_filter]
    refine List.countP_congr fun note hnote => ?_
    rw [Bool.and_eq_true, decide_eq_true_iff, Option.isNone_iff_eq_none, hbuilt note hnote, and_self]
  have hlogged : (notes.filter (isPending false key x)).filterMap Note.warningOf = notes.filterMap Note.warningOf := by
    rw [hfilter, List.filterMap_filter]
    refine List.filterMap_congr fun note _ => ?_
    by_cases hread : Note.Fails note.1 note.2
    · rw [if_pos (decide_eq_true hread)]
    · rw [if_neg (by simpa using hread), Note.warningOf_eq_none_iff.mpr hread]
  refine ⟨again, houtcome, hindexed, ?_, hpending, hfailed, ?_, ?_, h.rows_run hkeyed later⟩
  · rw [hbalanced.deleted, if_neg Bool.false_ne_true, h.orphans_eq_nil hkeyed, List.length_nil]
  · rw [hbalanced.unchanged]
    refine List.countP_congr fun note hnote => ?_
    rw [decide_eq_true_iff, decide_eq_true_iff, ← hpending note hnote, isPending, Bool.false_or, bne_iff_ne, not_ne_iff]
    rfl
  · rw [hcompleted.logged, hlogged]

theorem refresh_settled [Yaml.Loader] (hC : C.InjOn contentHash) (hx : Reached loaders C x) {f : Folder}
    (hf : Folder.Tidy f) (hcontents : ∀ note ∈ f.notes, note.2 ∈ C) (hunread : ∀ note ∈ f.notes, UnreadAlike loaders note)
    (h : (run rebuild key now f.notes x).outcome = .ok report) (later : String) :
    ∃ again, Idle key f.notes (run rebuild key now f.notes x).index
      (run false key later f.notes (run rebuild key now f.notes x).index) again := by
  have hsound := hx.sound
  have hkeyed := hsound.keyed
  have hnotes : f.notes.Pairwise fun a b => a.1 ≠ b.1 := ne_of_ascending (Folder.notes_ascending hf)
  have hopen := (isOpen_run hkeyed rebuild key now f.notes).trans hx.isOpen
  have hagrees := agrees_run hsound hC hcontents hunread hnotes h
  refine hagrees.idle hopen (keyed_run hkeyed rebuild key now f.notes) hnotes (fun note hnote hnone => ?_) later
  have hpending := isPending_of_unbuilt hsound hC (hcontents note hnote) (hunread note hnote hnone) rebuild key
  exact ⟨fails_of_run hkeyed h hnote hpending hnone, haltOf_of_run hx.isOpen hkeyed h hnote hpending⟩

/-- The note that was seen is broken by now, and there is a new one beside it. -/
def brokenLater : Folder := [("a.md", .file brokenNote), ("b.md", .file soundNote)]

/-- The broken note fails each time, and its old record stays. -/
theorem refresh_settled_brokenLater : Set.InjOn contentHash {soundNote, brokenNote} ∧
    Reached {Yaml.standard} {soundNote, brokenNote} seenOnce ∧ Folder.Tidy brokenLater ∧
    (∀ note ∈ brokenLater.notes, note.2 ∈ ({soundNote, brokenNote} : Set (List UInt8))) ∧
    (run false homeVault "" brokenLater.notes seenOnce).outcome = .ok ⟨false, 2, 1, 1, 0, 0, 1, 1⟩ ∧
    ∃ again, Idle homeVault brokenLater.notes (run false homeVault "" brokenLater.notes seenOnce).index
      (run false homeVault "" brokenLater.notes (run false homeVault "" brokenLater.notes seenOnce).index) again := by
  have htidy : Folder.Tidy brokenLater := tidy_pair brokenNote soundNote
  have hcontents : ∀ note ∈ brokenLater.notes, note.2 ∈ ({soundNote, brokenNote} : Set (List UInt8)) := by
    simp [brokenLater, notes_pair]
  have houtcome : (run false homeVault "" brokenLater.notes seenOnce).outcome = .ok ⟨false, 2, 1, 1, 0, 0, 1, 1⟩ :=
    outcome_of_toOption (by rw [brokenLater, notes_pair]; decide +kernel)
  exact ⟨injOn_notes, reached_seenOnce, htidy, hcontents, houtcome,
    refresh_settled injOn_notes reached_seenOnce htidy hcontents (fun note _ => unreadAlike_self note) houtcome ""⟩

end IndexRun

end NoteQuery

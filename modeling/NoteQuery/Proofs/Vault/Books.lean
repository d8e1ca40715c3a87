import NoteQuery.Proofs.Index.Refinement
import NoteQuery.Proofs.Vault.Agreement

/-!
# The books of a run

What a run reports, the status that it leaves and the records that are there after it agree with
each other, with the notes and with the index from before, whatever runs came before. A folder
that is not there leaves the index as it was, and a run that is cut short says so in the status.
-/

namespace NoteQuery

open Index (rowAt Keyed)
open Note (built contentHash)

namespace IndexRun

variable {rebuild : Bool} {key : VaultKey} {now : String} {notes : List (String × List UInt8)} {x y : Index}
  {known : List (String × String)} {report : IndexReport}

/-! ## What is new, changed and as it was -/

def knownHash (rebuild : Bool) (key : VaultKey) (x : Index) (path : String) : Option String :=
  if rebuild then none else (rowAt x.rows key path).map (·.sha)

theorem changeOf_of_dropped {paths : List String} (h : Dropped rebuild key paths x known y)
    (note : String × List UInt8) : changeOf known note =
      match knownHash rebuild key x note.1 with
      | none => .new
      | some hash => if hash = contentHash note.2 then .unchanged else .modified := by
  rw [changeOf, h.known]
  rfl

theorem changeOf_eq_new {paths : List String} (h : Dropped rebuild key paths x known y)
    {note : String × List UInt8} : changeOf known note = .new ↔ knownHash rebuild key x note.1 = none := by
  rw [changeOf_of_dropped h]
  cases knownHash rebuild key x note.1 with
  | none => simp
  | some hash => by_cases hhash : hash = contentHash note.2 <;> simp [hhash]

theorem changeOf_eq_unchanged {paths : List String} (h : Dropped rebuild key paths x known y)
    {note : String × List UInt8} :
    changeOf known note = .unchanged ↔ knownHash rebuild key x note.1 = some (contentHash note.2) := by
  rw [changeOf_of_dropped h]
  cases knownHash rebuild key x note.1 with
  | none => simp
  | some hash => by_cases hhash : hash = contentHash note.2 <;> simp [hhash]

theorem length_pending (known : List (String × String)) (notes : List (String × List UInt8)) :
    (pending known notes).length =
      notes.countP (changeOf known · = .new) + notes.countP (changeOf known · = .modified) := by
  rw [pending, ← List.countP_eq_length_filter]
  induction notes with
  | nil => rfl
  | cons note notes ih =>
    rw [List.countP_cons, List.countP_cons, List.countP_cons, ih]
    cases changeOf known note <;> simp <;> omega

theorem countP_changes (known : List (String × String)) (notes : List (String × List UInt8)) :
    notes.countP (changeOf known · = .new) + notes.countP (changeOf known · = .modified) +
      notes.countP (changeOf known · = .unchanged) = notes.length := by
  have hsum := List.length_eq_length_filter_add (l := notes) (changeOf known · ≠ .unchanged)
  rw [← pending, length_pending] at hsum
  simpa [List.countP_eq_length_filter] using hsum.symm

/-! ## What is deleted -/

/-- The records of a vault whose paths are no path of a note. -/
def orphans (x : Index) (key : VaultKey) (paths : List String) : List Record :=
  (x.recordsOf key).filter fun r => !paths.contains r.path

theorem countP_rows (x : Index) (key : VaultKey) (p : Record → Bool) :
    x.rows.countP (fun row => row.1 == key && p row.2) = (x.recordsOf key).countP p := by
  have hperm := (List.mergeSort_perm ((x.rows.filter (·.1 == key)).map (·.2)) fun a b => a.path ≤ b.path).countP_eq p
  rw [Index.recordsOf, hperm, List.countP_map, List.countP_filter]
  apply List.countP_congr
  intro row _
  simp [and_comm]

theorem count_of_deleteMany {paths : List String} {n : Nat} (h : x.deleteMany key paths = .ok (n, y)) :
    n = (x.recordsOf key).countP fun r => paths.contains r.path := by
  rw [← countP_rows]
  rw [Index.deleteMany_eq] at h
  cases paths with
  | nil =>
    obtain ⟨rfl, -⟩ := Prod.mk.inj (Except.ok.inj h)
    simp
  | cons path paths =>
    obtain ⟨-, -, h⟩ := bind_eq_ok h
    obtain ⟨rfl, -⟩ := Prod.mk.inj (Except.ok.inj h)
    rw [length_sub_filter, List.countP_eq_length_filter]
    simp only [Bool.not_not]

theorem count_of_drop {paths : List String} {n : Nat} (h : drop rebuild key paths x = .ok (known, n, y)) :
    n = if rebuild = true then 0 else (orphans x key paths).length := by
  cases rebuild with
  | true =>
    rw [drop, if_pos rfl] at h
    obtain ⟨⟨_, left⟩, -, h⟩ := bind_eq_ok h
    exact (Prod.mk.inj (Prod.mk.inj (Except.ok.inj h)).2).1.symm
  | false =>
    rw [drop, if_neg Bool.false_ne_true] at h
    obtain ⟨hashes, hhashes, h⟩ := bind_eq_ok h
    obtain ⟨⟨deleted, left⟩, hdelete, h⟩ := bind_eq_ok h
    obtain ⟨-, hrest⟩ := Prod.mk.inj (Except.ok.inj h)
    obtain ⟨rfl, -⟩ := Prod.mk.inj hrest
    rw [count_of_deleteMany hdelete, if_neg Bool.false_ne_true, orphans, ← List.countP_eq_length_filter]
    -- the hashes name every record, so a path that is no longer seen is one that has a record
    apply List.countP_congr
    intro r hr
    have hpath : r.path ∈ hashes.map (·.1) := by
      rw [← hashes_eq_ok hhashes, List.map_map]
      exact List.mem_map_of_mem hr
    simp only [List.contains_eq_mem, decide_eq_true_eq, List.mem_filter, and_iff_right hpath]

/-! ## What is reported -/

theorem report_eq [Yaml.Loader] {n : Nat} (hdrop : drop rebuild key (notes.map (·.1)) x = .ok (known, n, y))
    (h : (run rebuild key now notes x).outcome = .ok report) :
    report = ⟨rebuild, notes.length, notes.countP (changeOf known · = .new), notes.countP (changeOf known · = .modified),
      notes.countP (changeOf known · = .unchanged), n, report.indexed, report.failed⟩ := by
  have hcount : ∀ c : Change, ((notes.map fun note => (changeOf known note, note)).filter (·.1 = c)).length =
      notes.countP (changeOf known · = c) := by
    intro c
    rw [← List.countP_eq_length_filter, List.countP_map]
    rfl
  rw [run, hdrop] at h
  dsimp only at h
  generalize addNotes key 1 _ _ = result at h
  obtain ⟨p, fault⟩ := result
  cases fault with
  | some fault => cases h
  | none =>
    obtain rfl := Except.ok.inj h
    simp only [hcount]

/-! ## What is there in the end -/

theorem fails_of_run [Yaml.Loader] (hkeyed : Keyed x.rows) (h : (run rebuild key now notes x).outcome = .ok report)
    {note : String × List UInt8} (hnote : note ∈ notes) (hpending : isPending rebuild key x note = true)
    (hnone : built note.1 note.2 = none) : Note.Fails note.1 note.2 := by
  rcases run_spec with ⟨fault, heq⟩ | ⟨known, n, opened, done, hdrop, -, -, -, hall⟩
  · rw [heq] at h
    cases h
  · refine (hall report h).2 note ?_ hnone
    rw [pending_of_dropped (dropped_drop hkeyed hdrop)]
    exact List.mem_filter.mpr ⟨hnote, hpending⟩

/-- After a run there is a record just for each note that can be read, and for each one that had a
record when the notes were compared. -/
theorem isSome_rowAt_run [Yaml.Loader] (hkeyed : Keyed x.rows) (hnotes : notes.Pairwise fun a b => a.1 ≠ b.1)
    (h : (run rebuild key now notes x).outcome = .ok report) (path : String) :
    (rowAt (run rebuild key now notes x).index.rows key path).isSome = true ↔ ∃ content, (path, content) ∈ notes ∧
      (Note.Fails path content → rebuild = false ∧ (rowAt x.rows key path).isSome = true) := by
  rw [rowAt_run hkeyed hnotes h]
  cases hlookup : notes.lookup path with
  | none =>
    refine iff_of_false Bool.false_ne_true ?_
    rintro ⟨content, hmem, -⟩
    rw [lookup_of_mem hnotes hmem] at hlookup
    cases hlookup
  | some content =>
    have hmem := mem_of_lookup hlookup
    have honly : ∀ other, (path, other) ∈ notes → other = content := by
      intro other hother
      rw [lookup_of_mem hnotes hother] at hlookup
      exact Option.some.inj hlookup
    have hiff : (∃ other, (path, other) ∈ notes ∧
          (Note.Fails path other → rebuild = false ∧ (rowAt x.rows key path).isSome = true)) ↔
        (Note.Fails path content → rebuild = false ∧ (rowAt x.rows key path).isSome = true) := by
      constructor
      · rintro ⟨other, hother, himp⟩
        rwa [honly other hother] at himp
      · intro himp
        exact ⟨content, hmem, himp⟩
    rw [hiff, Option.bind_some]
    cases hbuilt : built path content with
    | some s =>
      -- the note can be read, so that there is nothing to say of a failure
      have hnot : ¬Note.Fails path content := by
        intro hfails
        rw [Note.built_of_fails hfails] at hbuilt
        cases hbuilt
      refine iff_of_true ?_ fun hfails => absurd hfails hnot
      cases rebuild with
      | true => rfl
      | false =>
        rw [if_neg Bool.false_ne_true]
        split
        · rename_i hsha
          obtain ⟨r, hr, -⟩ := Option.map_eq_some_iff.mp hsha
          rw [hr]
          rfl
        · rfl
    | none =>
      -- a note without a record is one that cannot be read, or it would have ended the run
      have hfails : isPending rebuild key x (path, content) = true → Note.Fails path content := fun hpending =>
        fails_of_run hkeyed h hmem hpending hbuilt
      cases rebuild with
      | true => simp [hfails rfl]
      | false =>
        rw [if_neg Bool.false_ne_true, Option.none_or, ite_self]
        constructor
        · intro hrow _
          exact ⟨rfl, hrow⟩
        · intro himp
          by_cases hsha : (rowAt x.rows key path).map (·.sha) = some (contentHash content)
          · obtain ⟨r, hr, -⟩ := Option.map_eq_some_iff.mp hsha
            rw [hr]
            rfl
          · exact (himp (hfails (by simpa [isPending] using hsha))).2

/-! ## The books -/

/-- What a run that returns reports and leaves, by its notes and the index before it. -/
structure Balanced [Yaml.Loader] (rebuild : Bool) (key : VaultKey) (now : String) (notes : List (String × List UInt8)) (before after : Index)
    (report : IndexReport) : Prop where
  total : report.total = notes.length
  new : report.new = notes.countP fun note => knownHash rebuild key before note.1 = none
  unchanged : report.unchanged = notes.countP fun note => knownHash rebuild key before note.1 = some (contentHash note.2)
  compared : report.new + report.modified + report.unchanged = report.total
  read : report.new + report.modified = report.indexed + report.failed
  deleted : report.deleted = if rebuild = true then 0 else (orphans before key (notes.map (·.1))).length
  status : after.statuses.lookup key =
    some ⟨.completed, ↑(report.indexed + report.failed), report.indexed, report.failed, none, some now, some now⟩
  paths : ∀ path, (rowAt after.rows key path).isSome = true ↔ ∃ content, (path, content) ∈ notes ∧
    (Note.Fails path content → rebuild = false ∧ (rowAt before.rows key path).isSome = true)

theorem balanced_run [Yaml.Loader] (hopen : x.isOpen = true) (hkeyed : Keyed x.rows) (hnotes : notes.Pairwise fun a b => a.1 ≠ b.1)
    (h : (run rebuild key now notes x).outcome = .ok report) :
    Balanced rebuild key now notes x (run rebuild key now notes x).index report := by
  obtain ⟨known, n, opened, hdrop⟩ := exists_drop hopen rebuild key (notes.map (·.1))
  have hdropped := dropped_drop hkeyed hdrop
  have hcompleted : Completed key now (notes.filter (isPending rebuild key x)) (run rebuild key now notes x) report := by
    have hends := run_ends hopen hkeyed notes rebuild key now
    split at hends
    · obtain ⟨other, houtcome, hcompleted⟩ := hends
      obtain rfl : report = other := Except.ok.inj (h.symm.trans houtcome)
      exact hcompleted
    · rw [hends.outcome] at h
      cases h
  -- the notes that are read are those that were stored and those that failed
  have hread : (notes.filter (isPending rebuild key x)).length = report.indexed + report.failed := by
    rw [hcompleted.indexed, hcompleted.failed, List.length_eq_countP_add_countP fun note => (built note.1 note.2).isSome]
    simp only [Bool.not_eq_true, Option.isSome_eq_false_iff, Bool.decide_eq_true]
  have hreport := report_eq hdrop h
  have hlength := length_pending known notes
  rw [pending_of_dropped hdropped, hread] at hlength
  exact {
    total := congrArg IndexReport.total hreport
    new := by
      rw [congrArg IndexReport.new hreport]
      simp only [changeOf_eq_new hdropped]
    unchanged := by
      rw [congrArg IndexReport.unchanged hreport]
      simp only [changeOf_eq_unchanged hdropped]
    compared := by
      rw [hreport]
      exact countP_changes known notes
    read := by
      rw [hlength, hreport]
    deleted := (congrArg IndexReport.deleted hreport).trans (count_of_drop hdrop)
    status := by
      rw [hcompleted.status, hread]
    paths := isSome_rowAt_run hkeyed hnotes h }

end IndexRun

namespace Vault

open IndexRun (Balanced)

/-- A run over a folder balances its books if it returns. -/
theorem indexFolder_balanced [Yaml.Loader] {v : Vault} (hopen : v.isOpen = true) {d : Disk} (hreached : (v.index d).Reachable)
    (hindex : (v.index d).isOpen = true) (htidy : Folder.Tidy d.files) (folder : List String) (rebuild : Bool)
    (now : String) :
    match (v.indexFolder folder rebuild now d).1 with
    | .ok report => ∃ f, d.files.folderAt? folder = some f ∧
        Balanced rebuild v.key now f.notes (v.index d) (v.index (v.indexFolder folder rebuild now d).2) report
    | .error (.notDirectory _) => d.files.folderAt? folder = none ∧
        v.index (v.indexFolder folder rebuild now d).2 = v.index d
    | .error (.run fault) => ∃ total indexed failed,
        (v.index (v.indexFolder folder rebuild now d).2).statuses.lookup v.key =
          some ⟨.failed, total, indexed, failed, some fault.message, some now, some now⟩
    | .error .closed | .error (.query _) | .error (.text _) => False := by
  cases hfolder : d.files.folderAt? folder with
  | none =>
    rw [indexFolder, if_pos hopen]
    dsimp only
    rw [files_log, hfolder]
    exact ⟨rfl, index_log v _ d⟩
  | some f =>
    obtain ⟨hreport, hleft, -⟩ := indexFolder_eq hopen hfolder rebuild now
    have hnotes := ne_of_ascending (Folder.notes_ascending (htidy.of_folderAt? hfolder))
    -- the run in the vault is the run over its index
    have hends := IndexRun.run_ends hindex hreached.keyed f.notes rebuild v.key now
    rw [hreport, hleft]
    cases houtcome : (IndexRun.run rebuild v.key now f.notes (v.index d)).outcome with
    | ok report => exact ⟨f, rfl, IndexRun.balanced_run hindex hreached.keyed hnotes houtcome⟩
    | error fault =>
      split at hends
      · obtain ⟨report, hreturned, -⟩ := hends
        rw [houtcome] at hreturned
        cases hreturned
      · rename_i other _
        obtain rfl : fault = other := Except.error.inj (houtcome.symm.trans hends.outcome)
        obtain ⟨indexed, failed, hstatus⟩ := hends.status
        exact ⟨_, indexed, failed, hstatus⟩

/-- A note that is gone in the second folder, where there is another one and one that cannot be read. -/
def movedDisk : Disk :=
  ⟨[("before", .folder [("c.md", .file soundNote)]),
    ("after", .folder [("a.md", .file soundNote), ("b.md", .file brokenNote)])], []⟩

def movedIndexed : Disk := (openVault.indexFolder ["before"] false "" movedDisk).2

theorem indexFolder_balanced_moved : openVault.isOpen = true ∧ (openVault.index movedIndexed).Reachable ∧
    (openVault.index movedIndexed).isOpen = true ∧ Folder.Tidy movedIndexed.files ∧
    Balanced false openVault.key "" [("a.md", soundNote), ("b.md", brokenNote)] (openVault.index movedIndexed)
      (openVault.index (openVault.indexFolder ["after"] false "" movedIndexed).2) ⟨false, 2, 2, 0, 0, 1, 1, 1⟩ := by
  have hbefore : movedDisk.files.folderAt? ["before"] = some [("c.md", .file soundNote)] := rfl
  obtain ⟨-, hindexed, hfiles⟩ := indexFolder_eq (v := openVault) rfl hbefore false ""
  have hnotes : Folder.notes [("c.md", .file soundNote)] = [("c.md", soundNote)] := by decide +kernel
  rw [hnotes] at hindexed
  have hreached : (openVault.index movedIndexed).Reachable := by
    rw [movedIndexed, hindexed]
    exact .run Yaml.standard false _ "" _ (.empty _)
  have hopen : (openVault.index movedIndexed).isOpen = true := by
    rw [movedIndexed, hindexed]
    decide +kernel
  have htidy : Folder.Tidy movedIndexed.files := by
    rw [movedIndexed, hfiles]
    simp [movedDisk, Folder.Tidy, Folder.TidyItem, Folder.Slashless]
  have hfolder : movedIndexed.files.folderAt? ["after"] = some [("a.md", .file soundNote), ("b.md", .file brokenNote)] := by
    rw [movedIndexed, hfiles]
    rfl
  have hreport : (openVault.indexFolder ["after"] false "" movedIndexed).1 = .ok ⟨false, 2, 2, 0, 0, 1, 1, 1⟩ := by
    have houtcome := @outcome_of_toOption (IndexRun.run false openVault.key "" [("a.md", soundNote), ("b.md", brokenNote)]
      (openVault.index movedIndexed)) ⟨false, 2, 2, 0, 0, 1, 1, 1⟩ (by rw [movedIndexed, hindexed]; decide +kernel)
    rw [(indexFolder_eq rfl hfolder false "").1, notes_pair, houtcome]
    rfl
  have hbalanced := indexFolder_balanced rfl hreached hopen htidy ["after"] false ""
  rw [hreport] at hbalanced
  obtain ⟨f, hf, hbalanced⟩ := hbalanced
  obtain rfl := Option.some.inj (hfolder.symm.trans hf)
  rw [notes_pair] at hbalanced
  exact ⟨rfl, hreached, hopen, htidy, hbalanced⟩

end Vault

end NoteQuery

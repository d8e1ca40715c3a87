import NoteQuery.Proofs.Index.Completion
import NoteQuery.Proofs.Result.Answer
import NoteQuery.Proofs.Yaml.Keys
import NoteQuery.Vault

/-!
# The index and the folder

A query over the index of a folder has the result of the query over the folder itself, if the last
run was over that folder, the folder is as it was, and all its notes can be read and hold what JSON
knows. What runs came before does not matter.
-/

namespace NoteQuery

open Note (built contentHash)

/-! ## Notes that JSON knows -/

def Note.IsNative [Yaml.Loader] (note : String × List UInt8) : Prop :=
  ∃ r, toRecord note.1 note.2 = .ok r ∧ Value.NativeEntries r.frontMatter

def Note.HasLong [Yaml.Loader] (note : String × List UInt8) : Prop :=
  ∃ r, toRecord note.1 note.2 = .ok r ∧ Value.entriesHaveLong r.frontMatter = true

instance [Yaml.Loader] (note : String × List UInt8) : Decidable (Note.IsNative note) :=
  match h : Note.toRecord note.1 note.2 with
  | .ok r =>
    if hnative : Value.NativeEntries r.frontMatter then isTrue ⟨r, h, hnative⟩
    else isFalse fun ⟨_, hr, hr'⟩ => hnative (Except.ok.inj (h.symm.trans hr) ▸ hr')
  | .error _ => isFalse fun ⟨_, hr, _⟩ => nomatch h.symm.trans hr

section
variable [Yaml.Loader]

theorem Note.built_of_toRecord_native {path : String} {content : List UInt8} {r : Record}
    (hload : Yaml.LoadsKeyed) (hr : toRecord path content = .ok r) (hnative : Value.NativeEntries r.frontMatter)
    (hshort : Value.entriesHaveLong r.frontMatter = false) : built path content = some r := by
  refine built_of_toRecord hr ?_
  rw [Index.stored_eq, Value.storedEntries_of_native hnative (keyed_of_toRecord hload hr) hshort]

theorem Note.HasLong.unbuilt {note : String × List UInt8} (h : HasLong note) (hload : Yaml.LoadsKeyed)
    (hnative : IsNative note) : built note.1 note.2 = none ∧ haltOf note ≠ none := by
  obtain ⟨r, hr, hlong⟩ := h
  obtain ⟨s, hs, hnative⟩ := hnative
  obtain rfl := Except.ok.inj (hr.symm.trans hs)
  cases hstored : Index.stored r with
  | error fault =>
    refine ⟨?_, by rw [haltOf_of_unstored hr hstored]; exact Option.some_ne_none _⟩
    rw [built, hr]
    dsimp only
    rw [hstored]
    rfl
  | ok stored =>
    obtain ⟨entries, hentries, -⟩ := Index.stored_eq_ok hstored
    rw [Value.entriesHaveLong_of_storedEntries hnative (keyed_of_toRecord hload hr) hentries] at hlong
    cases hlong

theorem Note.built_of_native {note : String × List UInt8} (hload : Yaml.LoadsKeyed) (h : IsNative note)
    (hshort : ¬HasLong note) : ∃ r, toRecord note.1 note.2 = .ok r ∧ built note.1 note.2 = some r := by
  obtain ⟨r, hr, hnative⟩ := h
  refine ⟨r, hr, built_of_toRecord_native hload hr hnative ?_⟩
  exact Bool.not_eq_true _ ▸ fun hlong => hshort ⟨r, hr, hlong⟩

theorem readNotes_of_built : ∀ {notes : List (String × List UInt8)},
    (∀ note ∈ notes, ∃ r, Note.toRecord note.1 note.2 = .ok r ∧ built note.1 note.2 = some r) →
      Vault.readNotes notes = ([], .ok (notes.filterMap fun note => built note.1 note.2))
  | [], _ => rfl
  | (path, content) :: notes, h => by
    obtain ⟨⟨r, hr, hbuilt⟩, hrest⟩ := List.forall_mem_cons.mp h
    dsimp only at hr hbuilt
    rw [Vault.readNotes, hr, List.filterMap_cons]
    dsimp only
    rw [hbuilt, readNotes_of_built hrest]
    rfl

end

/-! ## Changes of the disk -/

namespace Disk

theorem storeAt_changeStore (d : Disk) (path : String) (change : Store → Store) :
    (d.changeStore path change).storeAt path = change (d.storeAt path) := by
  rw [changeStore, putStore, storeAt, List.lookup_cons_self]
  rfl

theorem index_addLog (d : Disk) (path : String) (lines : List LogLine) :
    ((d.addLog path lines).storeAt path).index = (d.storeAt path).index := by
  rw [addLog]
  split
  · rfl
  · rw [storeAt_changeStore]

theorem files_addLog (d : Disk) (path : String) (lines : List LogLine) : (d.addLog path lines).files = d.files := by
  rw [addLog]
  split <;> rfl

end Disk

namespace Vault

theorem index_log (v : Vault) (lines : List LogLine) (d : Disk) : v.index (v.log lines d) = v.index d := by
  rw [log]
  split
  · exact d.index_addLog v.store lines
  · rfl

theorem files_log (v : Vault) (lines : List LogLine) (d : Disk) : (v.log lines d).files = d.files := by
  rw [log]
  split
  · exact d.files_addLog v.store lines
  · rfl

theorem indexFolder_eq [Yaml.Loader] {v : Vault} (hopen : v.isOpen = true) {folder : List String} {d : Disk} {f : Folder}
    (hfolder : d.files.folderAt? folder = some f) (rebuild : Bool) (now : String) :
    (v.indexFolder folder rebuild now d).1 = (IndexRun.run rebuild v.key now f.notes (v.index d)).outcome.mapError .run ∧
      v.index (v.indexFolder folder rebuild now d).2 = (IndexRun.run rebuild v.key now f.notes (v.index d)).index ∧
      (v.indexFolder folder rebuild now d).2.files = d.files := by
  rw [indexFolder, if_pos hopen]
  dsimp only
  rw [files_log, hfolder]
  dsimp only
  rw [index_log, index_log, files_log]
  refine ⟨rfl, ?_, files_log v _ d⟩
  rw [index, Disk.storeAt_changeStore]

/-! ## Both ways to a result -/

theorem queryFolder_of_readNotes [Yaml.Loader] (v : Vault) (q : Query) {folder : List String} {d : Disk} {f : Folder}
    {records : List Record} (hfolder : d.files.folderAt? folder = some f)
    (hrecords : (readNotes f.notes).2 = .ok records) :
    (v.queryFolder q folder d).1 = (runPublic q records).mapError .text := by
  rw [queryFolder, hfolder]
  dsimp only
  rw [hrecords]
  rfl

theorem queryIndex_of_ready {v : Vault} (hv : v.isOpen = true) (q : Query) {d : Disk}
    (hindex : (v.index d).isOpen = true) {s : IndexStatus} (hs : (v.index d).statuses.lookup v.key = some s)
    (hready : s.isReady = true) : v.queryIndex q d = (runPublic q ((v.index d).recordsOf v.key)).mapError .text := by
  have hopen : v.checkOpen = .ok () := if_pos hv
  have hcheck : (v.index d).checkOpen = .ok () := if_pos hindex
  have hstatus : v.status d = .ok (some s) := by
    rw [status, ask, hopen, Index.status?, hcheck, hs]
    rfl
  have hlist : v.ask d Index.listPublic = .ok (((v.index d).recordsOf v.key).filter (!·.isPrivate)) := by
    rw [ask, hopen, Index.listPublic, Index.listAll, hcheck]
    rfl
  have hfilter : (some s).filter (·.isReady) = some s := by rw [Option.filter_some, if_pos hready]
  rw [queryIndex, hstatus, hlist]
  simp only [bind, Except.bind, hfilter]
  rfl

theorem queryIndex_of_unready {v : Vault} (hv : v.isOpen = true) (q : Query) {d : Disk}
    (hindex : (v.index d).isOpen = true)
    (hunready : ∀ s, (v.index d).statuses.lookup v.key = some s → s.isReady = false) :
    v.queryIndex q d = .ok (Result.failure notIndexed (some q) true) := by
  have hopen : v.checkOpen = .ok () := if_pos hv
  have hcheck : (v.index d).checkOpen = .ok () := if_pos hindex
  have hstatus : v.status d = .ok ((v.index d).statuses.lookup v.key) := by
    rw [status, ask, hopen, Index.status?, hcheck]
    rfl
  have hnone : ((v.index d).statuses.lookup v.key).filter (·.isReady) = none :=
    Option.filter_eq_none_iff.mpr fun s hs => Bool.eq_false_iff.mp (hunready s hs)
  rw [queryIndex, hstatus]
  simp only [bind, Except.bind, hnone]
  rfl

/-- After a run a query has the same outcome over the index and over the folder, as long as neither changes. -/
theorem query_index_eq_query_folder [Yaml.Loader] (hload : Yaml.LoadsKeyed) {loaders : Set Yaml.Loader}
    {C : Set (List UInt8)} (hC : C.InjOn contentHash) {v : Vault} (hopen : v.isOpen = true) (hrecords : v.records = none)
    {d : Disk} (hd : Reached loaders C (v.index d)) (htidy : Folder.Tidy d.files) {folder : List String} {f : Folder}
    (hfolder : d.files.folderAt? folder = some f) (hcontents : ∀ note ∈ f.notes, note.2 ∈ C)
    (hnative : ∀ note ∈ f.notes, Note.IsNative note) (halike : ∀ note ∈ f.notes, ReadAlike loaders note)
    (rebuild : Bool) (now : String) :
    ((∃ report, (v.indexFolder folder rebuild now d).1 = .ok report) ↔ ∀ note ∈ f.notes, ¬Note.HasLong note) ∧
      ∀ report, (v.indexFolder folder rebuild now d).1 = .ok report →
        ∀ e : Disk, v.index e = v.index (v.indexFolder folder rebuild now d).2 → e.files.folderAt? folder = some f →
          ∀ text, (v.query text none e).1 = (v.query text (some folder) e).1 := by
  obtain ⟨hreport, hindex, -⟩ := indexFolder_eq hopen hfolder rebuild now
  have hsound := hd.sound
  have hkeyed := hsound.keyed
  -- a note with a long integer has no record, so the run reads it, and it ends the run
  have hshort : ∀ report, (v.indexFolder folder rebuild now d).1 = .ok report → ∀ note ∈ f.notes, ¬Note.HasLong note := by
    intro report hreturn note hnote hlong
    obtain ⟨hunbuilt, hhalt⟩ := hlong.unbuilt hload (hnative note hnote)
    rw [hreport] at hreturn
    have hpending := IndexRun.isPending_of_unbuilt hsound hC (hcontents note hnote)
      (fun loader hloader => (halike note hnote loader hloader).trans hunbuilt) rebuild v.key
    exact hhalt (IndexRun.haltOf_of_run hd.isOpen hkeyed (mapError_eq_ok hreturn) hnote hpending)
  have hread : (∀ note ∈ f.notes, ¬Note.HasLong note) → ∀ note ∈ f.notes,
      ∃ r, Note.toRecord note.1 note.2 = .ok r ∧ built note.1 note.2 = some r := fun hall note hnote =>
    Note.built_of_native hload (hnative note hnote) (hall note hnote)
  have hruns : (∀ note ∈ f.notes, ¬Note.HasLong note) → ∃ report s,
      (IndexRun.run rebuild v.key now f.notes (v.index d)).outcome = .ok report ∧
        (IndexRun.run rebuild v.key now f.notes (v.index d)).index.statuses.lookup v.key = some s ∧ s.isReady = true := by
    intro hall
    refine IndexRun.run_of_built hd.isOpen hkeyed (fun note hnote => ?_) rebuild v.key now
    obtain ⟨r, -, hbuilt⟩ := hread hall note hnote
    rw [hbuilt]
    rfl
  refine ⟨⟨fun ⟨report, hreturn⟩ => hshort report hreturn, fun hall => ?_⟩, fun report hreturn e he hsame text => ?_⟩
  · obtain ⟨report, s, houtcome, -⟩ := hruns hall
    exact ⟨report, by rw [hreport, houtcome]; rfl⟩
  · have hall := hshort report hreturn
    obtain ⟨report, s, houtcome, hs, hready⟩ := hruns hall
    have hbuilt : ∀ note ∈ f.notes, (built note.1 note.2).isSome = true := by
      intro note hnote
      obtain ⟨r, -, hr⟩ := hread hall note hnote
      rw [hr]
      rfl
    have hnotes := Folder.notes_ascending (htidy.of_folderAt? hfolder)
    -- both queries run over the records that the notes are read as
    have hrecordsOf := IndexRun.recordsOf_run hsound hC hcontents halike hnotes hbuilt houtcome
    have hstill := IndexRun.isOpen_run hkeyed rebuild v.key now f.notes
    have hfetched : (readNotes f.notes).2 = .ok (f.notes.filterMap fun note => built note.1 note.2) := by
      rw [readNotes_of_built (hread hall)]
    rw [hindex] at he
    rw [query, query]
    cases v.parse text with
    | error fault => rfl
    | ok q =>
      dsimp only
      rw [hrecords]
      dsimp only
      rw [queryFolder_of_readNotes v q hsame hfetched, queryIndex_of_ready hopen q (s := s) ?_ ?_ hready, he, hrecordsOf]
      · rw [he, hstill, hd.isOpen]
      · rw [he, hs]

/-! ## A note that has changed -/

def statedNote : List UInt8 := Bytes.encodeUtf8 "---\nstate: {open: [1, no, 2.5]}\n---\nSee [[b]]\n".toList

def openVault : Vault := ⟨"/store", Config.initial "u" "", true, none⟩

/-- A note as it was and as it is. -/
def twoFolders : Disk :=
  ⟨[("old", .folder [("a.md", .file soundNote)]), ("new", .folder [("a.md", .file statedNote)])], []⟩

/-- The disk after a run over the note as it was. -/
def oldIndexed : Disk := (openVault.indexFolder ["old"] false "" twoFolders).2

theorem injOn_stated : Set.InjOn contentHash {soundNote, statedNote} := by
  refine Set.injOn_pair.mpr fun hhash => ?_
  have hne : contentHash soundNote ≠ contentHash statedNote := by decide +kernel
  exact absurd hhash hne

theorem reached_oldIndexed : Reached {Yaml.standard} {soundNote, statedNote} (openVault.index oldIndexed) := by
  have hfolder : twoFolders.files.folderAt? ["old"] = some [("a.md", .file soundNote)] := rfl
  rw [oldIndexed, (indexFolder_eq rfl hfolder false "").2.1]
  refine .run Yaml.standard false _ "" (.empty _) rfl (tidy_single soundNote) ?_
  simp [notes_single]

theorem files_oldIndexed : oldIndexed.files = twoFolders.files := by
  have hfolder : twoFolders.files.folderAt? ["old"] = some [("a.md", .file soundNote)] := rfl
  rw [oldIndexed, (indexFolder_eq rfl hfolder false "").2.2]

theorem tidy_twoFolders : Folder.Tidy twoFolders.files := by
  simp [twoFolders, Folder.Tidy, Folder.TidyItem, Folder.Slashless]

theorem tidy_oldIndexed : Folder.Tidy oldIndexed.files := by
  rw [files_oldIndexed]
  exact tidy_twoFolders

theorem folderAt?_oldIndexed : oldIndexed.files.folderAt? ["new"] = some [("a.md", .file statedNote)] := by
  rw [files_oldIndexed]
  rfl

theorem query_index_eq_query_folder_oldIndexed :
    Set.InjOn contentHash {soundNote, statedNote} ∧
    Reached {Yaml.standard} {soundNote, statedNote} (openVault.index oldIndexed) ∧
    Folder.Tidy oldIndexed.files ∧ oldIndexed.files.folderAt? ["new"] = some [("a.md", .file statedNote)] ∧
    Note.IsNative ("a.md", statedNote) ∧ ¬Note.HasLong ("a.md", statedNote) ∧
    (∃ report, (openVault.indexFolder ["new"] false "" oldIndexed).1 = .ok report) ∧
      ∀ text, (openVault.query text none (openVault.indexFolder ["new"] false "" oldIndexed).2).1 =
        (openVault.query text (some ["new"]) (openVault.indexFolder ["new"] false "" oldIndexed).2).1 := by
  have hnative : Note.IsNative ("a.md", statedNote) := by decide +kernel
  have hshort : ((Note.toRecord "a.md" statedNote).toOption.map fun r => Value.entriesHaveLong r.frontMatter) =
      some false := by decide +kernel
  have hnotLong : ¬Note.HasLong ("a.md", statedNote) := by
    rintro ⟨r, hr, hlong⟩
    rw [show Note.toRecord "a.md" statedNote = .ok r from hr] at hshort
    have hsame : Value.entriesHaveLong r.frontMatter = false := Option.some.inj hshort
    rw [hsame] at hlong
    cases hlong
  obtain ⟨hreturns, hall⟩ := query_index_eq_query_folder Yaml.loadsKeyed_standard injOn_stated rfl rfl
    reached_oldIndexed tidy_oldIndexed folderAt?_oldIndexed (by simp [notes_single])
    (by simpa [notes_single] using hnative) (fun note _ => readAlike_self note) false ""
  obtain ⟨report, hreport⟩ := hreturns.mpr (by simpa [notes_single] using hnotLong)
  refine ⟨injOn_stated, reached_oldIndexed, tidy_oldIndexed, folderAt?_oldIndexed, hnative, hnotLong, ⟨report, hreport⟩,
    hall report hreport _ rfl ?_⟩
  rw [(indexFolder_eq rfl folderAt?_oldIndexed false "").2.2, folderAt?_oldIndexed]

/-! ## A note with a long integer -/

abbrev integerLoader (n : Int) : Yaml.Loader := ⟨fun _ => .ok (.map [(.text "state", .int n)])⟩

theorem loadsKeyed_integerLoader (n : Int) : @Yaml.LoadsKeyed (integerLoader n) := by
  rintro block v ⟨⟩
  simp [Value.Keyed, Value.KeyedEntries]

theorem toRecord_integerLoader (n : Int) : ∃ r, @Note.toRecord (integerLoader n) "a.md" statedNote = .ok r ∧
    r.frontMatter = [(.text "state", .int n)] := by
  have hsplit : (Bytes.decodeUtf8 statedNote).toOption.map (fun text => (Note.split text).1.isSome) = some true := by
    decide +kernel
  obtain ⟨text, htext, hblock⟩ := exists_of_toOption_map hsplit
  obtain ⟨block, hblock⟩ := Option.isSome_iff_exists.mp hblock
  let _ : Yaml.Loader := integerLoader n
  refine exists_of_toOption_map (x := Note.toRecord "a.md" statedNote) (f := (·.frontMatter)) ?_
  unfold Note.toRecord
  rw [htext]
  dsimp only [Except.mapError, bind, Except.bind]
  rw [hblock]
  rfl

theorem query_ne_of_halt [Yaml.Loader] {v : Vault} (hopen : v.isOpen = true) (hrecords : v.records = none) {d : Disk}
    (hindexOpen : (v.index d).isOpen = true) (hkeyed : Index.Keyed (v.index d).rows) {folder : List String} {f : Folder}
    (hfolder : d.files.folderAt? folder = some f) {records : List Record} (hread : (readNotes f.notes).2 = .ok records)
    {rebuild : Bool} {note : String × List UInt8} (hnote : note ∈ f.notes)
    (hpending : IndexRun.isPending rebuild v.key (v.index d) note = true) (hhalt : Note.haltOf note ≠ none) (now : String)
    {text : String} {q : Query} (hq : v.parse text = .ok q) :
    (v.query text none (v.indexFolder folder rebuild now d).2).1 ≠
      (v.query text (some folder) (v.indexFolder folder rebuild now d).2).1 := by
  obtain ⟨-, hindex, hfiles⟩ := indexFolder_eq hopen hfolder rebuild now
  have hstill : (v.index (v.indexFolder folder rebuild now d).2).isOpen = true := by
    rw [hindex, IndexRun.isOpen_run hkeyed, hindexOpen]
  have hunready : ∀ s, (v.index (v.indexFolder folder rebuild now d).2).statuses.lookup v.key = some s →
      s.isReady = false := by
    have hends := IndexRun.run_ends hindexOpen hkeyed f.notes rebuild v.key now
    split at hends
    · rename_i hnone
      exact absurd (List.findSome?_eq_none_iff.mp hnone note (List.mem_filter.mpr ⟨hnote, hpending⟩)) hhalt
    · obtain ⟨indexed, failed, hstatus⟩ := hends.status
      intro s hs
      rw [hindex, hstatus] at hs
      rw [← Option.some.inj hs]
      rfl
  -- over the folder the query answers, over the index it fails
  intro hsame
  rw [query, query, hq] at hsame
  dsimp only at hsame
  rw [hrecords] at hsame
  dsimp only at hsame
  rw [queryIndex_of_unready hopen q hstill hunready, queryFolder_of_readNotes v q (by rw [hfiles, hfolder]) hread] at hsame
  obtain ⟨-, hrun⟩ := Query.answer_eq_ok.mp (mapError_eq_ok hsame.symm)
  have hsuccess := Query.isSuccess_run q (records.filter (!·.isPrivate))
  rw [hrun] at hsuccess
  cases hsuccess

theorem not_always_agreeing : ¬∀ (loader : Yaml.Loader) (C : Set (List UInt8)) (v : Vault) (d : Disk)
    (folder : List String) (f : Folder), Yaml.LoadsKeyed → C.InjOn contentHash → v.isOpen = true → v.records = none →
      Reached {loader} C (v.index d) → Folder.Tidy d.files → d.files.folderAt? folder = some f →
        (∀ note ∈ f.notes, note.2 ∈ C) → (∀ note ∈ f.notes, Note.IsNative note) →
          ∀ text, (v.query text none (v.indexFolder folder false "" d).2).1 =
            (v.query text (some folder) (v.indexFolder folder false "" d).2).1 := by
  intro hall
  obtain ⟨n, hn⟩ := Text.exists_isLong
  let _ : Yaml.Loader := integerLoader n
  obtain ⟨r, hr, hentries⟩ := toRecord_integerLoader n
  obtain ⟨q, hq, -⟩ := exists_of_toOption_map (x := openVault.parse "LIST") (f := fun _ => ()) (b := ())
    (by decide +kernel)
  have hnative : Note.IsNative ("a.md", statedNote) := ⟨r, hr, by simp [hentries, Value.NativeEntries, Value.Native]⟩
  have hlong : Note.HasLong ("a.md", statedNote) :=
    ⟨r, hr, by simp [hentries, Value.entriesHaveLong, Value.hasLong, hn]⟩
  have hread : (readNotes (Folder.notes [("a.md", .file statedNote)])).2 = .ok [r] := by
    rw [notes_single, readNotes, hr]
    rfl
  have hpending : IndexRun.isPending false openVault.key (openVault.index twoFolders) ("a.md", statedNote) = true := rfl
  have hresolved : twoFolders.files.folderAt? ["new"] = some [("a.md", .file statedNote)] := rfl
  refine query_ne_of_halt (v := openVault) (d := twoFolders) rfl rfl rfl List.Pairwise.nil hresolved hread
    (by simp [notes_single]) hpending (hlong.unbuilt (loadsKeyed_integerLoader n) hnative).2 "" hq ?_
  refine hall _ {statedNote} openVault twoFolders ["new"] _ (loadsKeyed_integerLoader n) (Set.injOn_singleton _ _) rfl rfl
    (.empty _) tidy_twoFolders hresolved (by simp [notes_single]) (by simpa [notes_single] using hnative) "LIST"

end Vault

end NoteQuery

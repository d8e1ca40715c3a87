import NoteQuery.Proofs.Vault.Agreement

/-!
# What private notes cannot change

A result depends on the public records alone. Two folders, two indexes or two lists of records that
have the same public part give every query the same result, entry by entry and group by group, whatever
private records, notes that cannot be read and other vaults there are beside it.
-/

namespace NoteQuery

open Index (Keyed)

/-! ## Notes that are shown -/

namespace Note

/-- A note that can be read and that nothing in it makes private. -/
def IsShown [Yaml.Loader] (note : String × List UInt8) : Prop := ∃ r, toRecord note.1 note.2 = .ok r ∧ r.isPrivate = false

def shown? [Yaml.Loader] (note : String × List UInt8) : Option Record := (toRecord note.1 note.2).toOption.filter (!·.isPrivate)

theorem isSome_shown?_iff [Yaml.Loader] {note : String × List UInt8} : (shown? note).isSome = true ↔ IsShown note := by
  rw [Option.isSome_iff_exists]
  unfold shown? IsShown
  cases toRecord note.1 note.2 with
  | error fault => simp [Except.toOption]
  | ok r => simp [Except.toOption, Option.filter]

end Note

namespace Vault

theorem filter_of_readNotes [Yaml.Loader] : ∀ {notes : List (String × List UInt8)} {records : List Record},
    (readNotes notes).2 = .ok records → records.filter (!·.isPrivate) = notes.filterMap Note.shown?
  | [], records, h => by
    rw [← Except.ok.inj h]
    rfl
  | (path, content) :: notes, records, h => by
    rw [readNotes] at h
    cases hr : Note.toRecord path content with
    | ok r =>
      rw [hr] at h
      obtain ⟨rest, hrest, rfl⟩ := map_eq_ok h
      have ih := filter_of_readNotes hrest
      by_cases hprivate : r.isPrivate = true
      · have hnone : Note.shown? (path, content) = none := by simp [Note.shown?, hr, Except.toOption, hprivate]
        rw [List.filterMap_cons_none hnone, ← ih, List.filter_cons_of_neg (by simp [hprivate])]
      · have hsome : Note.shown? (path, content) = some r := by simp [Note.shown?, hr, Except.toOption, hprivate]
        rw [List.filterMap_cons_some hsome, ← ih, List.filter_cons_of_pos (by simp [hprivate])]
    | error fault =>
      rw [hr] at h
      have hnone : Note.shown? (path, content) = none := by simp [Note.shown?, hr, Except.toOption]
      rw [List.filterMap_cons_none hnone]
      -- a note that is passed over is not shown; any other fault ends the reading
      by_cases hskipped : fault.isSkipped = true
      · simp only [hskipped, if_true] at h
        exact filter_of_readNotes h
      · simp only [hskipped, if_false, Bool.false_eq_true] at h
        cases h

theorem shown_congr [Yaml.Loader] {f g : Folder} (hf : Folder.Tidy f) (hg : Folder.Tidy g)
    (hsame : ∀ note, Note.IsShown note → (note ∈ f.notes ↔ note ∈ g.notes)) :
    f.notes.filterMap Note.shown? = g.notes.filterMap Note.shown? := by
  have hshown : ∀ notes : List (String × List UInt8),
      notes.filterMap Note.shown? = (notes.filter fun note => (Note.shown? note).isSome).filterMap Note.shown? := by
    intro notes
    rw [List.filterMap_filter]
    refine List.filterMap_congr fun note _ => ?_
    cases Note.shown? note <;> rfl
  have hfilter : (f.notes.filter fun note => (Note.shown? note).isSome) =
      g.notes.filter fun note => (Note.shown? note).isSome := by
    refine eq_of_ascending ((Folder.notes_ascending hf).filter _) ((Folder.notes_ascending hg).filter _) fun note => ?_
    rw [List.mem_filter, List.mem_filter, Note.isSome_shown?_iff]
    exact and_congr_left fun hnote => hsame note hnote
  rw [hshown, hfilter, ← hshown]

theorem runPublic_congr (q : Query) {rs ss : List Record}
    (h : rs.filter (!·.isPrivate) = ss.filter (!·.isPrivate)) : runPublic q rs = runPublic q ss := by
  rw [runPublic, h, ← runPublic]

/-! ## Public records of an index -/

theorem public_congr {x y : Index} {key : VaultKey} (hx : Keyed x.rows) (hy : Keyed y.rows)
    (hsame : ∀ r : Record, r.isPrivate = false → ((key, r) ∈ x.rows ↔ (key, r) ∈ y.rows)) :
    (x.recordsOf key).filter (!·.isPrivate) = (y.recordsOf key).filter (!·.isPrivate) := by
  refine eq_of_ascending ((Index.recordsOf_ascending hx key).filter _) ((Index.recordsOf_ascending hy key).filter _)
    fun r => ?_
  rw [List.mem_filter, List.mem_filter, Index.mem_recordsOf, Index.mem_recordsOf, Bool.not_eq_true']
  exact and_congr_left fun hr => hsame r hr

theorem listPublic_eq (x : Index) (key : VaultKey) :
    x.listPublic key = x.checkOpen.map fun _ => (x.recordsOf key).filter (!·.isPrivate) := by
  rw [Index.listPublic, Index.listAll]
  cases x.checkOpen <;> rfl

/-! ## Results -/

/-- What a query finds depends on shown notes and public records alone. -/
theorem results_of_public [Yaml.Loader] (v : Vault) :
    (∀ {d e : Disk} {folder other : List String} {f g : Folder}, Folder.Tidy d.files → Folder.Tidy e.files →
      d.files.folderAt? folder = some f → e.files.folderAt? other = some g →
      (∀ note, Note.IsShown note → (note ∈ f.notes ↔ note ∈ g.notes)) →
      (∃ rs, (readNotes f.notes).2 = .ok rs) → (∃ ss, (readNotes g.notes).2 = .ok ss) →
        ∀ text, (v.query text (some folder) d).1 = (v.query text (some other) e).1 ∧
          ∀ fault, (v.query text (some folder) d).1 = .error fault →
            (∃ cause, fault = .query cause) ∨ ∃ cause, fault = .text cause) ∧
    (∀ {x y : Index} {key : VaultKey}, Keyed x.rows → Keyed y.rows → x.checkOpen = y.checkOpen →
      (∀ r : Record, r.isPrivate = false → ((key, r) ∈ x.rows ↔ (key, r) ∈ y.rows)) →
        ∀ q, runIndex q key x = runIndex q key y) ∧
    ∀ {rs ss : List Record}, rs.filter (!·.isPrivate) = ss.filter (!·.isPrivate) →
      ∀ q, runPublic q rs = runPublic q ss := by
  refine ⟨?_, ?_, fun hsame q => runPublic_congr q hsame⟩
  · intro d e folder other f g hd he hf hg hsame hread hread' text
    obtain ⟨rs, hrs⟩ := hread
    obtain ⟨ss, hss⟩ := hread'
    rw [query, query]
    cases v.parse text with
    | error cause =>
      refine ⟨rfl, fun fault hfault => Or.inl ⟨cause, ?_⟩⟩
      dsimp only at hfault
      split at hfault
      · cases hfault
      · exact (Except.error.inj hfault).symm
    | ok q =>
      -- both folders give the query the same public records
      have hpublic : rs.filter (!·.isPrivate) = ss.filter (!·.isPrivate) := by
        rw [filter_of_readNotes hrs, filter_of_readNotes hss,
          shown_congr (hd.of_folderAt? hf) (he.of_folderAt? hg) hsame]
      dsimp only
      rw [queryFolder_of_readNotes v q hf hrs, queryFolder_of_readNotes v q hg hss, runPublic_congr q hpublic]
      refine ⟨rfl, fun fault hfault => Or.inr ?_⟩
      cases hrun : runPublic q ss with
      | ok r =>
        rw [hrun] at hfault
        cases hfault
      | error cause =>
        rw [hrun] at hfault
        exact ⟨cause, (Except.error.inj hfault).symm⟩
  · intro x y key hx hy hopen hsame q
    rw [runIndex, runIndex, listPublic_eq, listPublic_eq, hopen, public_congr hx hy hsame]

/-! ## A note with company -/

def privateNote : List UInt8 := Bytes.encodeUtf8 "---\nprivate: true\n---\nSeen #once\n".toList

/-- One note beside one that cannot be read, and the same note beside a private and a hidden one. -/
def companyDisk : Disk :=
  ⟨[("first", .folder [("a.md", .file soundNote), ("b.md", .file brokenNote)]),
    ("second", .folder [(".b.md", .file soundNote), ("a.md", .file soundNote), ("c.md", .file privateNote)])], []⟩

theorem notes_second : Folder.notes
    [(".b.md", .file soundNote), ("a.md", .file soundNote), ("c.md", .file privateNote)] =
      [("a.md", soundNote), ("c.md", privateNote)] :=
  Folder.notes_of_pairwise (by decide +kernel) (by decide)

theorem shown_company (note : String × List UInt8) (h : Note.IsShown note) :
    note ∈ [("a.md", soundNote), ("b.md", brokenNote)] ↔ note ∈ [("a.md", soundNote), ("c.md", privateNote)] := by
  have hbroken : (Note.shown? ("b.md", brokenNote)).isSome = false := by decide +kernel
  have hprivate : (Note.shown? ("c.md", privateNote)).isSome = false := by decide +kernel
  have hsome := Note.isSome_shown?_iff.mpr h
  have hb : note ≠ ("b.md", brokenNote) := by
    rintro rfl
    rw [hbroken] at hsome
    cases hsome
  have hc : note ≠ ("c.md", privateNote) := by
    rintro rfl
    rw [hprivate] at hsome
    cases hsome
  simp [hb, hc]

def aloneRecord : Record := ⟨"a.md", "a", "", [], [], [], false⟩

def secretRecord : Record := ⟨"b.md", "b", "", [], [], [], true⟩

def alone : Index := { Index.empty "index" with rows := [(homeVault, aloneRecord)] }

/-- The record of `alone` beside a private one, and the other way round in another vault. -/
def company : Index :=
  { Index.empty "index" with rows := [(⟨"u", "o", "r", "next"⟩, { aloneRecord with path := "c.md" }),
      (homeVault, secretRecord), (homeVault, aloneRecord)] }

theorem tidy_company : Folder.Tidy companyDisk.files := by
  simp [companyDisk, Folder.Tidy, Folder.TidyItem, Folder.Slashless]

theorem results_of_public_company :
    (∀ text, (openVault.query text (some ["first"]) companyDisk).1 = (openVault.query text (some ["second"]) companyDisk).1) ∧
    (∀ q, runIndex q homeVault alone = runIndex q homeVault company) ∧
    ∀ q, runPublic q [aloneRecord] = runPublic q [secretRecord, aloneRecord] := by
  obtain ⟨hfolders, hindexes, hlists⟩ := results_of_public openVault
  refine ⟨?_, ?_, hlists rfl⟩
  · have hread : ∀ notes : List (String × List UInt8), (readNotes notes).2.toOption.isSome = true →
        ∃ rs, (readNotes notes).2 = .ok rs := by
      intro notes h
      cases hrs : (readNotes notes).2 with
      | error fault => rw [hrs] at h; cases h
      | ok rs => exact ⟨rs, rfl⟩
    refine fun text => (hfolders (f := [("a.md", .file soundNote), ("b.md", .file brokenNote)])
      (g := [(".b.md", .file soundNote), ("a.md", .file soundNote), ("c.md", .file privateNote)])
      tidy_company tidy_company rfl rfl ?_ ?_ ?_ text).1
    · rw [notes_pair, notes_second]
      exact shown_company
    · exact hread _ (by rw [notes_pair]; decide +kernel)
    · exact hread _ (by rw [notes_second]; decide +kernel)
  · refine hindexes (List.pairwise_singleton _ _) (by unfold Keyed; decide) rfl fun r hr => ?_
    have hne : r ≠ secretRecord := by
      rintro rfl
      cases hr
    simp [alone, company, homeVault, hne]

end Vault

end NoteQuery

import NoteQuery.Proofs.Folder.PublicNotes
import NoteQuery.Proofs.Note.FrontMatter

/-!
# Virtual fields of notes

The suffix of notes is taken off a file name when the record is made, and once more when the name is shown. So the
path of a note is its folder, the name that is shown and the suffix, unless the file has the suffix twice. Such a
note is shown under the name of the note beside it whose file has the suffix once less.
-/

namespace NoteQuery

/-! ## Parts of a path -/

def folderPrefix (folder : String) : String := if folder = "/" then "" else folder ++ "/"

theorem path_eq {path : String} (h : path.toList.head? ≠ some '/') :
    path = folderPrefix (folderOf path) ++ fileName path := by
  unfold folderOf folderChars fileName
  cases hsplit : Text.splitLast? '/' path.toList with
  | none => simp [folderPrefix]
  | some parts =>
    obtain ⟨before, after⟩ := parts
    have hpath := Text.eq_of_splitLast? hsplit
    have hne : before ≠ [] := by
      intro hnil
      simp [hpath, hnil] at h
    have hroot : String.ofList before ≠ "/" := by
      intro hroot
      have hslash : before = ['/'] := by simpa using congrArg String.toList hroot
      simp [hpath, hslash] at h
    apply String.toList_inj.mp
    simp [folderPrefix, hne, hroot, hpath]

theorem suffix_folderPrefix {tail : List Char} (h : '/' ∉ tail) (folder s : String) :
    tail <:+ (folderPrefix folder ++ s).toList ↔ tail <:+ s.toList := by
  unfold folderPrefix
  split
  · rw [String.empty_append]
  · rw [String.toList_append, String.toList_append, List.append_assoc]
    exact Folder.suffix_behind_slash h

/-! ## The suffix of notes -/

theorem noteName_append (stem : String) : noteName (stem ++ ".md") = stem := by
  unfold noteName
  rw [String.toList_append]
  have hdrop : Text.dropTail noteSuffix (stem.toList ++ ".md".toList) = stem.toList := Text.dropTail_append _ _
  rw [hdrop, String.ofList_toList]

theorem noteName_of_not_suffix {s : String} (h : ¬".md".toList <:+ s.toList) : noteName s = s := by
  have hnone : Text.after? noteSuffix.reverse s.toList.reverse = none := by
    rw [Option.eq_none_iff_forall_ne_some]
    intro rest hrest
    have heq := congrArg List.reverse (Text.after?_eq_some_iff.mp hrest)
    rw [List.reverse_append, List.reverse_reverse, List.reverse_reverse] at heq
    exact h ⟨rest.reverse, heq.symm⟩
  rw [noteName, Text.dropTail, hnone, String.ofList_toList]

theorem exists_stem {s : String} (h : ".md".toList <:+ s.toList) : ∃ stem, s = stem ++ ".md" := by
  obtain ⟨cs, hcs⟩ := h
  refine ⟨String.ofList cs, ?_⟩
  rw [← String.toList_inj, String.toList_append, String.toList_ofList, hcs]

def IsDoubled (path : String) : Prop := ".md.md".toList <:+ path.toList

instance (path : String) : Decidable (IsDoubled path) := inferInstanceAs (Decidable (_ <:+ _))

def endingOf (path : String) : String := if IsDoubled path then ".md.md" else ".md"

def shownName (path : String) : String := noteName (noteName (fileName path))

theorem isDoubled_append {s : String} : IsDoubled (s ++ ".md") ↔ ".md".toList <:+ s.toList := by
  have htwice : ".md.md".toList = ".md".toList ++ ".md".toList := rfl
  rw [IsDoubled, htwice, String.toList_append, List.suffix_append_inj_of_length_eq rfl]
  exact and_iff_left rfl

/-! ## Paths of notes -/

structure IsNotePath (path : String) : Prop where
  head : path.toList.head? ≠ some '/'
  suffix : ".md".toList <:+ path.toList

theorem IsNotePath.eq_shown {path : String} (h : IsNotePath path) :
    path = folderPrefix (folderOf path) ++ shownName path ++ endingOf path := by
  have hpath := path_eq h.head
  have hfile : ".md".toList <:+ (fileName path).toList := by
    have hsuffix := h.suffix
    rw [hpath] at hsuffix
    exact (suffix_folderPrefix (by decide) _ _).mp hsuffix
  obtain ⟨stem, hstem⟩ := exists_stem hfile
  -- the suffix of the file stands behind the stem, so the path is doubled just if the stem has one, too
  have hdoubled : IsDoubled path ↔ ".md".toList <:+ stem.toList := by
    rw [hstem, ← String.append_assoc] at hpath
    rw [hpath, isDoubled_append, suffix_folderPrefix (by decide)]
  rw [hstem] at hpath
  unfold shownName endingOf
  rw [hstem, noteName_append]
  by_cases hd : IsDoubled path
  · obtain ⟨name, hname⟩ := exists_stem (hdoubled.mp hd)
    rw [if_pos hd, hname, noteName_append, String.append_assoc]
    rw [hname, String.append_assoc] at hpath
    exact hpath
  · rw [if_neg hd, noteName_of_not_suffix (mt hdoubled.mpr hd), String.append_assoc]
    exact hpath

theorem IsNotePath.eq_of_doubled {path : String} (h : IsNotePath path) (hdoubled : IsDoubled path) :
    path = folderPrefix (folderOf path) ++ shownName path ++ ".md.md" := by
  have hpath := h.eq_shown
  rw [endingOf, if_pos hdoubled] at hpath
  exact hpath

theorem IsNotePath.eq_of_single {path : String} (h : IsNotePath path) (hsingle : ¬IsDoubled path) :
    path = folderPrefix (folderOf path) ++ shownName path ++ ".md" := by
  have hpath := h.eq_shown
  rw [endingOf, if_neg hsingle] at hpath
  exact hpath

/-- The name that is shown and the suffix make up the path just if the file has the suffix once. -/
theorem IsNotePath.eq_iff {path : String} (h : IsNotePath path) :
    path = folderPrefix (folderOf path) ++ shownName path ++ ".md" ↔ ¬IsDoubled path := by
  constructor
  · intro heq hdoubled
    have hlength := congrArg String.length ((h.eq_of_doubled hdoubled).symm.trans heq)
    simp only [String.length_append] at hlength
    have hends : ".md.md".length = ".md".length + 3 := rfl
    omega
  · exact h.eq_of_single

section
variable {a b : String} (ha : IsNotePath a) (hb : IsNotePath b) (hfolder : folderOf a = folderOf b)
include ha hb hfolder

theorem eq_append_of_shownName (hsingle : ¬IsDoubled a) (hdoubled : IsDoubled b) (hname : shownName a = shownName b) :
    b = a ++ ".md" := by
  have hpath := ha.eq_of_single hsingle
  rw [hfolder, hname] at hpath
  calc b = folderPrefix (folderOf b) ++ shownName b ++ (".md" ++ ".md") := hb.eq_of_doubled hdoubled
    _ = folderPrefix (folderOf b) ++ shownName b ++ ".md" ++ ".md" := (String.append_assoc ..).symm
    _ = a ++ ".md" := congrArg (· ++ ".md") hpath.symm

theorem shownName_of_eq_append (hsingle : ¬IsDoubled a) (h : b = a ++ ".md") : shownName a = shownName b := by
  have hdoubled : IsDoubled b := h ▸ isDoubled_append.mpr ha.suffix
  have hpath := ha.eq_of_single hsingle
  rw [hfolder] at hpath
  have hboth : folderPrefix (folderOf b) ++ shownName a ++ ".md" ++ ".md" =
      folderPrefix (folderOf b) ++ shownName b ++ (".md" ++ ".md") := by
    calc folderPrefix (folderOf b) ++ shownName a ++ ".md" ++ ".md" = a ++ ".md" := congrArg (· ++ ".md") hpath.symm
      _ = b := h.symm
      _ = _ := hb.eq_of_doubled hdoubled
  have hchars := congrArg String.toList hboth
  simp only [String.toList_append, List.append_assoc] at hchars
  apply String.toList_inj.mp
  exact List.append_cancel_right (List.append_cancel_left hchars)

theorem shownName_eq_iff (hne : a ≠ b) :
    shownName a = shownName b ↔ (b = a ++ ".md" ∧ ¬IsDoubled a) ∨ (a = b ++ ".md" ∧ ¬IsDoubled b) := by
  constructor
  · intro hname
    by_cases hda : IsDoubled a
    · by_cases hdb : IsDoubled b
      · have hpath := ha.eq_of_doubled hda
        rw [hfolder, hname, ← hb.eq_of_doubled hdb] at hpath
        exact absurd hpath hne
      · exact Or.inr ⟨eq_append_of_shownName hb ha hfolder.symm hdb hda hname.symm, hdb⟩
    · by_cases hdb : IsDoubled b
      · exact Or.inl ⟨eq_append_of_shownName ha hb hfolder hda hdb hname, hda⟩
      · have hpath := ha.eq_of_single hda
        rw [hfolder, hname, ← hb.eq_of_single hdb] at hpath
        exact absurd hpath hne
  · intro h
    rcases h with ⟨h, hsingle⟩ | ⟨h, hsingle⟩
    · exact shownName_of_eq_append ha hb hfolder hsingle h
    · exact (shownName_of_eq_append hb ha hfolder.symm hsingle h).symm

end

/-! ## Fields of a record -/

/-- What a record says of the place and the name of its note. -/
structure Record.Shows (r : Record) (path folder name : String) : Prop where
  path_eq : r.resolve "file.path" = .text path
  folder_eq : r.resolve "file.folder" = .text folder
  name_eq : r.resolve "file.name" = .text name
  link_eq : r.resolve "file.link" = .link path name

namespace Note

theorem shows_of_toRecord [Yaml.Loader] {path : String} {content : List UInt8} {r : Record}
    (h : toRecord path content = .ok r) :
    r.Shows path (folderOf path) (shownName path) := by
  obtain ⟨text, body, -, -, hr⟩ := exists_of_toRecord h
  rw [hr]
  exact ⟨rfl, rfl, rfl, rfl⟩

end Note

namespace Folder

def Named (f : Folder) : Prop := ∀ item ∈ f, item.1 ≠ ""

instance (f : Folder) : Decidable (Named f) := inferInstanceAs (Decidable (∀ item ∈ f, item.1 ≠ ""))

theorem isNotePath_of_mem {f : Folder} (h : Tidy f) (hnamed : Named f) {path : String} {content : List UInt8}
    (hnote : (path, content) ∈ f.notes) : IsNotePath path := by
  obtain ⟨names, rfl, hpublic⟩ := (mem_notes_iff h).mp hnote
  constructor
  · have hfile := hpublic.file
    cases names with
    | nil => cases hfile
    | cons name names =>
      have hslash := slashless_of_itemAt? h hfile name List.mem_cons_self
      rw [itemAt?_cons] at hfile
      obtain ⟨item, hitem, -⟩ := Option.bind_eq_some_iff.mp hfile
      have hne : name.toList ≠ [] := mt String.toList_eq_nil_iff.mp (hnamed _ (mem_of_lookup hitem))
      have hjoined := joined_cons name "" names
      rw [String.append_empty] at hjoined
      rw [hjoined, String.toList_append, List.head?_append_of_ne_nil _ hne]
      exact fun hhead => hslash (List.mem_of_mem_head? hhead)
  · exact isNoteName_iff.mp ((isNoteName_joined hpublic.ne_nil).mpr hpublic.suffix)

end Folder

/-- Path, folder and name of a note, as the fields of its record show them. -/
theorem Folder.fields_of_notes [Yaml.Loader] {f : Folder} (h : Tidy f) (hnamed : f.Named) :
    (∀ path content r, (path, content) ∈ f.notes → Note.toRecord path content = .ok r →
      ∃ folder name, r.Shows path folder name ∧ path = folderPrefix folder ++ name ++ endingOf path ∧
        (path = folderPrefix folder ++ name ++ ".md" ↔ ¬IsDoubled path)) ∧
    ∀ a b, a ∈ f.notes → b ∈ f.notes → a.1 ≠ b.1 → ∀ r s, Note.toRecord a.1 a.2 = .ok r →
      Note.toRecord b.1 b.2 = .ok s → r.resolve "file.folder" = s.resolve "file.folder" →
      (r.resolve "file.name" = s.resolve "file.name" ↔
        (b.1 = a.1 ++ ".md" ∧ ¬IsDoubled a.1) ∨ (a.1 = b.1 ++ ".md" ∧ ¬IsDoubled b.1)) := by
  constructor
  · intro path content r hnote hr
    have hpath := isNotePath_of_mem h hnamed hnote
    exact ⟨folderOf path, shownName path, Note.shows_of_toRecord hr, hpath.eq_shown, hpath.eq_iff⟩
  · intro a b ha hb hne r s hr hs hfolder
    have hshowsA := Note.shows_of_toRecord hr
    have hshowsB := Note.shows_of_toRecord hs
    rw [hshowsA.folder_eq, hshowsB.folder_eq, Value.text.injEq] at hfolder
    rw [hshowsA.name_eq, hshowsB.name_eq, Value.text.injEq]
    exact shownName_eq_iff (isNotePath_of_mem h hnamed ha) (isNotePath_of_mem h hnamed hb) hfolder hne

/-- Notes with the suffix once, twice and three times, in two folders. -/
def suffixedNotes : Folder :=
  [("a.md", .file []), ("a.md.md", .file []), ("n", .folder [("a.md", .file []), ("b.c.md.md.md", .file [])])]

theorem Folder.fields_of_suffixedNotes : Tidy suffixedNotes ∧ suffixedNotes.Named ∧
    ("a.md", []) ∈ suffixedNotes.notes ∧ ("a.md.md", []) ∈ suffixedNotes.notes ∧
    ∃ r s, Note.toRecord "a.md" [] = .ok r ∧ Note.toRecord "a.md.md" [] = .ok s ∧
      (∃ name, r.Shows "a.md" "/" name ∧ "a.md" = folderPrefix "/" ++ name ++ ".md") ∧
      r.resolve "file.name" = s.resolve "file.name" := by
  have htidy : Tidy suffixedNotes := by decide +kernel
  have hnamed : suffixedNotes.Named := by decide +kernel
  have hmem : ∀ path, (path, []) ∈ suffixedNotes.notes ↔
      (path, []) ∈ (notesOfItems "" suffixedNotes).filter fun note => !Note.isPrivatePath note.1 :=
    fun path => List.mem_mergeSort
  have hfirst : ("a.md", []) ∈ suffixedNotes.notes := (hmem _).mpr (by decide +kernel)
  have hsecond : ("a.md.md", []) ∈ suffixedNotes.notes := (hmem _).mpr (by decide +kernel)
  obtain ⟨hplaces, hnames⟩ := fields_of_notes htidy hnamed
  obtain ⟨folder, name, hshows, -, hiff⟩ := hplaces "a.md" [] _ hfirst rfl
  have hroot : "/" = folder := Value.text.inj hshows.folder_eq
  subst hroot
  have hsame := (hnames _ _ hfirst hsecond (by decide) _ _ rfl rfl rfl).mpr (Or.inl ⟨rfl, by decide +kernel⟩)
  exact ⟨htidy, hnamed, hfirst, hsecond, _, _, rfl, rfl, ⟨name, hshows, hiff.mpr (by decide +kernel)⟩, hsame⟩

theorem Folder.not_always_made_up : ¬∀ (f : Folder) path content r, Tidy f → f.Named → (path, content) ∈ f.notes →
    Note.toRecord path content = .ok r →
      ∃ folder name, r.Shows path folder name ∧ path = folderPrefix folder ++ name ++ ".md" := by
  intro hall
  have hmem : ("a.md.md", []) ∈ suffixedNotes.notes := List.mem_mergeSort.mpr (by decide +kernel)
  obtain ⟨folder, name, hshows, hpath⟩ := hall suffixedNotes "a.md.md" [] _ (by decide +kernel) (by decide +kernel) hmem rfl
  have hroot : "/" = folder := Value.text.inj hshows.folder_eq
  have hname : shownName "a.md.md" = name := Value.text.inj hshows.name_eq
  subst hroot hname
  revert hpath
  decide +kernel

end NoteQuery

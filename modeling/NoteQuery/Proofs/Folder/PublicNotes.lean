import NoteQuery.Proofs.Folder.Notes
import NoteQuery.Proofs.Folder.Place
import NoteQuery.Proofs.Text.Lines
import NoteQuery.Proofs.Text.Lower

/-!
# Public notes

The notes of a folder are the files that are reached through folders alone, by names that end in the suffix of
notes and of which none is hidden or marks privacy. That goes for every folder inside as well, so the notes of a
folder inside are those of the whole whose path begins with its own.
-/

namespace NoteQuery.Folder

/-! ## Names on a path -/

structure IsPublicName (name : String) : Prop where
  shown : name.toList.head? ≠ some '.'
  unmarked : Text.lower name.toList ≠ "private".toList
  unlined : Text.lower name.toList ≠ "_private".toList
  undotted : ¬"_private.".toList <+: Text.lower name.toList

theorem isHidden_iff {name : String} : isHidden name = true ↔ name.toList.head? = some '.' := beq_iff_eq

theorem isPublicName_iff {name : String} :
    IsPublicName name ↔ isHidden name = false ∧ Note.marksPrivacy (Text.lower name.toList) = false := by
  rw [← Bool.not_eq_true, ← Bool.not_eq_true, isHidden_iff, Note.marksPrivacy, Bool.or_eq_true, Bool.or_eq_true,
    beq_iff_eq, beq_iff_eq, Text.startsWith_iff, not_or, not_or]
  constructor
  · rintro ⟨hshown, hunmarked, hunlined, hundotted⟩
    exact ⟨hshown, ⟨hunlined, hunmarked⟩, hundotted⟩
  · rintro ⟨hshown, ⟨hunlined, hunmarked⟩, hundotted⟩
    exact ⟨hshown, hunmarked, hunlined, hundotted⟩

theorem toList_joined (names : List String) :
    ("/".intercalate names).toList = Text.joinWith ['/'] (names.map String.toList) := by
  rw [String.toList_intercalate, Text.joinWith_eq_intercalate]
  rfl

theorem cutAt_joined {names : List String} (hne : names ≠ []) (hnames : ∀ name ∈ names, Slashless name) :
    Text.cutAt '/' ("/".intercalate names).toList = names.map String.toList := by
  have hpieces : ∀ piece ∈ names.map String.toList, '/' ∉ piece := by
    intro piece hpiece
    obtain ⟨name, hname, rfl⟩ := List.mem_map.mp hpiece
    exact hnames name hname
  have hsplit := (Text.splitOn_intercalate_eq_iff (mt List.map_eq_nil_iff.mp hne)).mpr hpieces
  rw [Text.cutAt, Text.cutWhere_eq_splitOnP, toList_joined, Text.joinWith_eq_intercalate]
  exact hsplit

theorem isPrivatePath_joined {names : List String} (hne : names ≠ []) (hnames : ∀ name ∈ names, Slashless name) :
    Note.isPrivatePath ("/".intercalate names) = false ↔
      ∀ name ∈ names, Note.marksPrivacy (Text.lower name.toList) = false := by
  rw [Note.isPrivatePath, Text.cutAt_lower, cutAt_joined hne hnames, List.map_map, List.any_map, List.any_eq_false]
  simp only [Function.comp_apply, Bool.not_eq_true]

theorem joined_append {names more : List String} (hne : names ≠ []) (hmore : more ≠ []) :
    "/".intercalate (names ++ more) = "/".intercalate names ++ "/" ++ "/".intercalate more := by
  apply String.toList_inj.mp
  rw [String.toList_append, String.toList_append, toList_joined, toList_joined, toList_joined, List.map_append,
    Text.joinWith_append _ (mt List.map_eq_nil_iff.mp hne) (mt List.map_eq_nil_iff.mp hmore)]
  rfl

theorem prefix_append (s t : String) : s.toList <+: (s ++ t).toList := by
  rw [String.toList_append]
  exact List.prefix_append _ _

theorem joined_cons (before name : String) (names : List String) :
    "/".intercalate ((before ++ name) :: names) = before ++ "/".intercalate (name :: names) := by
  cases names with
  | nil => rw [String.intercalate_singleton, String.intercalate_singleton]
  | cons next names =>
    rw [String.intercalate_cons_cons, String.intercalate_cons_cons, String.append_assoc, String.append_assoc,
      String.append_assoc]

theorem prefix_joined_iff {p names : List String} (hp : p ≠ []) (hne : names ≠ []) (hpath : ∀ name ∈ p, Slashless name)
    (hnames : ∀ name ∈ names, Slashless name) :
    ("/".intercalate p ++ "/").toList <+: ("/".intercalate names).toList ↔ ∃ more, more ≠ [] ∧ names = p ++ more := by
  constructor
  · intro h
    have hcut := (Text.cutAt_prefix_iff '/' ("/".intercalate p).toList ("/".intercalate names).toList).mpr
      (Or.inr (by rwa [String.toList_append] at h))
    rw [cutAt_joined hp hpath, cutAt_joined hne hnames] at hcut
    obtain ⟨more, rfl⟩ := (List.prefix_map_iff_of_injective fun _ _ => String.toList_inj.mp).mp hcut
    refine ⟨more, ?_, rfl⟩
    rintro rfl
    have hlength := h.length_le
    rw [List.append_nil, String.toList_append, List.length_append] at hlength
    exact absurd hlength (by simp)
  · rintro ⟨more, hmore, rfl⟩
    rw [joined_append hp hmore]
    exact prefix_append _ _

/-! ## The suffix of notes -/

theorem isNoteName_iff {name : String} : isNoteName name = true ↔ ".md".toList <:+ name.toList := by
  rw [isNoteName, Text.startsWith_iff, ← List.reverse_suffix, List.reverse_reverse]
  rfl

theorem suffix_behind_slash {tail a b : List Char} (h : '/' ∉ tail) : tail <:+ a ++ '/' :: b ↔ tail <:+ b := by
  constructor
  · intro htail
    rcases List.suffix_or_suffix_of_suffix htail (List.suffix_append a ('/' :: b)) with hsuffix | hsuffix
    · rcases List.suffix_cons_iff.mp hsuffix with rfl | hsuffix
      · exact absurd List.mem_cons_self h
      · exact hsuffix
    · exact absurd (hsuffix.mem List.mem_cons_self) h
  · intro htail
    exact htail.trans ((List.suffix_cons '/' b).trans (List.suffix_append a _))

theorem isNoteName_joined {names : List String} (hne : names ≠ []) :
    isNoteName ("/".intercalate names) = true ↔ ∃ last ∈ names.getLast?, ".md".toList <:+ last.toList := by
  induction names with
  | nil => exact absurd rfl hne
  | cons name names ih =>
    rw [isNoteName_iff] at ih ⊢
    cases names with
    | nil => simp
    | cons next names =>
      rw [String.intercalate_cons_cons, String.toList_append, String.toList_append, List.append_assoc,
        List.getLast?_cons_cons, ← ih (List.cons_ne_nil _ _)]
      exact suffix_behind_slash (by decide)

/-! ## Files that are reached -/

theorem slashless_of_itemAt? {names : List String} {item : FolderItem} : ∀ {f : Folder}, Tidy f →
    itemAt? names f = some item → ∀ name ∈ names, Slashless name := by
  induction names with
  | nil => exact fun _ _ => List.forall_mem_nil _
  | cons name names ih =>
    intro f h hitem
    rw [itemAt?_cons] at hitem
    obtain ⟨first, hfirst, hbelow⟩ := Option.bind_eq_some_iff.mp hitem
    have hname : Slashless name := ((tidy_iff.mp h).2 (name, first) (mem_of_lookup hfirst)).1
    refine List.forall_mem_cons.mpr ⟨hname, ?_⟩
    cases names with
    | nil => exact List.forall_mem_nil _
    | cons next names =>
      cases first with
      | folder items =>
        have hitems := h.of_lookup hfirst
        rw [TidyItem] at hitems
        exact ih hitems hbelow
      | _ => cases hbelow

/-- A file with the suffix of notes that is reached through folders alone, by public names. -/
structure IsPublicNote (f : Folder) (names : List String) (content : List UInt8) : Prop where
  file : itemAt? names f = some (.file content)
  suffix : ∃ last ∈ names.getLast?, ".md".toList <:+ last.toList
  shown : ∀ name ∈ names, IsPublicName name

theorem IsPublicNote.ne_nil {f : Folder} {names : List String} {content : List UInt8} (h : IsPublicNote f names content) :
    names ≠ [] := by
  rintro rfl
  obtain ⟨last, hlast, -⟩ := h.suffix
  cases hlast

theorem isPublicNote_append {f inner : Folder} {p names : List String} {content : List UInt8} (hne : names ≠ [])
    (hp : itemAt? p f = some (.folder inner)) (hpublic : ∀ name ∈ p, IsPublicName name) :
    IsPublicNote f (p ++ names) content ↔ IsPublicNote inner names content := by
  have hitem := itemAt?_append hne hp
  have hlast : (p ++ names).getLast? = names.getLast? := by
    rw [List.getLast?_append, List.getLast?_eq_some_getLast hne, Option.some_or]
  constructor
  · rintro ⟨hfile, hsuffix, hshown⟩
    exact ⟨hitem ▸ hfile, hlast ▸ hsuffix, fun name hname => hshown name (List.mem_append_right p hname)⟩
  · rintro ⟨hfile, hsuffix, hshown⟩
    exact ⟨hitem.trans hfile, hlast.symm ▸ hsuffix, List.forall_mem_append.mpr ⟨hpublic, hshown⟩⟩

/-! ## The walk through a folder -/

theorem mem_notesOfItems {before : String} {note : String × List UInt8} : ∀ {items : List (String × FolderItem)},
    note ∈ notesOfItems before items ↔
      ∃ entry ∈ items, isHidden entry.1 = false ∧ note ∈ notesOfItem (before ++ entry.1) entry.2
  | [] => by simp [notesOfItems]
  | (name, item) :: items => by
    rw [notesOfItems, List.mem_append, mem_notesOfItems, List.exists_mem_cons_iff]
    cases isHidden name <;> simp

mutual

theorem exists_below_of_mem {name : String} {note : String × List UInt8} : ∀ {item : FolderItem}, TidyItem item →
    note ∈ notesOfItem name item → ∃ names, note.1 = "/".intercalate (name :: names) ∧
      below? names item = some (.file note.2) ∧ (∀ n ∈ names, isHidden n = false) ∧ isNoteName note.1 = true
  | .file content, _, h => by
    rw [notesOfItem] at h
    split at h
    · rename_i hsuffix
      obtain rfl := List.mem_singleton.mp h
      exact ⟨[], String.intercalate_singleton.symm, rfl, List.forall_mem_nil _, hsuffix⟩
    · cases h
  | .folder items, htidy, h => by
    rw [TidyItem] at htidy
    rw [notesOfItem] at h
    obtain ⟨names, hne, hpath, hfile, hshown, hsuffix⟩ := exists_itemAt?_of_mem htidy h
    obtain ⟨next, names, rfl⟩ := List.exists_cons_of_ne_nil hne
    exact ⟨next :: names, by rw [hpath, String.intercalate_cons_cons], hfile, hshown, hsuffix⟩
  | .link target, _, h => by
    rw [notesOfItem] at h
    cases h

theorem exists_itemAt?_of_mem {before : String} {note : String × List UInt8} :
    ∀ {items : List (String × FolderItem)}, Tidy items → note ∈ notesOfItems before items →
      ∃ names, names ≠ [] ∧ note.1 = before ++ "/".intercalate names ∧ itemAt? names items = some (.file note.2) ∧
        (∀ n ∈ names, isHidden n = false) ∧ isNoteName note.1 = true
  | [], _, h => by
    rw [notesOfItems] at h
    cases h
  | (name, item) :: items, htidy, h => by
    rw [Tidy] at htidy
    obtain ⟨hother, -, hitem, hitems⟩ := htidy
    rw [notesOfItems, List.mem_append] at h
    rcases h with h | h
    · split at h
      · cases h
      · rename_i hname
        obtain ⟨names, hpath, hfile, hshown, hsuffix⟩ := exists_below_of_mem hitem h
        refine ⟨name :: names, List.cons_ne_nil _ _, by rw [hpath, joined_cons], ?_, ?_, hsuffix⟩
        · rw [itemAt?_cons, List.lookup_cons_self, Option.bind_some, hfile]
        · exact List.forall_mem_cons.mpr ⟨Bool.eq_false_iff.mpr hname, hshown⟩
    · obtain ⟨names, hne, hpath, hfile, hshown, hsuffix⟩ := exists_itemAt?_of_mem hitems h
      -- the names of a folder differ, so an item behind the first is not found under its name
      obtain ⟨first, names, rfl⟩ := List.exists_cons_of_ne_nil hne
      refine ⟨first :: names, hne, hpath, ?_, hshown, hsuffix⟩
      rw [itemAt?_cons] at hfile ⊢
      obtain ⟨below, hbelow, hfile⟩ := Option.bind_eq_some_iff.mp hfile
      have hne : first ≠ name := fun heq => hother _ (mem_of_lookup hbelow) heq.symm
      rw [List.lookup_cons, beq_false_of_ne hne]
      dsimp only
      rw [hbelow, Option.bind_some, hfile]

end

theorem mem_notesOfItems_of_itemAt? {content : List UInt8} : ∀ {names : List String} {before : String} {f : Folder},
    itemAt? names f = some (.file content) → (∀ n ∈ names, isHidden n = false) →
      isNoteName (before ++ "/".intercalate names) = true → (before ++ "/".intercalate names, content) ∈ notesOfItems before f
  | [], _, _, hfile, _, _ => by cases hfile
  | name :: names, before, f, hfile, hshown, hsuffix => by
    obtain ⟨hname, hnames⟩ := List.forall_mem_cons.mp hshown
    rw [itemAt?_cons] at hfile
    obtain ⟨item, hitem, hbelow⟩ := Option.bind_eq_some_iff.mp hfile
    refine mem_notesOfItems.mpr ⟨(name, item), mem_of_lookup hitem, hname, ?_⟩
    cases names with
    | nil =>
      obtain rfl := Option.some.inj hbelow
      rw [String.intercalate_singleton] at hsuffix ⊢
      rw [notesOfItem, if_pos hsuffix]
      exact List.mem_singleton_self _
    | cons next names =>
      cases item with
      | folder inner =>
        have hpath : before ++ "/".intercalate (name :: next :: names) =
            before ++ name ++ "/" ++ "/".intercalate (next :: names) := by
          rw [String.intercalate_cons_cons, String.append_assoc, String.append_assoc, String.append_assoc]
        rw [hpath] at hsuffix ⊢
        rw [notesOfItem]
        exact mem_notesOfItems_of_itemAt? hbelow hnames hsuffix
      | _ => cases hbelow

theorem mem_notes_iff {f : Folder} (h : Tidy f) {path : String} {content : List UInt8} :
    (path, content) ∈ f.notes ↔ ∃ names, path = "/".intercalate names ∧ IsPublicNote f names content := by
  rw [notes, List.mem_mergeSort, List.mem_filter, Bool.not_eq_true']
  constructor
  · rintro ⟨hmem, hprivate⟩
    obtain ⟨names, hne, hpath, hfile, hshown, hsuffix⟩ := exists_itemAt?_of_mem h hmem
    rw [String.empty_append] at hpath
    dsimp only at hpath hfile hsuffix hprivate
    subst hpath
    have hpublic := (isPrivatePath_joined hne (slashless_of_itemAt? h hfile)).mp hprivate
    refine ⟨names, rfl, hfile, (isNoteName_joined hne).mp hsuffix, fun name hname => ?_⟩
    exact isPublicName_iff.mpr ⟨hshown name hname, hpublic name hname⟩
  · rintro ⟨names, rfl, hnote⟩
    have hpublic : ∀ name ∈ names, isHidden name = false ∧ Note.marksPrivacy (Text.lower name.toList) = false :=
      fun name hname => isPublicName_iff.mp (hnote.shown name hname)
    have hsuffix := (isNoteName_joined hnote.ne_nil).mpr hnote.suffix
    constructor
    · rw [← String.empty_append (s := "/".intercalate names)] at hsuffix ⊢
      exact mem_notesOfItems_of_itemAt? hnote.file (fun name hname => (hpublic name hname).1) hsuffix
    · refine (isPrivatePath_joined hnote.ne_nil (slashless_of_itemAt? h hnote.file)).mpr ?_
      exact fun name hname => (hpublic name hname).2

/-! ## Folders inside -/

theorem IsPublicName.ne_parent {name : String} (h : IsPublicName name) : name ≠ ".." := by
  rintro rfl
  exact h.shown rfl

theorem lt_append_left (s : String) {a b : String} (h : a < b) : s ++ a < s ++ b := by
  rw [String.lt_iff, String.toList_append, String.toList_append]
  exact List.append_left_lt (String.lt_iff.mp h)

theorem notes_inner {f inner : Folder} (h : Tidy f) {p : List String} (hne : p ≠ [])
    (hp : itemAt? p f = some (.folder inner)) (hpublic : ∀ name ∈ p, IsPublicName name) :
    inner.notes.map (fun note => ("/".intercalate p ++ "/" ++ note.1, note.2)) =
      f.notes.filter fun note => ("/".intercalate p ++ "/").toList <+: note.1.toList := by
  have hinner : Tidy inner := by
    have hitem := h.of_itemAt? hp
    rwa [TidyItem] at hitem
  have hpath := slashless_of_itemAt? h hp
  -- both sides go up by path, so it is enough that they have the same notes
  refine @eq_of_ascending _ Prod.fst _ _ ?_ ((notes_ascending h).filter _) ?_
  · exact List.pairwise_map.mpr ((notes_ascending hinner).imp fun hlt => lt_append_left _ hlt)
  rintro ⟨path, content⟩
  rw [List.mem_map, List.mem_filter, mem_notes_iff h, decide_eq_true_iff]
  constructor
  · rintro ⟨⟨rest, _⟩, hmem, heq⟩
    obtain ⟨names, rfl, hnote⟩ := (mem_notes_iff hinner).mp hmem
    obtain ⟨rfl, rfl⟩ := Prod.mk.inj heq
    have hjoined := joined_append hne hnote.ne_nil
    have hwhole := (isPublicNote_append hnote.ne_nil hp hpublic).mpr hnote
    exact ⟨⟨p ++ names, hjoined.symm, hwhole⟩, prefix_append _ _⟩
  · rintro ⟨⟨names, rfl, hnote⟩, hprefix⟩
    obtain ⟨more, hmore, rfl⟩ :=
      (prefix_joined_iff hne hnote.ne_nil hpath (slashless_of_itemAt? h hnote.file)).mp hprefix
    have hinnerNote := (isPublicNote_append hmore hp hpublic).mp hnote
    refine ⟨("/".intercalate more, content), (mem_notes_iff hinner).mpr ⟨more, rfl, hinnerNote⟩, ?_⟩
    rw [joined_append hne hmore]

theorem notes_public {f : Folder} (h : Tidy f) :
    f.notes.Pairwise (fun a b => a.1 < b.1) ∧
    (∀ path content, (path, content) ∈ f.notes ↔
      ∃ names, path = "/".intercalate names ∧ IsPublicNote f names content) ∧
    ∀ (p : List String) (inner : Folder), p ≠ [] → itemAt? p f = some (.folder inner) → (∀ name ∈ p, IsPublicName name) →
      f.folderAt? p = some inner ∧
      inner.notes.map (fun note => ("/".intercalate p ++ "/" ++ note.1, note.2)) =
        f.notes.filter fun note => ("/".intercalate p ++ "/").toList <+: note.1.toList := by
  refine ⟨notes_ascending h, fun path content => mem_notes_iff h, fun p inner hne hp hpublic => ⟨?_, ?_⟩⟩
  · rw [folderAt?, find?, resolve_of_itemAt? hp fun name hname => (hpublic name hname).ne_parent, hp]
  · exact notes_inner h hne hp hpublic

/-- Files beside and below a folder, and others that are hidden, private, links or no notes. -/
def mixedFolder : Folder :=
  [("a-b.md", .file [1]), ("a.md", .file [2]), ("l.md", .link ["a.md"]), (".h.md", .file [3]), ("a.MD", .file [4]),
    ("a", .folder [("PRIVATE", .folder [("p.md", .file [5])]), ("b.md", .folder [("c.md", .file [6])]),
      ("d.md", .file [7]), ("_Private.md", .file [8])])]

theorem notes_public_mixedFolder : Tidy mixedFolder ∧
    mixedFolder.notes.map (·.1) = ["a-b.md", "a.md", "a/b.md/c.md", "a/d.md"] ∧
    ∃ inner, mixedFolder.folderAt? ["a"] = some inner ∧
      inner.notes.map (fun note => ("a/" ++ note.1, note.2)) = [("a/b.md/c.md", [6]), ("a/d.md", [7])] := by
  have htidy : Tidy mixedFolder := by decide +kernel
  have hnotes : mixedFolder.notes =
      [("a-b.md", [1]), ("a.md", [2]), ("a/b.md/c.md", [6]), ("a/d.md", [7])] :=
    notes_of_pairwise (by decide +kernel) (by decide +kernel)
  obtain ⟨-, -, hinside⟩ := notes_public htidy
  have ha : IsPublicName "a" := ⟨by decide, by decide +kernel, by decide +kernel, by decide +kernel⟩
  obtain ⟨hfolder, hsame⟩ := hinside ["a"] _ (by decide) rfl (by simpa using ha)
  refine ⟨htidy, by rw [hnotes]; rfl, _, hfolder, ?_⟩
  rw [show "/".intercalate ["a"] ++ "/" = "a/" from rfl, hnotes] at hsame
  rw [hsame]
  decide +kernel

end NoteQuery.Folder

import NoteQuery.Folder
import NoteQuery.Proofs.Lookup

/-!
# Tidy folders

In a tidy folder no two items have one name, and no name has a slash in it. What is found in a tidy
folder is tidy, and changes keep it so.
-/

namespace NoteQuery.Folder

def Slashless (name : String) : Prop := '/' ∉ name.toList

mutual

def TidyItem : FolderItem → Prop
  | .file _ => True
  | .folder items => Tidy items
  | .link target => ∀ name ∈ target, Slashless name

/-- The names of a folder are different from each other, and without slashes, at every depth. -/
def Tidy : List (String × FolderItem) → Prop
  | [] => True
  | (name, item) :: items => (∀ other ∈ items, name ≠ other.1) ∧ Slashless name ∧ TidyItem item ∧ Tidy items

end

mutual

instance decidableTidyItem : (item : FolderItem) → Decidable (TidyItem item)
  | .file _ => isTrue trivial
  | .folder items => decidableTidy items
  | .link target => inferInstanceAs (Decidable (∀ name ∈ target, '/' ∉ name.toList))

instance decidableTidy : (f : List (String × FolderItem)) → Decidable (Tidy f)
  | [] => isTrue trivial
  | (name, item) :: items =>
    have := decidableTidyItem item
    have := decidableTidy items
    inferInstanceAs (Decidable ((∀ other ∈ items, name ≠ other.1) ∧ '/' ∉ name.toList ∧ _))

end

theorem tidy_iff {f : Folder} : Tidy f ↔
    f.Pairwise (fun a b => a.1 ≠ b.1) ∧ ∀ entry ∈ f, Slashless entry.1 ∧ TidyItem entry.2 := by
  induction f with
  | nil => simp [Tidy]
  | cons entry f ih =>
    rw [Tidy, ih, List.pairwise_cons, List.forall_mem_cons]
    constructor
    · rintro ⟨hother, hname, hitem, hpairwise, hall⟩
      exact ⟨⟨hother, hpairwise⟩, ⟨hname, hitem⟩, hall⟩
    · rintro ⟨⟨hother, hpairwise⟩, ⟨hname, hitem⟩, hall⟩
      exact ⟨hother, hname, hitem, hpairwise, hall⟩

/-! ## What is found -/

theorem Tidy.of_lookup {f : Folder} (h : Tidy f) {name : String} {item : FolderItem}
    (hitem : f.lookup name = some item) : TidyItem item :=
  ((tidy_iff.mp h).2 (name, item) (mem_of_lookup hitem)).2

theorem Tidy.of_itemAt? : ∀ {path : List String} {f : Folder} {item : FolderItem}, Tidy f →
    itemAt? path f = some item → TidyItem item
  | [], f, item, h, hitem => by
    obtain rfl := Option.some.inj hitem
    rw [TidyItem]
    exact h
  | [name], f, item, h, hitem => h.of_lookup hitem
  | name :: next :: names, f, item, h, hitem => by
    rw [itemAt?] at hitem
    · split at hitem
      · rename_i inner hinner
        have hfolder := h.of_lookup hinner
        rw [TidyItem] at hfolder
        exact Tidy.of_itemAt? hfolder hitem
      · cases hitem
    · simp

theorem Tidy.of_folderAt? {f inner : Folder} (h : Tidy f) {path : List String}
    (hinner : f.folderAt? path = some inner) : Tidy inner := by
  rw [folderAt?] at hinner
  split at hinner
  · rename_i items hitems
    obtain rfl := Option.some.inj hinner
    have hitem := h.of_itemAt? hitems
    rwa [TidyItem] at hitem
  · cases hinner

end NoteQuery.Folder

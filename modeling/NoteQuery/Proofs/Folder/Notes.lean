import NoteQuery.Proofs.Folder.Tidy
import NoteQuery.Proofs.Text.Ascending

/-!
# The notes of a folder

In a tidy folder the path of a note says under which item it is. So the notes of a tidy folder, which
are in the order of their paths, have each path once.
-/

namespace NoteQuery.Folder

/-! ## Paths of notes -/

def Below (rest : List Char) : Prop := rest = [] ∨ ∃ inner, rest = '/' :: inner

theorem takeWhile_name {name rest : List Char} (hname : '/' ∉ name) (hrest : Below rest) :
    (name ++ rest).takeWhile (· ≠ '/') = name := by
  have hall : ∀ c ∈ name, decide (c ≠ '/') = true := fun c hc => decide_eq_true fun heq => hname (heq ▸ hc)
  rw [List.takeWhile_append_of_pos hall]
  rcases hrest with rfl | ⟨inner, rfl⟩
  · rw [List.takeWhile_nil, List.append_nil]
  · rw [List.takeWhile_cons_of_neg (by simp), List.append_nil]

mutual

theorem below_of_mem_notesOfItem {name : String} {note : String × List UInt8} : ∀ {item : FolderItem},
    note ∈ notesOfItem name item → ∃ rest, Below rest ∧ note.1.toList = name.toList ++ rest
  | .file content, h => by
    rw [notesOfItem] at h
    split at h
    · obtain rfl := List.mem_singleton.mp h
      exact ⟨[], Or.inl rfl, (List.append_nil _).symm⟩
    · cases h
  | .folder items, h => by
    rw [notesOfItem] at h
    obtain ⟨entry, -, rest, -, hpath⟩ := below_of_mem_notesOfItems h
    refine ⟨'/' :: (entry.1.toList ++ rest), Or.inr ⟨_, rfl⟩, ?_⟩
    rw [hpath, String.toList_append, List.append_assoc]
    rfl
  | .link target, h => by
    rw [notesOfItem] at h
    cases h

theorem below_of_mem_notesOfItems {before : String} {note : String × List UInt8} :
    ∀ {items : List (String × FolderItem)}, note ∈ notesOfItems before items →
      ∃ entry ∈ items, ∃ rest, Below rest ∧ note.1.toList = before.toList ++ (entry.1.toList ++ rest)
  | [], h => by
    rw [notesOfItems] at h
    cases h
  | (name, item) :: items, h => by
    rw [notesOfItems, List.mem_append] at h
    rcases h with h | h
    · split at h
      · cases h
      · obtain ⟨rest, hrest, hpath⟩ := below_of_mem_notesOfItem h
        refine ⟨(name, item), List.mem_cons_self, rest, hrest, ?_⟩
        rw [hpath, String.toList_append, List.append_assoc]
    · obtain ⟨entry, hentry, rest, hrest, hpath⟩ := below_of_mem_notesOfItems h
      exact ⟨entry, List.mem_cons_of_mem _ hentry, rest, hrest, hpath⟩

end

mutual

theorem paths_ne_of_tidyItem (name : String) : ∀ {item : FolderItem}, TidyItem item →
    (notesOfItem name item).Pairwise fun a b => a.1 ≠ b.1
  | .file content, _ => by
    rw [notesOfItem]
    split
    · exact List.pairwise_singleton _ _
    · exact List.Pairwise.nil
  | .folder items, h => by
    rw [TidyItem] at h
    rw [notesOfItem]
    exact paths_ne_of_tidy (name ++ "/") h
  | .link target, _ => by
    rw [notesOfItem]
    exact List.Pairwise.nil

theorem paths_ne_of_tidy (before : String) : ∀ {items : List (String × FolderItem)}, Tidy items →
    (notesOfItems before items).Pairwise fun a b => a.1 ≠ b.1
  | [], _ => by
    rw [notesOfItems]
    exact List.Pairwise.nil
  | (name, item) :: items, h => by
    rw [Tidy] at h
    obtain ⟨hother, hname, hitem, hitems⟩ := h
    rw [notesOfItems]
    refine List.pairwise_append.mpr ⟨?_, paths_ne_of_tidy before hitems, fun a ha b hb hpath => ?_⟩
    · split
      · exact List.Pairwise.nil
      · exact paths_ne_of_tidyItem (before ++ name) hitem
    · split at ha
      · cases ha
      -- the name of the item of a note is what its path has up to the first slash after `before`
      obtain ⟨rest, hrest, ha⟩ := below_of_mem_notesOfItem ha
      obtain ⟨entry, hentry, rest', hrest', hb⟩ := below_of_mem_notesOfItems hb
      rw [hpath, hb, String.toList_append, List.append_assoc, List.append_cancel_left_eq] at ha
      have hsame := congrArg (List.takeWhile (· ≠ '/')) ha
      rw [takeWhile_name ((tidy_iff.mp hitems).2 entry hentry).1 hrest', takeWhile_name hname hrest] at hsame
      exact hother entry hentry (String.toList_inj.mp hsame).symm

end

theorem notes_ascending {f : Folder} (h : Tidy f) : f.notes.Pairwise fun a b => a.1 < b.1 :=
  ascending_mergeSort ((paths_ne_of_tidy "" h).filter _)

theorem notes_of_pairwise {f : Folder} {l : List (String × List UInt8)}
    (h : (notesOfItems "" f).filter (fun note => !Note.isPrivatePath note.1) = l)
    (hl : l.Pairwise fun a b => a.1 ≤ b.1) : f.notes = l := by
  rw [notes, h, List.mergeSort_of_pairwise]
  exact hl.imp decide_eq_true

end NoteQuery.Folder

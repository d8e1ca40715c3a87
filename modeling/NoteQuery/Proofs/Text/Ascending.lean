import Mathlib.Data.List.Sort

/-!
# Lists in the order of a text

What notes and records are listed by is their path, and no two of a list share one. Sorting makes
such a list strictly ascending, and an ascending list is known from its members.
-/

namespace NoteQuery

variable {α : Type} {text : α → String}

theorem ascending_mergeSort {l : List α} (h : l.Pairwise fun a b => text a ≠ text b) :
    (l.mergeSort fun a b => text a ≤ text b).Pairwise fun a b => text a < text b := by
  have hordered : (l.mergeSort fun a b => text a ≤ text b).Pairwise fun a b => decide (text a ≤ text b) = true := by
    refine List.pairwise_mergeSort (fun a b c hab hbc => ?_) (fun a b => ?_) l
    · exact decide_eq_true (String.le_trans (of_decide_eq_true hab) (of_decide_eq_true hbc))
    · simpa using String.le_total (text a) (text b)
  have hdistinct : (l.mergeSort fun a b => text a ≤ text b).Pairwise fun a b => text a ≠ text b :=
    (List.mergeSort_perm l _).symm.pairwise h fun hab => hab.symm
  refine (hordered.and hdistinct).imp fun ⟨hle, hne⟩ => ?_
  exact String.not_le.mp fun hge => hne (String.le_antisymm (of_decide_eq_true hle) hge)

theorem eq_of_ascending {l m : List α} (hl : l.Pairwise fun a b => text a < text b)
    (hm : m.Pairwise fun a b => text a < text b) (h : ∀ a, a ∈ l ↔ a ∈ m) : l = m := by
  have hirrefl : Std.Irrefl fun a b : α => text a < text b := ⟨fun a => String.lt_irrefl (text a)⟩
  have hantisymm : Std.Antisymm fun a b : α => text a < text b :=
    ⟨fun a b hab hba => absurd (String.lt_trans hab hba) (String.lt_irrefl (text a))⟩
  exact hl.eq_of_mem_iff hm h

theorem ne_of_ascending {l : List α} (h : l.Pairwise fun a b => text a < text b) :
    l.Pairwise fun a b => text a ≠ text b := by
  refine h.imp fun hlt heq => ?_
  rw [heq] at hlt
  exact String.lt_irrefl _ hlt

end NoteQuery

import Mathlib.Data.List.Basic

/-!
# Look-ups

Entries of a list by their keys, where each key is there once.
-/

namespace NoteQuery

variable {α β : Type} [DecidableEq α]

theorem lookup_filter {a : α} {p : α × β → Bool} (hp : ∀ b, p (a, b) = true) :
    ∀ entries : List (α × β), (entries.filter p).lookup a = entries.lookup a
  | [] => rfl
  | (k, b) :: entries => by
    have ih := lookup_filter hp entries
    rw [List.filter_cons, List.lookup_cons]
    by_cases hk : a = k
    · subst hk
      rw [if_pos (hp b), List.lookup_cons, beq_self_eq_true]
    · rw [beq_false_of_ne hk]
      split
      · rw [List.lookup_cons, beq_false_of_ne hk, ih]
      · exact ih

theorem lookup_eq_none {a : α} {entries : List (α × β)}
    (h : ∀ entry ∈ entries, a ≠ entry.1) : entries.lookup a = none :=
  List.lookup_eq_none_iff.mpr fun entry hentry => bne_iff_ne.mpr (h entry hentry)

theorem mem_of_lookup {a : α} {b : β} {entries : List (α × β)}
    (h : entries.lookup a = some b) : (a, b) ∈ entries := by
  obtain ⟨before, after, rfl, -⟩ := List.lookup_eq_some_iff.mp h
  exact List.mem_append_right _ List.mem_cons_self

theorem lookup_of_mem {a : α} {b : β} : ∀ {entries : List (α × β)},
    entries.Pairwise (fun x y => x.1 ≠ y.1) → (a, b) ∈ entries → entries.lookup a = some b
  | (k, c) :: entries, h, hmem => by
    obtain ⟨hhead, htail⟩ := List.pairwise_cons.mp h
    rcases List.mem_cons.mp hmem with heq | hmem
    · obtain ⟨rfl, rfl⟩ := Prod.mk.inj heq
      exact List.lookup_cons_self
    · rw [List.lookup_cons, beq_false_of_ne (hhead (a, b) hmem).symm]
      exact lookup_of_mem htail hmem

/-- Where keys are different from each other, what a filter leaves is found or not by its own entry. -/
theorem lookup_filter_of_distinct (a : α) (p : α × β → Bool) :
    ∀ {entries : List (α × β)}, entries.Pairwise (fun x y => x.1 ≠ y.1) →
      (entries.filter p).lookup a = (entries.lookup a).filter fun b => p (a, b)
  | [], _ => rfl
  | (k, b) :: entries, h => by
    obtain ⟨hhead, htail⟩ := List.pairwise_cons.mp h
    have ih := lookup_filter_of_distinct a p htail
    rw [List.filter_cons, List.lookup_cons]
    by_cases hk : a = k
    · subst hk
      rw [beq_self_eq_true]
      dsimp only
      rw [Option.filter_some]
      split
      · rw [List.lookup_cons, beq_self_eq_true]
      · rw [ih, lookup_eq_none hhead]
        rfl
    · rw [beq_false_of_ne hk, ← ih]
      split
      · rw [List.lookup_cons, beq_false_of_ne hk]
      · rfl

end NoteQuery

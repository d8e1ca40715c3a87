import NoteQuery.Proofs.Text.Squeeze

/-!
# Segments of texts

Cutting a text at a separator is the library's splitting. The segments of one text begin those of another if
the second goes on behind a separator, and separators that are trimmed at the ends do not change that.
-/

namespace NoteQuery.Text

theorem cutWhere_eq_splitOnP (p : Char → Bool) (cs : List Char) : cutWhere p cs = cs.splitOnP p := by
  induction cs with
  | nil => rfl
  | cons c cs ih =>
    rw [List.splitOnP_cons_eq_if_modifyHead, ← ih]
    by_cases hc : p c = true
    · rw [if_pos hc, cutWhere_cons_of_pos p hc]
    · rw [if_neg hc]
      obtain ⟨pieces, hcut⟩ := exists_cutWhere p cs
      rw [cutWhere_cons_of_neg p (Bool.eq_false_iff.mpr hc) hcut, hcut]
      rfl

theorem joinWith_append (sep : List Char) {a b : List (List Char)} (ha : a ≠ []) (hb : b ≠ []) :
    joinWith sep (a ++ b) = joinWith sep a ++ sep ++ joinWith sep b := by
  induction a with
  | nil => exact absurd rfl ha
  | cons piece pieces ih =>
    by_cases hp : pieces = []
    · rw [hp]
      exact joinWith_cons sep piece hb
    · have hne : pieces ++ b ≠ [] := by simp [hp]
      rw [List.cons_append, joinWith_cons sep piece hne, joinWith_cons sep piece hp, ih hp]
      simp only [List.append_assoc]

/-- A text whose segments begin those of another is that text, or stands in it before a separator. -/
theorem cutAt_prefix_iff (sep : Char) (a b : List Char) :
    cutAt sep a <+: cutAt sep b ↔ b = a ∨ a ++ [sep] <+: b := by
  constructor
  · intro h
    obtain ⟨pieces, h⟩ := h
    -- the pieces are joined again, so that a longer list of pieces is a longer text
    have hb : joinWith [sep] (cutAt sep a ++ pieces) = b := by rw [h, joinWith_cutAt]
    by_cases hp : pieces = []
    · left
      rw [← hb, hp, List.append_nil, joinWith_cutAt]
    · right
      have ha : cutAt sep a ≠ [] := cutWhere_ne_nil _ a
      rw [joinWith_append [sep] ha hp, joinWith_cutAt] at hb
      exact ⟨_, hb⟩
  · intro h
    rcases h with h | h
    · refine ⟨[], ?_⟩
      rw [h, List.append_nil]
    · obtain ⟨rest, h⟩ := h
      rw [← h, List.append_assoc]
      refine ⟨cutAt sep rest, ?_⟩
      exact (cutWhere_append_cons (· == sep) (beq_self_eq_true sep) rest a).symm

/-! ## Trimming -/

theorem not_isBlank_last (cs : List Char) : ∀ c ∈ (dropFinalBlanks cs).getLast?, isBlank c = false := by
  intro c hc
  rw [dropFinalBlanks, List.getLast?_reverse] at hc
  have hhead := List.head?_dropWhile_not isBlank cs.reverse
  rw [hc] at hhead
  exact hhead

theorem not_isBlank_last_trim (cs : List Char) : ∀ c ∈ (trim cs).getLast?, isBlank c = false :=
  not_isBlank_last (dropBlanks cs)

theorem dropFinalBlanks_append {cs blanks : List Char} (h : ∀ c ∈ blanks, isBlank c = true) :
    dropFinalBlanks (cs ++ blanks) = dropFinalBlanks cs := by
  rw [dropFinalBlanks, List.reverse_append, List.dropWhile_append_of_pos]
  · rfl
  · intro c hc
    exact h c (List.mem_reverse.mp hc)

theorem trim_append {before cs after : List Char} (hbefore : ∀ c ∈ before, isBlank c = true)
    (hafter : ∀ c ∈ after, isBlank c = true) (hfirst : ∃ c ∈ cs.head?, isBlank c = false)
    (hlast : ∃ c ∈ cs.getLast?, isBlank c = false) : trim (before ++ (cs ++ after)) = cs := by
  obtain ⟨c, hc, hblank⟩ := hfirst
  have hhead : c ∈ (cs ++ after).head? := List.mem_head?_append_of_mem_head? hc
  have hlead : dropBlanks (before ++ (cs ++ after)) = cs ++ after := by
    rw [dropBlanks, List.dropWhile_append_of_pos hbefore]
    exact dropBlanks_of_first ⟨c, hhead, hblank⟩
  rw [trim, hlead, dropFinalBlanks_append hafter]
  have hcs := trim_of_ends ⟨c, hc, hblank⟩ hlast
  rw [trim, dropBlanks_of_first ⟨c, hc, hblank⟩] at hcs
  exact hcs

theorem mem_getLast?_of_suffix {c : Char} {tail cs : List Char} (h : tail <:+ cs) (hc : c ∈ tail.getLast?) :
    c ∈ cs.getLast? := by
  obtain ⟨before, heq⟩ := h
  rw [← heq, List.getLast?_append, hc]
  rfl

theorem dropAll_append (c : Char) (a b : List Char) :
    dropAll c (a ++ b) = if dropAll c a = [] then dropAll c b else dropAll c a ++ b := by
  unfold dropAll
  rw [List.dropWhile_append]
  simp only [List.isEmpty_iff]

theorem exists_stripAll (c : Char) (cs : List Char) : ∃ n, dropAll c cs = stripAll c cs ++ List.replicate n c := by
  have hall : ∀ d ∈ (dropAll c cs).reverse.takeWhile (· == c), d = c := by
    intro d hd
    exact eq_of_beq (List.all_eq_true.mp List.all_takeWhile d hd)
  have hsplit := List.takeWhile_append_dropWhile (p := (· == c)) (l := (dropAll c cs).reverse)
  refine ⟨((dropAll c cs).reverse.takeWhile (· == c)).length, ?_⟩
  have h := congrArg List.reverse hsplit
  rw [List.reverse_append, List.reverse_reverse, List.eq_replicate_of_mem hall, List.reverse_replicate] at h
  exact h.symm

theorem stripAll_append {c : Char} {cs : List Char} (hne : stripAll c cs ≠ []) (rest : List Char) :
    cutAt c (stripAll c cs) <+: cutAt c (stripAll c (cs ++ c :: rest)) := by
  have hdrop : dropAll c cs ≠ [] := by
    intro h
    apply hne
    rw [stripAll, h]
    rfl
  have hlead : dropAll c (cs ++ c :: rest) = dropAll c cs ++ c :: rest := by rw [dropAll_append, if_neg hdrop]
  have hwhole : stripAll c (cs ++ c :: rest) = (dropAll c (rest.reverse ++ c :: (dropAll c cs).reverse)).reverse := by
    rw [stripAll, hlead, List.reverse_append, List.reverse_cons, List.append_assoc]
    rfl
  rw [cutAt_prefix_iff, hwhole, dropAll_append]
  -- either the rest is nothing but separators, or its first segment follows a separator that stays
  by_cases hrest : dropAll c rest.reverse = []
  · left
    rw [if_pos hrest]
    simp [dropAll, stripAll]
  · right
    obtain ⟨n, hn⟩ := exists_stripAll c cs
    refine ⟨List.replicate n c ++ (dropAll c rest.reverse).reverse, ?_⟩
    rw [if_neg hrest, List.reverse_append, List.reverse_cons, List.reverse_reverse, hn]
    have hcomm : c :: List.replicate n c = List.replicate n c ++ [c] := List.replicate_succ'
    simp only [List.append_assoc, List.singleton_append]
    rw [← List.cons_append, hcomm, List.append_assoc]
    rfl

/-! ## The last separator -/

theorem eq_of_splitLast? {sep : Char} {cs before after : List Char} (h : splitLast? sep cs = some (before, after)) :
    cs = before ++ sep :: after := by
  unfold splitLast? at h
  have hsplit := List.takeWhile_append_dropWhile (p := (· != sep)) (l := cs.reverse)
  split at h
  · cases h
  · rename_i c head hhead
    have hc : c = sep := by
      have hnot := List.head?_dropWhile_not (· != sep) cs.reverse
      rw [hhead] at hnot
      simpa using hnot
    obtain ⟨rfl, rfl⟩ := Prod.mk.inj (Option.some.inj h)
    rw [hhead, hc] at hsplit
    have hcs := congrArg List.reverse hsplit
    rw [List.reverse_append, List.reverse_cons, List.reverse_reverse, List.append_assoc] at hcs
    exact hcs.symm

end NoteQuery.Text

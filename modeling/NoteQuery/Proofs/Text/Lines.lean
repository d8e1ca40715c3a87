import Mathlib.Data.List.TakeWhile
import NoteQuery.Proofs.Text.Segment

/-!
# Lines

Texts joined with line feeds are the lines of the whole, as long as none of them holds a line feed of its
own. Without its final blanks a text keeps a blank just if something that is none stands behind it.
-/

namespace NoteQuery.Text

/-! ## Joined texts -/

theorem joinWith_eq_intercalate (sep : List Char) : ∀ pieces, joinWith sep pieces = sep.intercalate pieces
  | [] => rfl
  | [_] => List.intercalate_singleton.symm
  | piece :: next :: pieces => by
    rw [joinWith_cons sep piece (List.cons_ne_nil next pieces), List.intercalate_cons_cons,
      joinWith_eq_intercalate sep (next :: pieces)]

theorem mem_joinWith {c : Char} {sep : List Char} : ∀ {pieces : List (List Char)}, c ∈ joinWith sep pieces →
    c ∈ sep ∨ ∃ piece ∈ pieces, c ∈ piece
  | [], h => nomatch h
  | [piece], h => Or.inr ⟨piece, List.mem_singleton_self piece, h⟩
  | piece :: next :: pieces, h => by
    rw [joinWith_cons sep piece (List.cons_ne_nil next pieces), List.mem_append, List.mem_append] at h
    rcases h with (h | h) | h
    · exact Or.inr ⟨piece, List.mem_cons_self, h⟩
    · exact Or.inl h
    · exact (mem_joinWith h).imp_right fun ⟨other, hother, hc⟩ => ⟨other, List.mem_cons_of_mem _ hother, hc⟩

theorem forall_not_of_mem_cutWhere {p : Char → Bool} : ∀ {cs piece : List Char}, piece ∈ cutWhere p cs →
    ∀ c ∈ piece, p c = false
  | [], piece, h, c, hc => by
    rw [List.mem_singleton.mp h] at hc
    cases hc
  | d :: cs, piece, h, c, hc => by
    by_cases hd : p d = true
    · rw [cutWhere_cons_of_pos p hd] at h
      rcases List.mem_cons.mp h with rfl | h
      · cases hc
      · exact forall_not_of_mem_cutWhere h c hc
    · have hd := Bool.eq_false_iff.mpr hd
      obtain ⟨pieces, hcut⟩ := exists_cutWhere p cs
      rw [cutWhere_cons_of_neg p hd hcut] at h
      rcases List.mem_cons.mp h with rfl | h
      · rcases List.mem_cons.mp hc with rfl | hc
        · exact hd
        · exact forall_not_of_mem_cutWhere (takeWhile_mem_cutWhere p cs) c hc
      · exact forall_not_of_mem_cutWhere (hcut ▸ List.mem_cons_of_mem _ h) c hc

theorem not_mem_of_mem_splitOn {c : Char} {cs piece : List Char} (h : piece ∈ cs.splitOn c) : c ∉ piece := by
  rw [List.splitOn_eq_splitOnP, ← cutWhere_eq_splitOnP] at h
  intro hc
  simpa using forall_not_of_mem_cutWhere h c hc

theorem isBlank_of_mem_squeeze {c : Char} {cs : List Char} (h : c ∈ squeeze cs) (hblank : isBlank c = true) : c = ' ' := by
  rcases mem_joinWith h with h | ⟨word, hword, hc⟩
  · exact List.mem_singleton.mp h
  · have hword := (List.mem_filter.mp hword).1
    rw [forall_not_of_mem_cutWhere hword c hc] at hblank
    cases hblank

theorem splitOn_intercalate_eq_iff {c : Char} {pieces : List (List Char)} (hne : pieces ≠ []) :
    ([c].intercalate pieces).splitOn c = pieces ↔ ∀ piece ∈ pieces, c ∉ piece := by
  constructor
  · intro h piece hpiece
    rw [← h] at hpiece
    exact not_mem_of_mem_splitOn hpiece
  · intro h
    exact List.splitOn_intercalate c h hne

/-! ## Final blanks -/

theorem exists_finalBlanks (cs : List Char) :
    ∃ blanks, dropFinalBlanks cs ++ blanks = cs ∧ ∀ c ∈ blanks, isBlank c = true := by
  refine ⟨(cs.reverse.takeWhile isBlank).reverse, ?_, ?_⟩
  · rw [dropFinalBlanks, ← List.reverse_append, List.takeWhile_append_dropWhile, List.reverse_reverse]
  · intro c hc
    exact List.all_eq_true.mp List.all_takeWhile c (List.mem_reverse.mp hc)

theorem dropFinalBlanks_of_blank {cs : List Char} (h : ∀ c ∈ cs, isBlank c = true) : dropFinalBlanks cs = [] := by
  have hnil : dropFinalBlanks ([] ++ cs) = dropFinalBlanks [] := dropFinalBlanks_append h
  exact hnil

theorem dropFinalBlanks_append_of_not_blank (cs : List Char) {more : List Char} (h : ∃ d ∈ more, isBlank d = false) :
    dropFinalBlanks (cs ++ more) = cs ++ dropFinalBlanks more := by
  obtain ⟨d, hd, hblank⟩ := h
  have hleft : (more.reverse.dropWhile isBlank).isEmpty = false := by
    rw [← Bool.not_eq_true, List.isEmpty_iff, List.dropWhile_eq_nil_iff]
    intro hall
    rw [hall d (List.mem_reverse.mpr hd)] at hblank
    cases hblank
  unfold dropFinalBlanks
  rw [List.reverse_append, List.dropWhile_append, hleft]
  simp

theorem dropFinalBlanks_cons_of_not_blank {c : Char} {cs : List Char} (h : ∃ d ∈ c :: cs, isBlank d = false) :
    dropFinalBlanks (c :: cs) = c :: dropFinalBlanks cs := by
  by_cases hmore : ∃ d ∈ cs, isBlank d = false
  · exact dropFinalBlanks_append_of_not_blank [c] hmore
  · have hall : ∀ d ∈ cs, isBlank d = true := by simpa using hmore
    have hc : isBlank c = false := by
      obtain ⟨d, hd, hblank⟩ := h
      rcases List.mem_cons.mp hd with rfl | hd
      · exact hblank
      · exact absurd ⟨d, hd, hblank⟩ hmore
    have hone : dropFinalBlanks [c] = [c] := by simp [dropFinalBlanks, hc]
    have happ : dropFinalBlanks ([c] ++ cs) = dropFinalBlanks [c] := dropFinalBlanks_append hall
    rw [dropFinalBlanks_of_blank hall, ← hone]
    exact happ

theorem mem_dropFinalBlanks_iff {c : Char} {cs : List Char} :
    c ∈ dropFinalBlanks cs ↔ ∃ before after, cs = before ++ c :: after ∧ ∃ d ∈ c :: after, isBlank d = false := by
  constructor
  · intro h
    obtain ⟨before, after, heq⟩ := List.append_of_mem h
    obtain ⟨blanks, hcs, -⟩ := exists_finalBlanks cs
    obtain ⟨d, hd⟩ : ∃ d, d ∈ (c :: after).getLast? := ⟨_, List.getLast?_eq_some_getLast (List.cons_ne_nil c after)⟩
    have hlast : d ∈ (dropFinalBlanks cs).getLast? := by
      rw [heq, List.getLast?_append, Option.mem_def.mp hd]
      rfl
    refine ⟨before, after ++ blanks, ?_, d, ?_, not_isBlank_last cs d hlast⟩
    · rw [← hcs, heq, List.append_assoc, List.cons_append]
    · exact List.mem_append_left blanks (List.mem_of_getLast? hd)
  · rintro ⟨before, after, rfl, hd⟩
    rw [dropFinalBlanks_append_of_not_blank before hd, dropFinalBlanks_cons_of_not_blank hd]
    simp

end NoteQuery.Text

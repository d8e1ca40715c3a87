import NoteQuery.Proofs.Text.Letter
import NoteQuery.Proofs.Text.Squeeze
import NoteQuery.Query.Clause

/-!
# Keywords in a text

The runs of a text are its longest stretches of word characters. A keyword is found only where
a run is read as it. So a search passes over a text that is free of the keyword, and a free
clause goes on to the end of a text that is free of all clause keywords.
-/

namespace NoteQuery.Query

open NoteQuery.Text (isWord readsAs afterKeyword? cutWhere)

/-- The longest stretches of word characters. Between two other characters stands an empty one. -/
def runs (cs : List Char) : List (List Char) := cutWhere (!isWord ·) cs

def Reads (keyword run : List Char) : Prop := afterKeyword? keyword run = some []

instance (keyword run : List Char) : Decidable (Reads keyword run) := inferInstanceAs (Decidable (_ = _))

def Free (keywords : List (List Char)) (cs : List Char) : Prop :=
  ∀ run ∈ runs cs, ∀ keyword ∈ keywords, ¬Reads keyword run

instance (keywords : List (List Char)) (cs : List Char) : Decidable (Free keywords cs) :=
  inferInstanceAs (Decidable (∀ run ∈ runs cs, ∀ keyword ∈ keywords, ¬Reads keyword run))

def IsKeyword (keyword : List Char) : Prop := keyword ≠ [] ∧ ∀ letter ∈ keyword, letter.isLower = true

instance (keyword : List Char) : Decidable (IsKeyword keyword) := inferInstanceAs (Decidable (_ ∧ _))

/-- What may follow a part of a query text: nothing, or a space. -/
def AtBreak (rest : List Char) : Prop := ∀ c ∈ rest.head?, c = ' '

theorem atBreak_nil : AtBreak [] := fun _ h => by cases h

theorem atBreak_space (cs : List Char) : AtBreak (' ' :: cs) := fun _ h => by simpa using h.symm

theorem isWord_space : isWord ' ' = false := rfl

/-! ## Reading a keyword -/

theorem afterKeyword?_of_reads : ∀ {keyword run : List Char}, Reads keyword run → ∀ rest,
    afterKeyword? keyword (run ++ rest) = some rest
  | [], run, h, rest => by
    have hrun : run = [] := by simpa [Reads, afterKeyword?] using h
    simp [hrun, afterKeyword?]
  | k :: keyword, [], h, _ => by cases h
  | k :: keyword, c :: run, h, rest => by
    unfold Reads afterKeyword? at h
    split at h
    · rename_i hc
      rw [List.cons_append, afterKeyword?, if_pos hc]
      exact afterKeyword?_of_reads h rest
    · cases h

theorem exists_reads : ∀ {keyword cs rest : List Char}, afterKeyword? keyword cs = some rest →
    ∃ run, cs = run ++ rest ∧ Reads keyword run
  | [], cs, rest, h => ⟨[], by simpa [afterKeyword?] using h, rfl⟩
  | k :: keyword, [], _, h => by cases h
  | k :: keyword, c :: cs, rest, h => by
    rw [afterKeyword?] at h
    split at h
    · rename_i hc
      obtain ⟨run, rfl, hrun⟩ := exists_reads h
      refine ⟨c :: run, rfl, ?_⟩
      rw [Reads, afterKeyword?, if_pos hc]
      exact hrun
    · cases h

theorem exists_readsAs : ∀ {keyword run : List Char}, Reads keyword run → ∀ c ∈ run,
    ∃ letter ∈ keyword, readsAs letter c = true
  | [], run, h, c, hc => by
    have hrun : run = [] := by simpa [Reads, afterKeyword?] using h
    simp [hrun] at hc
  | k :: keyword, [], _, _, hc => by cases hc
  | k :: keyword, d :: run, h, c, hc => by
    unfold Reads afterKeyword? at h
    split at h
    · rename_i hd
      rcases List.mem_cons.mp hc with rfl | hc
      · exact ⟨k, List.mem_cons_self .., hd⟩
      · obtain ⟨letter, hl, hr⟩ := exists_readsAs h c hc
        exact ⟨letter, List.mem_cons_of_mem _ hl, hr⟩
    · cases h

theorem isWord_of_reads {keyword run : List Char} (hk : IsKeyword keyword) (h : Reads keyword run) :
    ∀ c ∈ run, isWord c = true := by
  intro c hc
  obtain ⟨letter, hl, hr⟩ := exists_readsAs h c hc
  exact Text.isWord_of_readsAs (hk.2 letter hl) hr

theorem not_reads_nil {keyword : List Char} (hk : IsKeyword keyword) : ¬Reads keyword [] := by
  intro h
  cases keyword with
  | nil => exact hk.1 rfl
  | cons k keyword => cases h

theorem afterKeyword?_of_not_isWord {keyword cs : List Char} (hk : IsKeyword keyword)
    (hcs : ∀ c ∈ cs.head?, isWord c = false) : afterKeyword? keyword cs = none := by
  cases h : afterKeyword? keyword cs with
  | none => rfl
  | some rest =>
    obtain ⟨run, rfl, hrun⟩ := exists_reads h
    cases run with
    | nil => exact absurd hrun (not_reads_nil hk)
    | cons c run =>
      have hc := isWord_of_reads hk hrun c (List.mem_cons_self ..)
      rw [hcs c rfl] at hc
      cases hc

/-! ## Texts free of keywords -/

theorem Free.mono {keywords others : List (List Char)} {cs : List Char} (h : Free keywords cs)
    (hsub : ∀ keyword ∈ others, keyword ∈ keywords) : Free others cs :=
  fun run hrun keyword hk => h run hrun keyword (hsub keyword hk)

theorem free_append_cons {keywords : List (List Char)} {c : Char} (hc : isWord c = false) (a b : List Char) :
    Free keywords (a ++ c :: b) ↔ Free keywords a ∧ Free keywords b := by
  have hruns : runs (a ++ c :: b) = runs a ++ runs b :=
    Text.cutWhere_append_cons (!isWord ·) (by simp [hc]) b a
  unfold Free
  rw [hruns]
  constructor
  · intro h
    exact ⟨fun run hr => h run (List.mem_append_left _ hr), fun run hr => h run (List.mem_append_right _ hr)⟩
  · rintro ⟨ha, hb⟩ run hr
    rcases List.mem_append.mp hr with hr | hr
    · exact ha run hr
    · exact hb run hr

theorem free_of_isWord {keywords : List (List Char)} {cs : List Char} (hcs : ∀ c ∈ cs, isWord c = true)
    (h : ∀ keyword ∈ keywords, ¬Reads keyword cs) : Free keywords cs := by
  intro run hrun
  rw [runs, Text.cutWhere_of_forall_not _ (by simpa using hcs), List.mem_singleton] at hrun
  rw [hrun]
  exact h

theorem takeWhile_append_of_atBreak (cs : List Char) {rest : List Char} (hrest : AtBreak rest) :
    (cs ++ rest).takeWhile isWord = cs.takeWhile isWord := by
  have hnone : rest.takeWhile isWord = [] := by
    cases rest with
    | nil => rfl
    | cons c rest =>
      rw [hrest c rfl]
      rfl
  rw [List.takeWhile_append, hnone, List.append_nil]
  split
  · rename_i h
    exact (List.takeWhile_prefix _).eq_of_length h |>.symm
  · rfl

/-- A keyword read at the start of a text that is free of it stops inside a word. -/
theorem wordEnds_of_free {keywords : List (List Char)} {keyword cs rest after : List Char}
    (hfree : Free keywords cs) (hmem : keyword ∈ keywords) (hk : IsKeyword keyword) (hrest : AtBreak rest)
    (h : afterKeyword? keyword (cs ++ rest) = some after) : wordEnds after = false := by
  obtain ⟨run, happ, hrun⟩ := exists_reads h
  cases hends : wordEnds after with
  | false => rfl
  | true =>
    have hstop : after.takeWhile isWord = [] := by
      cases after with
      | nil => rfl
      | cons c after =>
        have hc : isWord c = false := by simpa [wordEnds] using hends
        simp [hc]
    have hfirst : cs.takeWhile isWord = run := by
      rw [← takeWhile_append_of_atBreak cs hrest, happ,
        List.takeWhile_append_of_pos (isWord_of_reads hk hrun), hstop, List.append_nil]
    have hin : cs.takeWhile isWord ∈ runs cs := by
      simpa [runs] using Text.takeWhile_mem_cutWhere (!isWord ·) cs
    rw [hfirst] at hin
    exact absurd hrun (hfree run hin keyword hmem)

/-! ## Searching -/

/-- A recogniser that needs a keyword and a space. -/
def LedBy {α : Type} (keyword : List Char) (f : List Char → Option α) : Prop :=
  ∀ cs, afterWord? keyword cs = none → f cs = none

theorem afterWord?_eq_some_iff {keyword cs rest : List Char} :
    afterWord? keyword cs = some rest ↔ afterKeyword? keyword cs = some (' ' :: rest) := by
  unfold afterWord?
  split
  · rename_i heq
    simp [heq]
  · rename_i hne
    constructor
    · intro h
      cases h
    · intro h
      exact absurd h (hne rest)

theorem afterWord?_of_free {keywords : List (List Char)} {keyword cs rest : List Char}
    (hfree : Free keywords cs) (hmem : keyword ∈ keywords) (hk : IsKeyword keyword) (hrest : AtBreak rest) :
    afterWord? keyword (cs ++ rest) = none := by
  cases h : afterWord? keyword (cs ++ rest) with
  | none => rfl
  | some after =>
    have hends := wordEnds_of_free hfree hmem hk hrest (afterWord?_eq_some_iff.mp h)
    cases hends

end NoteQuery.Query

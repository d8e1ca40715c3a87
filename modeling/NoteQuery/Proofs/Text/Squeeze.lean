import Mathlib.Data.List.Chain
import NoteQuery.Text.Segment

/-!
# Texts that are squeezed already

A cut at a separator divides the pieces of a text into those before it and those after it.
A text whose blanks are single spaces between other characters is its own squeezed form, and
such texts can be put together with or without a space between them.
-/

namespace NoteQuery.Text

/-! ## Pieces of a cut text -/

section
variable (p : Char → Bool)

theorem cutWhere_cons_of_pos {c : Char} (hc : p c = true) (cs : List Char) :
    cutWhere p (c :: cs) = [] :: cutWhere p cs := by
  simp [cutWhere, hc]

theorem cutWhere_cons_of_neg {c : Char} (hc : p c = false) {cs piece : List Char}
    {pieces : List (List Char)} (h : cutWhere p cs = piece :: pieces) :
    cutWhere p (c :: cs) = (c :: piece) :: pieces := by
  simp [cutWhere, hc, h]

theorem exists_cutWhere : ∀ cs, ∃ pieces, cutWhere p cs = cs.takeWhile (!p ·) :: pieces
  | [] => ⟨[], rfl⟩
  | c :: cs => by
    obtain ⟨pieces, h⟩ := exists_cutWhere cs
    cases hc : p c with
    | true => exact ⟨cutWhere p cs, by simp [cutWhere_cons_of_pos p hc, hc]⟩
    | false => exact ⟨pieces, by simp [cutWhere_cons_of_neg p hc h, hc]⟩

theorem takeWhile_mem_cutWhere (cs : List Char) : cs.takeWhile (!p ·) ∈ cutWhere p cs := by
  obtain ⟨pieces, h⟩ := exists_cutWhere p cs
  rw [h]
  exact List.mem_cons_self ..

theorem cutWhere_append_cons {c : Char} (hc : p c = true) (b : List Char) :
    ∀ a, cutWhere p (a ++ c :: b) = cutWhere p a ++ cutWhere p b
  | [] => by rw [List.nil_append, cutWhere_cons_of_pos p hc]; rfl
  | d :: a => by
    have ih := cutWhere_append_cons hc b a
    rw [List.cons_append]
    cases hd : p d with
    | true => rw [cutWhere_cons_of_pos p hd, cutWhere_cons_of_pos p hd, ih]; rfl
    | false =>
      obtain ⟨pieces, ha⟩ := exists_cutWhere p a
      rw [cutWhere_cons_of_neg p hd ha, cutWhere_cons_of_neg p hd (by rw [ih, ha]; rfl)]
      rfl

theorem cutWhere_of_forall_not : ∀ {cs : List Char}, (∀ c ∈ cs, p c = false) → cutWhere p cs = [cs]
  | [], _ => rfl
  | c :: cs, h => by
    have ih := cutWhere_of_forall_not fun d hd => h d (List.mem_cons_of_mem _ hd)
    exact cutWhere_cons_of_neg p (h c (List.mem_cons_self ..)) ih

theorem cutWhere_congr {q : Char → Bool} : ∀ {cs : List Char}, (∀ c ∈ cs, p c = q c) →
    cutWhere p cs = cutWhere q cs
  | [], _ => rfl
  | c :: cs, h => by
    have hc := h c (List.mem_cons_self ..)
    have ih := cutWhere_congr fun d hd => h d (List.mem_cons_of_mem _ hd)
    simp only [cutWhere, hc, ih]

theorem ne_nil_of_mem_cutWhere : ∀ {cs : List Char},
    cs.IsChain (fun a b => p a = true → p b = false) → (∃ c ∈ cs.head?, p c = false) →
    (∃ c ∈ cs.getLast?, p c = false) → ∀ piece ∈ cutWhere p cs, piece ≠ []
  | [], _, hfirst, _, _, _ => by simp at hfirst
  | [c], _, hfirst, _, piece, hmem => by
    have hc : p c = false := by simpa using hfirst
    simp [cutWhere, hc] at hmem
    simp [hmem]
  | c :: d :: cs, hchain, hfirst, hlast, piece, hmem => by
    have hc : p c = false := by simpa using hfirst
    have hlast' : ∃ c ∈ (d :: cs).getLast?, p c = false := by simpa [List.getLast?_cons] using hlast
    -- the first cut comes right behind the first character, or later
    cases hd : p d with
    | true =>
      have hcs : cs ≠ [] := by
        rintro rfl
        simp [hd] at hlast'
      obtain ⟨e, es, rfl⟩ := List.exists_cons_of_ne_nil hcs
      have he : p e = false := hchain.tail.rel_head? (y := e) rfl hd
      have hrest := @ne_nil_of_mem_cutWhere (e :: es) hchain.tail.tail (by simpa using he)
        (by simpa [List.getLast?_cons] using hlast')
      rw [show c :: d :: e :: es = [c] ++ d :: e :: es from rfl, cutWhere_append_cons p hd] at hmem
      rcases List.mem_append.mp hmem with h | h
      · simp [cutWhere, hc] at h
        simp [h]
      · exact hrest piece h
    | false =>
      have hrest := @ne_nil_of_mem_cutWhere (d :: cs) hchain.tail (by simpa using hd) hlast'
      obtain ⟨pieces, hcut⟩ := exists_cutWhere p (d :: cs)
      rw [cutWhere_cons_of_neg p hc hcut] at hmem
      rw [hcut] at hrest
      rcases List.mem_cons.mp hmem with rfl | h
      · simp
      · exact hrest piece (List.mem_cons_of_mem _ h)

end

/-! ## Squeezed texts -/

/-- What holds of all characters of a text is decided by going through the text. This comes before the
instance that goes through all characters that there are. -/
instance decidableAllOf {p : Char → Prop} [DecidablePred p] (cs : List Char) : Decidable (∀ c ∈ cs, p c) :=
  List.decidableBAll p cs

def SingleSpaced (cs : List Char) : Prop :=
  (∀ c ∈ cs, isBlank c = true → c = ' ') ∧ cs.IsChain fun a b => isBlank a = true → isBlank b = false

instance (cs : List Char) : Decidable (SingleSpaced cs) := inferInstanceAs (Decidable (_ ∧ _))

structure Tight (cs : List Char) : Prop where
  spaced : SingleSpaced cs
  first : ∃ c ∈ cs.head?, isBlank c = false
  last : ∃ c ∈ cs.getLast?, isBlank c = false

theorem squeeze_of_tight {cs : List Char} (h : Tight cs) : squeeze cs = cs := by
  have hpieces := ne_nil_of_mem_cutWhere isBlank h.spaced.2 h.first h.last
  have hcut : cutWhere isBlank cs = cutAt ' ' cs := by
    refine cutWhere_congr isBlank fun c hc => ?_
    by_cases hb : isBlank c = true
    · simp [h.spaced.1 c hc hb, isBlank]
    · have hne : c ≠ ' ' := fun e => hb (by rw [e]; rfl)
      simp [hb, hne]
  rw [squeeze, words, List.filter_eq_self.mpr (by simpa using hpieces), hcut, joinWith_cutAt]

theorem dropBlanks_of_first {cs : List Char} (h : ∃ c ∈ cs.head?, isBlank c = false) : dropBlanks cs = cs := by
  cases cs with
  | nil => rfl
  | cons c cs =>
    have hc : isBlank c = false := by simpa using h
    simp [dropBlanks, hc]

theorem trim_of_ends {cs : List Char} (hfirst : ∃ c ∈ cs.head?, isBlank c = false)
    (hlast : ∃ c ∈ cs.getLast?, isBlank c = false) : trim cs = cs := by
  have hrev : cs.reverse.dropWhile isBlank = cs.reverse :=
    @dropBlanks_of_first cs.reverse (by simpa [List.head?_reverse] using hlast)
  rw [trim, dropBlanks_of_first hfirst, dropFinalBlanks, hrev, List.reverse_reverse]

theorem trim_of_tight {cs : List Char} (h : Tight cs) : trim cs = cs := trim_of_ends h.first h.last

namespace Tight

theorem of_not_blank {cs : List Char} (h : ∀ c ∈ cs, isBlank c = false) (hne : cs ≠ []) : Tight cs where
  spaced := by
    refine ⟨fun c hc hb => absurd hb (by simp [h c hc]), ?_⟩
    refine (List.isChain_iff_forall_rel_of_append_cons_cons (R := fun a b => isBlank a = true → isBlank b = false)).mpr ?_
    intro a b l₁ l₂ e _
    exact h b (by simp [e])
  first := ⟨cs.head hne, List.head?_eq_some_head hne, h _ (List.head_mem hne)⟩
  last := ⟨cs.getLast hne, List.getLast?_eq_some_getLast hne, h _ (List.getLast_mem hne)⟩

theorem ne_nil {cs : List Char} (h : Tight cs) : cs ≠ [] := by
  rintro rfl
  simpa using h.first

theorem append {a b : List Char} (ha : Tight a) (hb : Tight b) : Tight (a ++ b) where
  spaced := by
    refine ⟨fun c hc => ?_, List.isChain_append.mpr ⟨ha.spaced.2, hb.spaced.2, fun x _ y hy _ => ?_⟩⟩
    · rcases List.mem_append.mp hc with h | h
      · exact ha.spaced.1 c h
      · exact hb.spaced.1 c h
    · obtain ⟨z, hz, hnot⟩ := hb.first
      rw [Option.mem_unique hy hz]
      exact hnot
  first := by simpa [List.head?_append_of_ne_nil _ ha.ne_nil] using ha.first
  last := by simpa [List.getLast?_append_of_ne_nil _ hb.ne_nil] using hb.last

theorem space {a b : List Char} (ha : Tight a) (hb : Tight b) : Tight (a ++ ' ' :: b) where
  spaced := by
    have hchain : (' ' :: b).IsChain fun a b => isBlank a = true → isBlank b = false := by
      refine List.IsChain.cons hb.spaced.2 fun y hy _ => ?_
      obtain ⟨z, hz, hnot⟩ := hb.first
      rw [Option.mem_unique hy hz]
      exact hnot
    refine ⟨fun c hc => ?_, List.isChain_append.mpr ⟨ha.spaced.2, hchain, fun x hx y _ hblank => ?_⟩⟩
    · rcases List.mem_append.mp hc with h | h
      · exact ha.spaced.1 c h
      · rcases List.mem_cons.mp h with rfl | h
        · exact fun _ => rfl
        · exact hb.spaced.1 c h
    · obtain ⟨z, hz, hnot⟩ := ha.last
      rw [Option.mem_unique hx hz, hnot] at hblank
      cases hblank
  first := by simpa [List.head?_append_of_ne_nil _ ha.ne_nil] using ha.first
  last := by simpa [List.getLast?_append_of_ne_nil _ (List.cons_ne_nil ' ' b), List.getLast?_cons,
    List.getLast?_eq_some_getLast hb.ne_nil] using hb.last

theorem enclosed {l r : Char} (hl : isBlank l = false) (hr : isBlank r = false) {cs : List Char}
    (h : SingleSpaced cs) : Tight (l :: cs ++ [r]) where
  spaced := by
    refine ⟨fun c hc hb => ?_, ?_⟩
    · simp only [List.cons_append, List.mem_cons, List.mem_append, List.not_mem_nil, or_false] at hc
      rcases hc with rfl | hc | rfl
      · rw [hl] at hb; cases hb
      · exact h.1 c hc hb
      · rw [hr] at hb; cases hb
    · refine List.isChain_append.mpr ⟨?_, List.isChain_singleton r, fun x _ y hy _ => ?_⟩
      · exact List.IsChain.cons h.2 fun y _ hb => by rw [hl] at hb; cases hb
      · have hy' : y = r := by simpa using hy.symm
        rw [hy', hr]
  first := ⟨l, rfl, hl⟩
  last := ⟨r, List.getLast?_concat, hr⟩

end Tight

end NoteQuery.Text

import NoteQuery.Proofs.Text.Letter
import NoteQuery.Proofs.Text.Squeeze

/-!
# Lower-cased texts

A lower-cased text is its own lower case: no image of the table has an image of its own, and no capital sigma
is left. Lower-casing makes no blanks and no marks, so that the ends of a text stay what they are.
-/

namespace NoteQuery.Text

/-! ## Letters of the table -/

def lowerImages : List Nat :=
  lowerRuns.toList.flatMap fun (first, last, step, image) =>
    (List.range ((last - first) / step + 1)).map fun k => image + k * step

theorem lowerLetter_lowerImages : ∀ n ∈ lowerImages,
    lowerLetter (Char.ofNat n) = [Char.ofNat n] ∧ isBlank (Char.ofNat n) = false := by decide +kernel

theorem imageIn?_wideBlanks : ∀ n ∈ wideBlanks, imageIn? lowerRuns n = none := by decide +kernel

theorem lowerLetter_ascii : ∀ n < 128, lowerLetter (Char.ofNat n).toLower = [(Char.ofNat n).toLower] ∧
    isBlank (Char.ofNat n).toLower = isBlank (Char.ofNat n) := by decide +kernel

/-- The letters of the rules that stand beside the table. -/
theorem lowerLetter_ruled : lowerLetter 'Σ' = ['σ'] ∧
    ∀ c ∈ ['i', Char.ofNat 0x307, 'ς'], lowerLetter c = [c] ∧ isBlank c = false := by decide +kernel

theorem mem_lowerImages {code image : Nat} (hcode : 128 ≤ code) (h : imageIn? lowerRuns code = some image) :
    image ∈ lowerImages := by
  unfold imageIn? at h
  extract_lets place at h
  clear_value place
  cases place with
  | zero => cases h
  | succ i =>
    by_cases hi : i < lowerRuns.size
    · have hget : lowerRuns.getD i (0, 0, 1, 0) = lowerRuns[i] := dif_pos hi
      have hmem : lowerRuns[i] ∈ lowerRuns.toList := Array.getElem_mem_toList hi
      simp only [hget] at h
      -- the table is not to be unfolded: all that is used of the run is that it is in it
      generalize lowerRuns[i] = run at h hmem
      obtain ⟨first, last, step, start⟩ := run
      simp only [Option.ite_none_right_eq_some, Option.some.injEq, Bool.and_eq_true, decide_eq_true_eq, beq_iff_eq] at h
      obtain ⟨⟨hle, hmod⟩, himage⟩ := h
      refine List.mem_flatMap.mpr ⟨_, hmem, List.mem_map.mpr ⟨(code - first) / step, ?_, ?_⟩⟩
      · apply List.mem_range.mpr
        apply Nat.lt_succ_of_le
        exact Nat.div_le_div_right (Nat.sub_le_sub_right hle _)
      · rw [Nat.div_mul_cancel (Nat.dvd_of_mod_eq_zero hmod)]
        exact himage
    · have hlast : ¬code ≤ 0 := Nat.not_le.mpr (Nat.lt_of_lt_of_le (by decide) hcode)
      simp [dif_neg hi, hlast] at h

theorem imageIn?_of_isBlank {c : Char} (hc : 128 ≤ c.toNat) (h : isBlank c = true) :
    imageIn? lowerRuns c.toNat = none := by
  apply imageIn?_wideBlanks
  simp [isBlank, wideBlanks] at h ⊢
  omega

theorem lowerLetter_of_imageIn? {c : Char} (h : imageIn? lowerRuns c.toNat = none) (hc : c.toNat ≠ 0x130)
    (hge : 128 ≤ c.toNat) : lowerLetter c = [c] := by
  rw [lowerLetter, if_neg (Nat.not_lt.mpr hge), if_neg hc, h]
  rfl

theorem lowerLetter_of_mem {c d : Char} (h : d ∈ lowerLetter c) : lowerLetter d = [d] ∧ isBlank d = isBlank c := by
  by_cases hlt : c.toNat < 128
  · rw [lowerLetter, if_pos hlt, List.mem_singleton] at h
    have hascii := lowerLetter_ascii c.toNat hlt
    rw [Char.ofNat_toNat] at hascii
    rw [h]
    exact hascii
  · have hge := Nat.not_lt.mp hlt
    -- beyond ASCII: the dotted capital I, letters that stay, and those in the runs of the table
    by_cases hdotted : c.toNat = 0x130
    · rw [lowerLetter, if_neg hlt, if_pos hdotted] at h
      have hblank : isBlank c = false := by simp [isBlank, hdotted]
      rw [hblank]
      exact lowerLetter_ruled.2 d (List.mem_append_left ['ς'] h)
    · cases himage : imageIn? lowerRuns c.toNat with
      | none =>
        have hsame := lowerLetter_of_imageIn? himage hdotted hge
        rw [hsame, List.mem_singleton] at h
        rw [h]
        exact ⟨hsame, rfl⟩
      | some image =>
        rw [lowerLetter, if_neg hlt, if_neg hdotted, himage, Option.map_some, Option.getD_some, List.mem_singleton] at h
        obtain ⟨hsame, hblank⟩ := lowerLetter_lowerImages image (mem_lowerImages hge himage)
        rw [h, hsame, hblank]
        refine ⟨rfl, ?_⟩
        by_cases hc : isBlank c = true
        · rw [imageIn?_of_isBlank hge hc] at himage
          cases himage
        · exact (Bool.eq_false_iff.mpr hc).symm

/-! ## Texts -/

/-- One of the letters that `c` becomes in a lower-cased text, where the capital sigma has two forms. -/
def IsLowerOf (d c : Char) : Prop := d ∈ lowerLetter c ∨ c = 'Σ' ∧ d = 'ς'

theorem IsLowerOf.spec {c d : Char} (h : IsLowerOf d c) : lowerLetter d = [d] ∧ isBlank d = isBlank c := by
  rcases h with h | ⟨hc, hd⟩
  · exact lowerLetter_of_mem h
  · rw [hc, hd]
    exact lowerLetter_ruled.2 'ς' (by simp)

theorem lowerLetter_ne_nil (c : Char) : lowerLetter c ≠ [] := by
  unfold lowerLetter
  split
  · simp
  · split <;> simp

theorem lowerAfter_cons (before : List Char) (c : Char) (cs : List Char) : ∃ piece, piece ≠ [] ∧
    (∀ d ∈ piece, IsLowerOf d c) ∧ lowerAfter before (c :: cs) = piece ++ lowerAfter (c :: before) cs := by
  by_cases hc : c = 'Σ'
  · refine ⟨[if meetsCased before && !meetsCased cs then 'ς' else 'σ'], by simp, ?_, ?_⟩
    · intro d hd
      rw [List.mem_singleton] at hd
      rw [hd, hc]
      split
      · exact Or.inr ⟨rfl, rfl⟩
      · apply Or.inl
        rw [lowerLetter_ruled.1]
        exact List.mem_singleton_self 'σ'
    · rw [lowerAfter, if_pos hc]
  · exact ⟨lowerLetter c, lowerLetter_ne_nil c, fun d hd => Or.inl hd, by rw [lowerAfter, if_neg hc]⟩

theorem exists_isLowerOf {d : Char} : ∀ {cs before : List Char}, d ∈ lowerAfter before cs → ∃ c ∈ cs, IsLowerOf d c
  | [], _, h => by cases h
  | c :: cs, before, h => by
    obtain ⟨piece, -, hpiece, heq⟩ := lowerAfter_cons before c cs
    rw [heq, List.mem_append] at h
    rcases h with h | h
    · exact ⟨c, List.mem_cons_self, hpiece d h⟩
    · obtain ⟨b, hb, hlower⟩ := exists_isLowerOf h
      exact ⟨b, List.mem_cons_of_mem _ hb, hlower⟩

theorem lowerAfter_of_fixed : ∀ {cs : List Char}, (∀ c ∈ cs, lowerLetter c = [c]) → ∀ before, lowerAfter before cs = cs
  | [], _, _ => rfl
  | c :: cs, h, before => by
    obtain ⟨hc, hcs⟩ := List.forall_mem_cons.mp h
    have hne : c ≠ 'Σ' := by
      intro heq
      rw [heq, lowerLetter_ruled.1] at hc
      exact absurd hc (by decide)
    rw [lowerAfter, if_neg hne, hc, lowerAfter_of_fixed hcs]
    rfl

def IsPlain (cs : List Char) : Prop := ∀ c ∈ cs, c.toNat < 128

instance (cs : List Char) : Decidable (IsPlain cs) := inferInstanceAs (Decidable (∀ c ∈ cs, c.toNat < 128))

theorem lowerAfter_of_isPlain : ∀ {cs : List Char}, IsPlain cs → ∀ before, lowerAfter before cs = cs.map Char.toLower
  | [], _, _ => rfl
  | c :: cs, h, before => by
    obtain ⟨hc, hcs⟩ := List.forall_mem_cons.mp h
    rw [lowerAfter_cons_of_ascii hc, lowerAfter_of_isPlain hcs, List.map_cons]

theorem lower_lower (cs : List Char) : lower (lower cs) = lower cs := by
  apply lowerAfter_of_fixed
  intro d hd
  obtain ⟨c, -, hlower⟩ := exists_isLowerOf hd
  exact hlower.spec.1

theorem lowerAfter_eq_nil_iff {before cs : List Char} : lowerAfter before cs = [] ↔ cs = [] := by
  cases cs with
  | nil => exact iff_of_true rfl rfl
  | cons c cs =>
    obtain ⟨piece, hne, -, heq⟩ := lowerAfter_cons before c cs
    rw [heq]
    simp [hne]

theorem exists_head_lower {d : Char} {cs : List Char} (h : d ∈ (lower cs).head?) : ∃ c ∈ cs.head?, IsLowerOf d c := by
  cases cs with
  | nil => cases h
  | cons c cs =>
    obtain ⟨piece, hne, hpiece, heq⟩ := lowerAfter_cons [] c cs
    rw [lower, heq, List.head?_append, Option.or_of_isSome (List.isSome_head?.mpr hne)] at h
    exact ⟨c, rfl, hpiece d (List.mem_of_mem_head? h)⟩

theorem exists_last_lowerAfter {d : Char} : ∀ {cs before : List Char}, d ∈ (lowerAfter before cs).getLast? →
    ∃ c ∈ cs.getLast?, IsLowerOf d c
  | [], _, h => by cases h
  | [c], before, h => by
    obtain ⟨piece, -, hpiece, heq⟩ := lowerAfter_cons before c []
    rw [heq, lowerAfter, List.append_nil] at h
    exact ⟨c, rfl, hpiece d (List.mem_of_mem_getLast? h)⟩
  | c :: b :: cs, before, h => by
    obtain ⟨piece, -, -, heq⟩ := lowerAfter_cons before c (b :: cs)
    have hne : lowerAfter (c :: before) (b :: cs) ≠ [] := fun hnil => by cases lowerAfter_eq_nil_iff.mp hnil
    rw [heq, List.getLast?_append, List.getLast?_eq_some_getLast hne, Option.some_or,
      ← List.getLast?_eq_some_getLast hne] at h
    rw [List.getLast?_cons_cons]
    exact exists_last_lowerAfter h

/-! ## Segments -/

/-- A slash ends words: it has no case, and it is not passed over. -/
theorem slash_ends_words : isTransparent '/' = false ∧ isCased '/' = false ∧ lowerLetter '/' = ['/'] := by decide +kernel

theorem meetsCased_append_slash (rest : List Char) : ∀ cs, meetsCased (cs ++ '/' :: rest) = meetsCased cs
  | [] => by
    have hslash : meetsCased ('/' :: rest) = false := by
      rw [meetsCased, slash_ends_words.1, if_neg Bool.false_ne_true, slash_ends_words.2.1]
    exact hslash
  | c :: cs => by
    rw [List.cons_append, meetsCased, meetsCased, meetsCased_append_slash rest cs]

theorem lowerAfter_behind_slash (rest : List Char) : ∀ cs before,
    lowerAfter (before ++ '/' :: rest) cs = lowerAfter before cs
  | [], _ => rfl
  | c :: cs, before => by
    rw [lowerAfter, lowerAfter, meetsCased_append_slash, ← List.cons_append, lowerAfter_behind_slash rest cs]

theorem lowerAfter_append_slash (rest : List Char) : ∀ cs before,
    lowerAfter before (cs ++ '/' :: rest) = lowerAfter before cs ++ '/' :: lower rest
  | [], before => by
    have hslash : lowerAfter before ('/' :: rest) = '/' :: lowerAfter ('/' :: before) rest := by
      rw [lowerAfter, if_neg (by decide), slash_ends_words.2.2]
      rfl
    have hbehind : lowerAfter ('/' :: before) rest = lower rest := lowerAfter_behind_slash before rest []
    rw [List.nil_append, hslash, hbehind]
    rfl
  | c :: cs, before => by
    rw [List.cons_append, lowerAfter, lowerAfter, meetsCased_append_slash, lowerAfter_append_slash rest cs,
      List.append_assoc]

theorem cutAt_lower (cs : List Char) : cutAt '/' (lower cs) = (cutAt '/' cs).map lower := by
  have hsegment : ∀ segment : List Char, '/' ∉ segment → cutAt '/' (lower segment) = [lower segment] := by
    intro segment hsegment
    refine cutWhere_of_forall_not _ fun c hc => ?_
    refine Bool.eq_false_iff.mpr fun heq => hsegment ?_
    rw [eq_of_beq heq] at hc
    exact mem_of_mem_lowerAfter (by decide) (by decide) hc
  -- by induction over the segments, since a slash cuts off what stands before it
  have hjoined : ∀ segments : List (List Char), segments ≠ [] → (∀ segment ∈ segments, '/' ∉ segment) →
      cutAt '/' (lower (joinWith ['/'] segments)) = segments.map lower := by
    intro segments hne hsegments
    induction segments with
    | nil => exact absurd rfl hne
    | cons segment segments ih =>
      obtain ⟨hhead, htail⟩ := List.forall_mem_cons.mp hsegments
      by_cases hlast : segments = []
      · rw [hlast]
        exact hsegment segment hhead
      · have hcut := cutWhere_append_cons (· == '/') (beq_self_eq_true '/')
          (lower (joinWith ['/'] segments)) (lower segment)
        have hrest := ih hlast htail
        have hone := hsegment segment hhead
        unfold cutAt at hrest hone ⊢
        rw [joinWith_cons _ _ hlast, List.append_assoc, List.singleton_append, lower, lowerAfter_append_slash,
          ← lower, hcut, hrest, hone]
        rfl
  have hcut := hjoined (cutAt '/' cs) (cutWhere_ne_nil _ cs) fun segment hsegment hslash => by
    cases not_of_mem_cutWhere _ cs segment hsegment '/' hslash
  rwa [joinWith_cutAt] at hcut

end NoteQuery.Text

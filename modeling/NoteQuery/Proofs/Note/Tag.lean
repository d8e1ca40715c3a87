import NoteQuery.Note.Tag
import NoteQuery.Proofs.Text.Lower

/-!
# Tags where they are written

The tags of a body are those that are written in it, outside code: behind a blank or at the start, and as far
as a tag goes. The scan goes on behind each tag it has read, and misses none, since a tag holds no blank.
-/

namespace NoteQuery.Note

/-! ## Places behind a gap -/

/-- Somewhere in the text the rest of it satisfies `P`, behind a blank or, if `gap` allows it, at the start. -/
def BehindGap (gap : Bool) (P : List Char → Prop) (cs : List Char) : Prop :=
  ∃ before rest, cs = before ++ rest ∧ before.getLast?.elim gap Text.isBlank = true ∧ P rest

section
variable {P : List Char → Prop}

theorem behindGap_nil {gap : Bool} : BehindGap gap P [] ↔ gap = true ∧ P [] := by
  constructor
  · intro h
    obtain ⟨before, rest, heq, hgap, hrest⟩ := h
    obtain ⟨hbefore, hnil⟩ := List.append_eq_nil_iff.mp heq.symm
    rw [hbefore] at hgap
    rw [hnil] at hrest
    exact ⟨hgap, hrest⟩
  · intro h
    exact ⟨[], [], rfl, h.1, h.2⟩

theorem getLast?_cons_elim (gap : Bool) (c : Char) (before : List Char) :
    (c :: before).getLast?.elim gap Text.isBlank = before.getLast?.elim (Text.isBlank c) Text.isBlank := by
  rw [List.getLast?_cons]
  cases before.getLast? with
  | none => rfl
  | some d => rfl

theorem behindGap_cons {gap : Bool} {c : Char} {cs : List Char} :
    BehindGap gap P (c :: cs) ↔ gap = true ∧ P (c :: cs) ∨ BehindGap (Text.isBlank c) P cs := by
  constructor
  · intro h
    obtain ⟨before, rest, heq, hgap, hrest⟩ := h
    cases before with
    | nil =>
      rw [List.nil_append] at heq
      rw [← heq] at hrest
      exact Or.inl ⟨hgap, hrest⟩
    | cons d before =>
      obtain ⟨hd, heq⟩ := List.cons.inj heq
      rw [getLast?_cons_elim, ← hd] at hgap
      exact Or.inr ⟨before, rest, heq, hgap, hrest⟩
  · intro h
    rcases h with ⟨hgap, hrest⟩ | ⟨before, rest, heq, hgap, hrest⟩
    · exact ⟨[], c :: cs, rfl, hgap, hrest⟩
    · refine ⟨c :: before, rest, by rw [heq]; rfl, ?_, hrest⟩
      rw [getLast?_cons_elim]
      exact hgap

/-- At the start of a whole text a gap is no condition. -/
theorem elim_getLast?_iff {before : List Char} :
    before.getLast?.elim true Text.isBlank = true ↔ ∀ c ∈ before.getLast?, Text.isBlank c = true := by
  cases before.getLast? <;> simp

end

/-! ## Tags -/

structure IsTag (tag : List Char) : Prop where
  letter : ∃ c ∈ tag.head?, isLetter c = true
  chars : ∀ c ∈ tag, isTagChar c = true

def BeginsWithTag (tag after cs : List Char) : Prop :=
  cs = '#' :: (tag ++ after) ∧ IsTag tag ∧ ∀ c ∈ after.head?, isTagChar c = false

theorem isLetter_iff {c : Char} :
    isLetter c = true ↔ 97 ≤ c.toNat ∧ c.toNat ≤ 122 ∨ 65 ≤ c.toNat ∧ c.toNat ≤ 90 := by
  simp only [isLetter, Bool.or_eq_true, Bool.and_eq_true, decide_eq_true_eq, Char.le_def, UInt32.le_iff_toNat_le]
  rfl

theorem isTagChar_of_isLetter {c : Char} (h : isLetter c = true) : isTagChar c = true := by
  simp [isTagChar, h]

theorem toNat_of_isTagChar {c : Char} (h : isTagChar c = true) : 45 ≤ c.toNat ∧ c.toNat < 128 := by
  simp only [isTagChar, Bool.or_eq_true, beq_iff_eq, isLetter_iff, Text.isDigit_iff] at h
  rcases h with (((h | h) | h) | h) | h
  · omega
  · omega
  · rw [h]
    decide
  · rw [h]
    decide
  · rw [h]
    decide

theorem not_isBlank_of_isTagChar {c : Char} (h : isTagChar c = true) : Text.isBlank c = false := by
  have hcode := toNat_of_isTagChar h
  simp [Text.isBlank]
  omega

theorem not_isTagChar_of_isBlank {c : Char} (h : Text.isBlank c = true) : isTagChar c = false := by
  by_cases hc : isTagChar c = true
  · rw [not_isBlank_of_isTagChar hc] at h
    cases h
  · exact Bool.eq_false_iff.mpr hc

theorem IsTag.ne_nil {tag : List Char} (h : IsTag tag) : tag ≠ [] := by
  obtain ⟨c, hc, -⟩ := h.letter
  exact List.ne_nil_of_mem (List.mem_of_mem_head? hc)

theorem IsTag.lower {tag : List Char} (h : IsTag tag) : Text.lower tag = tag.map Char.toLower := by
  apply Text.lowerAfter_of_isPlain
  intro c hc
  exact (toNat_of_isTagChar (h.chars c hc)).2

theorem tagHere?_eq_some_iff {cs tag after : List Char} :
    tagHere? cs = some (tag, after) ↔ BeginsWithTag tag after cs := by
  constructor
  · intro h
    unfold tagHere? at h
    split at h
    · rename_i c cs
      split at h
      · rename_i hc
        rw [Text.span_eq] at h
        obtain ⟨rfl, rfl⟩ := Prod.mk.inj (Option.some.inj h)
        refine ⟨?_, ⟨⟨c, ?_, hc⟩, ?_⟩, ?_⟩
        · rw [List.takeWhile_append_dropWhile]
        · rw [List.takeWhile_cons_of_pos (isTagChar_of_isLetter hc)]
          rfl
        · intro d hd
          exact List.all_eq_true.mp List.all_takeWhile d hd
        · intro d hd
          -- the run of tag characters is the longest
          have hhead := List.head?_dropWhile_not isTagChar (c :: cs)
          rw [hd] at hhead
          exact hhead
      · cases h
    · cases h
  · intro h
    obtain ⟨heq, htag, hafter⟩ := h
    obtain ⟨c, hc, hletter⟩ := htag.letter
    obtain ⟨rest, hrest⟩ := List.head?_eq_some_iff.mp hc
    -- nothing behind the tag goes on with it, so the run ends where the tag does
    have hspan := Text.span_append htag.chars hafter
    rw [hrest] at heq hspan ⊢
    rw [heq]
    unfold tagHere?
    rw [List.cons_append]
    simp only [hletter, if_true]
    rw [← List.cons_append, hspan]

theorem BeginsWithTag.not_isBlank {tag after cs : List Char} (h : BeginsWithTag tag after cs) :
    ∃ taken, cs = taken ++ after ∧ ∀ c ∈ taken, Text.isBlank c = false := by
  refine ⟨'#' :: tag, h.1, ?_⟩
  intro c hc
  rcases List.mem_cons.mp hc with hc | hc
  · rw [hc]
    rfl
  · exact not_isBlank_of_isTagChar (h.2.1.chars c hc)

/-! ## The scan -/

/-- The tags written in a text from left to right, each behind a blank or, if `gap` allows it, at the start. -/
def writtenTags : (gap : Bool) → List Char → List (List Char)
  | _, [] => []
  | gap, c :: cs => (if gap then ((tagHere? (c :: cs)).map (·.1)).toList else []) ++ writtenTags (Text.isBlank c) cs

theorem writtenTags_true (cs : List Char) :
    writtenTags true cs = ((tagHere? cs).map (·.1)).toList ++ writtenTags false cs := by
  cases cs with
  | nil => rfl
  | cons c cs => rfl

theorem writtenTags_append {taken : List Char} (h : ∀ c ∈ taken, Text.isBlank c = false) (cs : List Char) :
    writtenTags false (taken ++ cs) = writtenTags false cs := by
  induction taken with
  | nil => rfl
  | cons c taken ih =>
    obtain ⟨hc, htaken⟩ := List.forall_mem_cons.mp h
    rw [List.cons_append, writtenTags, hc, ih htaken]
    rfl

/-- Behind a tag that is read, the scan goes on where no tag may begin. -/
theorem writtenTags_of_begins {tag after cs : List Char} (h : BeginsWithTag tag after cs) :
    writtenTags true cs = tag :: writtenTags false after := by
  obtain ⟨taken, heq, hblank⟩ := h.not_isBlank
  rw [writtenTags_true, tagHere?_eq_some_iff.mpr h, heq, writtenTags_append hblank]
  rfl

theorem writtenTags_of_none {cs : List Char} (h : tagHere? cs = none) : writtenTags true cs = writtenTags false cs := by
  rw [writtenTags_true, h]
  rfl

theorem tagHere?_of_isBlank {c : Char} (h : Text.isBlank c = true) (cs : List Char) : tagHere? (c :: cs) = none := by
  unfold tagHere?
  split
  · rename_i heq
    rw [(List.cons.inj heq).1] at h
    cases h
  · rfl

theorem tag?_cons (gap : Bool) (c : Char) (cs : List Char) : tag? gap (c :: cs) =
    if Text.isBlank c then tagHere? cs else if gap then tagHere? (c :: cs) else none := by
  unfold tag?
  by_cases hc : Text.isBlank c = true
  · simp [hc, tagHere?_of_isBlank hc]
  · simp [hc]

theorem writtenTags_step (gap : Bool) (c : Char) (cs : List Char) : writtenTags gap (c :: cs) =
    match tag? gap (c :: cs) with
    | some (tag, after) => tag :: writtenTags false after
    | none => writtenTags false cs := by
  rw [tag?_cons]
  -- a blank begins no tag but makes one possible behind it
  by_cases hc : Text.isBlank c = true
  · have hlater : writtenTags gap (c :: cs) = writtenTags true cs := by
      rw [writtenTags, tagHere?_of_isBlank hc, hc]
      cases gap <;> rfl
    rw [if_pos hc, hlater]
    cases htag : tagHere? cs with
    | none => exact writtenTags_of_none htag
    | some found => exact writtenTags_of_begins (tagHere?_eq_some_iff.mp htag)
  · have hlater : writtenTags false (c :: cs) = writtenTags false cs := by
      rw [writtenTags, Bool.eq_false_iff.mpr hc]
      rfl
    rw [if_neg hc]
    cases gap with
    | false => exact hlater
    | true =>
      rw [if_pos rfl]
      cases htag : tagHere? (c :: cs) with
      | none => exact (writtenTags_of_none htag).trans hlater
      | some found => exact writtenTags_of_begins (tagHere?_eq_some_iff.mp htag)

theorem length_of_tag? {gap : Bool} {c : Char} {cs tag after : List Char} (h : tag? gap (c :: cs) = some (tag, after)) :
    after.length ≤ cs.length := by
  rw [tag?_cons] at h
  split at h
  · rw [tagHere?_eq_some_iff] at h
    rw [h.1, List.length_cons, List.length_append]
    omega
  · split at h
    · rw [tagHere?_eq_some_iff] at h
      rw [(List.cons.inj h.1).2, List.length_append]
      omega
    · cases h

theorem tagsFrom_eq {steps : Nat} {gap : Bool} {cs : List Char} (hsteps : cs.length < steps) :
    tagsFrom steps gap cs = (writtenTags gap cs).map fun tag => String.ofList (Text.lower tag) := by
  induction steps generalizing gap cs with
  | zero => exact absurd hsteps (Nat.not_lt_zero _)
  | succ steps ih =>
    cases cs with
    | nil => rfl
    | cons c cs =>
      have hcs : cs.length < steps := Nat.lt_of_succ_lt_succ hsteps
      rw [tagsFrom, writtenTags_step]
      cases htag : tag? gap (c :: cs) with
      | none => exact ih hcs
      | some found =>
        obtain ⟨tag, after⟩ := found
        have hafter := Nat.lt_of_le_of_lt (length_of_tag? htag) hcs
        exact congrArg _ (ih hafter)

/-! ## Places of tags -/

/-- A tag that is written in a text: what stands before its sign, at the start or up to a blank, and what
stands behind it, where it can go on no further. -/
structure WrittenAt (text before tag after : List Char) : Prop where
  text_eq : text = before ++ '#' :: (tag ++ after)
  gap : ∀ c ∈ before.getLast?, Text.isBlank c = true
  isTag : IsTag tag
  ends : ∀ c ∈ after.head?, isTagChar c = false

theorem mem_writtenTags {gap : Bool} {cs tag : List Char} :
    tag ∈ writtenTags gap cs ↔ BehindGap gap (fun rest => ∃ after, BeginsWithTag tag after rest) cs := by
  induction cs generalizing gap with
  | nil => simp [writtenTags, behindGap_nil, BeginsWithTag]
  | cons c cs ih =>
    rw [writtenTags, behindGap_cons, List.mem_append, ih]
    apply or_congr_left
    cases gap with
    | false => simp
    | true => simp [← tagHere?_eq_some_iff]

theorem mem_writtenTags_true {text tag : List Char} :
    tag ∈ writtenTags true text ↔ ∃ before after, WrittenAt text before tag after := by
  rw [mem_writtenTags]
  constructor
  · intro h
    obtain ⟨before, rest, heq, hgap, after, hrest, htag, hafter⟩ := h
    rw [hrest] at heq
    exact ⟨before, after, heq, elim_getLast?_iff.mp hgap, htag, hafter⟩
  · intro h
    obtain ⟨before, after, h⟩ := h
    exact ⟨before, _, h.text_eq, elim_getLast?_iff.mpr h.gap, after, rfl, h.isTag, h.ends⟩

/-! ## Tags without repetition -/

theorem distinct_concat (items : List String) (item : String) : distinct (items ++ [item]) =
    if (distinct items).contains item then distinct items else distinct items ++ [item] := by
  unfold distinct
  rw [List.foldl_append]
  rfl

theorem distinct_eq (items : List String) : distinct items = items.eraseDups := by
  induction items using List.reverseRecOn with
  | nil => rfl
  | append_singleton items item ih =>
    rw [distinct_concat, ih, List.eraseDups_append]
    by_cases h : item ∈ items
    · simp [h, List.removeAll]
    · simp [h, List.removeAll, List.eraseDups_cons]

theorem mem_distinct {items : List String} {s : String} : s ∈ distinct items ↔ s ∈ items := by
  rw [distinct_eq, List.mem_eraseDups]

theorem nodup_distinct (items : List String) : (distinct items).Nodup := by
  induction items using List.reverseRecOn with
  | nil => exact List.nodup_nil
  | append_singleton items item ih =>
    rw [distinct_concat]
    split
    · exact ih
    · rename_i h
      rw [List.contains_iff_mem] at h
      refine List.nodup_append.mpr ⟨ih, by simp, ?_⟩
      intro a ha b hb
      rw [List.mem_singleton.mp hb]
      exact fun heq => h (heq ▸ ha)

/-! ## Inline tags -/

theorem inlineTags_eq (body : List Char) : inlineTags body =
    ((writtenTags true (withoutCode body)).map fun tag => String.ofList (Text.lower tag)).eraseDups := by
  unfold inlineTags
  rw [distinct_eq, tagsFrom_eq (Nat.lt_succ_self _)]

/-- The tags of a body are those written in it outside code, in lower case. -/
theorem mem_inlineTags {body : List Char} {s : String} : s ∈ inlineTags body ↔
    ∃ before tag after, WrittenAt (withoutCode body) before tag after ∧ s = String.ofList (tag.map Char.toLower) := by
  rw [inlineTags_eq, List.mem_eraseDups, List.mem_map]
  constructor
  · intro h
    obtain ⟨tag, htag, heq⟩ := h
    obtain ⟨before, after, h⟩ := mem_writtenTags_true.mp htag
    rw [h.isTag.lower] at heq
    exact ⟨before, tag, after, h, heq.symm⟩
  · intro h
    obtain ⟨before, tag, after, h, heq⟩ := h
    rw [← h.isTag.lower] at heq
    exact ⟨tag, mem_writtenTags_true.mpr ⟨before, after, h⟩, heq.symm⟩

end NoteQuery.Note

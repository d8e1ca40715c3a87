import NoteQuery.Proofs.Query.Keyword
import NoteQuery.Proofs.Text.Lower
import NoteQuery.Query.Columns

/-!
# Spellings of operators and functions

An operator or function may be spelled with the dotted capital I, the dotless i or the long s, which are
read as an i or an s. Lower-casing makes the word of its letters only where it has none of these: with
one of them its text is that of no operator or function.
-/

namespace NoteQuery

namespace Text

/-! ## Lower-casing a spelling -/

theorem toLower_of_readsAs {letter c : Char} (hc : c.toNat < 128) (h : readsAs letter c = true) : c.toLower = letter := by
  simp only [readsAs, Bool.or_eq_true, Bool.and_eq_true, beq_iff_eq] at h
  rcases h with ((h | ⟨-, rfl | rfl⟩) | ⟨-, rfl⟩) | ⟨-, hkelvin⟩
  · exact h
  · exact absurd hc (by decide)
  · exact absurd hc (by decide)
  · exact absurd hc (by decide)
  · omega

theorem map_toLower_of_afterKeyword? : ∀ {keyword cs : List Char}, IsPlain cs → afterKeyword? keyword cs = some [] →
    cs.map Char.toLower = keyword
  | [], cs, _, h => by
    rw [afterKeyword?] at h
    rw [Option.some.inj h]
    rfl
  | k :: keyword, [], _, h => by cases h
  | k :: keyword, c :: cs, hplain, h => by
    obtain ⟨hc, hcs⟩ := List.forall_mem_cons.mp hplain
    rw [afterKeyword?] at h
    split at h
    · rename_i hread
      rw [List.map_cons, toLower_of_readsAs hc hread, map_toLower_of_afterKeyword? hcs h]
    · cases h

theorem mem_lowerAfter {c d : Char} (hc : c ≠ 'Σ') (hd : d ∈ lowerLetter c) : ∀ {cs before : List Char}, c ∈ cs →
    d ∈ lowerAfter before cs
  | b :: cs, before, h => by
    rw [lowerAfter, List.mem_append]
    rcases List.mem_cons.mp h with rfl | h
    · rw [if_neg hc]
      exact Or.inl hd
    · exact Or.inr (mem_lowerAfter hc hd h)

theorem toNat_lt_of_toLower {c : Char} (h : c.toLower.toNat < 128) : c.toNat < 128 := by
  unfold Char.toLower at h
  split at h
  · rename_i hupper
    exact Nat.lt_of_le_of_lt hupper.2 (by decide)
  · exact h

/-- Lower-casing takes no wide letter of a keyword to ASCII, but for the Kelvin sign. -/
theorem exists_wide_lowerLetter {letter c : Char} (hletter : letter.toNat < 128) (hk : letter ≠ 'k') (hc : 128 ≤ c.toNat)
    (h : readsAs letter c = true) : c ≠ 'Σ' ∧ ∃ d ∈ lowerLetter c, 128 ≤ d.toNat := by
  simp only [readsAs, Bool.or_eq_true, Bool.and_eq_true, beq_iff_eq] at h
  rcases h with ((rfl | ⟨-, rfl | rfl⟩) | ⟨-, rfl⟩) | ⟨rfl, -⟩
  · exact absurd (toNat_lt_of_toLower hletter) (Nat.not_lt.mpr hc)
  · exact ⟨by decide, Char.ofNat 0x307, by decide +kernel, by decide⟩
  · exact ⟨by decide, 'ı', by decide +kernel, by decide⟩
  · exact ⟨by decide, 'ſ', by decide +kernel, by decide⟩
  · exact absurd rfl hk

end Text

namespace Query

open Text (IsPlain lower)

/-! ## Names of operators and functions -/

/-- A name whose spellings are told apart by lower-casing. -/
def IsDistinct (name : List Char) : Prop := IsPlain name ∧ 'k' ∉ name

instance (name : List Char) : Decidable (IsDistinct name) := inferInstanceAs (Decidable (_ ∧ _))

theorem isPlain_of_lower {name word : List Char} (hname : IsDistinct name) (h : Reads name word)
    (hlower : IsPlain (lower word)) : IsPlain word := by
  intro c hc
  by_contra hwide
  obtain ⟨letter, hletter, hread⟩ := exists_readsAs h c hc
  have hk : letter ≠ 'k' := fun heq => hname.2 (heq ▸ hletter)
  obtain ⟨hsigma, d, hd, hdwide⟩ :=
    Text.exists_wide_lowerLetter (hname.1 letter hletter) hk (Nat.not_lt.mp hwide) hread
  have hmem : d ∈ lower word := Text.mem_lowerAfter hsigma hd hc
  exact absurd (hlower d hmem) (Nat.not_lt.mpr hdwide)

theorem lower_of_isPlain {name word : List Char} (h : Reads name word) (hplain : IsPlain word) : lower word = name := by
  rw [lower, Text.lowerAfter_of_isPlain hplain, Text.map_toLower_of_afterKeyword? hplain h]

structure IsSpelling (names : List (List Char)) (cs word : List Char) : Prop where
  occurs : word <:+: cs
  reads : ∃ name ∈ names, Reads name word

theorem IsSpelling.of_part {names : List (List Char)} {part cs word : List Char} (h : IsSpelling names part word)
    (hpart : part <:+: cs) : IsSpelling names cs word :=
  ⟨h.occurs.trans hpart, h.reads⟩

theorem IsSpelling.lower_mem_iff {names : List (List Char)} (hnames : ∀ name ∈ names, IsDistinct name)
    {cs word : List Char} (h : IsSpelling names cs word) : lower word ∈ names ↔ IsPlain word := by
  obtain ⟨name, hname, hread⟩ := h.reads
  constructor
  · intro hmem
    exact isPlain_of_lower (hnames name hname) hread (hnames (lower word) hmem).1
  · intro hplain
    rw [lower_of_isPlain hread hplain]
    exact hname

end Query

/-! ## Known choices -/

namespace Operator

def names : List (List Char) := all.map (·.1.toList)

def IsKnown (o : Operator) : Prop := o ∈ all.map (·.2)

instance (o : Operator) : Decidable o.IsKnown := inferInstanceAs (Decidable (o ∈ _))

theorem isKnown_ofText_iff (s : String) : (ofText s).IsKnown ↔ s.toList ∈ names := by
  unfold ofText
  cases hlookup : all.lookup s with
  | none =>
    refine iff_of_false ?_ fun hmem => ?_
    · simp [IsKnown, all]
    · obtain ⟨entry, hentry, heq⟩ := List.mem_map.mp hmem
      have hne := List.lookup_eq_none_iff.mp hlookup entry hentry
      rw [String.toList_inj.mp heq, bne_self_eq_false] at hne
      cases hne
  | some o =>
    obtain ⟨before, after, hall, -⟩ := List.lookup_eq_some_iff.mp hlookup
    have hmem : (s, o) ∈ all := by
      rw [hall]
      exact List.mem_append_right _ List.mem_cons_self
    exact iff_of_true (List.mem_map_of_mem hmem) (List.mem_map_of_mem (f := fun entry => entry.1.toList) hmem)

end Operator

namespace Aggregate

def IsKnown (f : Aggregate) : Prop := f ∈ [length, count, sum]

instance (f : Aggregate) : Decidable f.IsKnown := inferInstanceAs (Decidable (f ∈ _))

theorem isKnown_ofText_iff (s : String) : (ofText s).IsKnown ↔ s.toList ∈ Query.aggregateNames := by
  have hnames : s.toList ∈ Query.aggregateNames ↔ s = "length" ∨ s = "count" ∨ s = "sum" := by
    simp [Query.aggregateNames, ← String.toList_inj]
  rw [hnames, ofText, IsKnown]
  split
  · simp_all
  split
  · simp_all
  split
  · simp_all
  · simp_all

end Aggregate

namespace Query

theorem isDistinct_operators : ∀ name ∈ Operator.names, IsDistinct name := by decide

theorem isDistinct_aggregates : ∀ name ∈ aggregateNames, IsDistinct name := by decide

end Query

end NoteQuery

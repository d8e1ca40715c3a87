import NoteQuery.Proofs.Value.Trichotomy

/-!
# Integers and their decimal texts

An integer is compared exactly, but its decimal text is read as a float. If the integer is none, then the
float nearest to it is taken for it, which changes its order to the integers on the way to that float.
-/

namespace NoteQuery

theorem compare_eq_compare_iff {α : Type} [LinearOrder α] (a b c : α) :
    Ord.compare a c = Ord.compare a b ↔ b = c ∨ a ∉ Set.uIcc b c := by
  rw [Set.mem_uIcc]
  -- `c` is on the side of `a` where `b` is just if `a` is not between them; the two sides are mirrored
  rcases lt_trichotomy a b with hab | rfl | hba
  · rw [compare_lt_iff_lt.mpr hab, compare_lt_iff_lt]
    constructor
    · intro hac
      right
      rintro (h | h)
      · exact absurd h.1 hab.not_ge
      · exact absurd h.1 hac.not_ge
    · rintro (rfl | h)
      · exact hab
      · exact lt_of_not_ge fun hca => h (Or.inr ⟨hca, hab.le⟩)
  · rw [compare_eq_iff_eq.mpr rfl, compare_eq_iff_eq]
    refine ⟨Or.inl, fun h => h.resolve_right ?_⟩
    simp [le_total]
  · rw [compare_gt_iff_gt.mpr hba, compare_gt_iff_gt]
    constructor
    · intro hca
      right
      rintro (h | h)
      · exact absurd h.2 hca.not_ge
      · exact absurd h.2 hba.not_ge
    · rintro (rfl | h)
      · exact hba
      · exact lt_of_not_ge fun hac => h (Or.inl ⟨hba.le, hac⟩)

namespace Value

def decimal (m : ℤ) : Value := .text (String.ofList (Text.signedDecimal m))

/-- A value compares with an integer `n` as the integer `m` does. -/
structure ComparesAs (v : Value) (n m : ℤ) : Prop where
  equals_int : v.equals (.int n) = true ↔ n = m
  int_equals : (int n).equals v = true ↔ n = m
  order_int : v.compareLoosely (.int n) = compare m n
  int_order : (int n).compareLoosely v = compare n m

theorem height_int_lt {n m : ℤ} (h : n < m) : (int n).height < (int m).height := by
  have hunit : (0 : ℤ) < Number.unit := Int.natCast_pos.mpr Number.unit_pos
  have hlt : n * Number.unit < m * Number.unit := Int.mul_lt_mul_of_pos_right h hunit
  exact WithBot.coe_lt_coe.mpr (WithTop.coe_lt_coe.mpr hlt)

theorem compare_height_int (n m : ℤ) : compare (int n).height (int m).height = compare n m := by
  rcases lt_trichotomy n m with hlt | rfl | hgt
  · rw [compare_lt_iff_lt.mpr hlt, compare_lt_iff_lt.mpr (height_int_lt hlt)]
  · rw [compare_eq_iff_eq.mpr rfl, compare_eq_iff_eq.mpr rfl]
  · rw [compare_gt_iff_gt.mpr hgt, compare_gt_iff_gt.mpr (height_int_lt hgt)]

theorem comparesAs_iff {v : Value} {p : Number.Place} (hv : v.isScalar = true) (hp : v.loosePlace? = some p) (n m : ℤ) :
    v.ComparesAs n m ↔ compare (int n).height p.height = compare (int n).height (int m).height := by
  have hint : (int n).loosePlace? = some (.at (n * Number.unit)) := rfl
  have horder : (int n).compareLoosely v = compare (int n).height p.height := compareLoosely_of_some hint hp
  have hback : v.compareLoosely (int n) = compare p.height (int n).height := compareLoosely_of_some hp hint
  -- equality of scalars is the loose comparison, so one order decides all four
  have hequals : (int n).equals v = true ↔ (int n).compareLoosely v = .eq := equals_iff_compareLoosely rfl hv rfl
  have hequals' : v.equals (int n) = true ↔ v.compareLoosely (int n) = .eq :=
    equals_iff_compareLoosely hv rfl (Bool.or_true _)
  rw [compare_height_int, ← horder]
  constructor
  · intro h
    exact h.int_order
  · intro h
    have hswap : v.compareLoosely (int n) = compare m n := by
      rw [hback, Std.OrientedOrd.eq_swap, ← horder, h]
      exact Std.OrientedOrd.eq_swap.symm
    constructor
    · rw [hequals', hswap, compare_eq_iff_eq, eq_comm]
    · rw [hequals, h, compare_eq_iff_eq]
    · exact hswap
    · exact h

theorem exists_loosePlace?_decimal (m : ℤ) : ∃ p, (decimal m).loosePlace? = some p ∧
    (float (Number.nearest m)).height = p.height ∧ ((int m).height = p.height ↔ Number.IsFloat m) := by
  have hordinary : (float (Number.nearest m)).isOrdinaryNumber = true := by
    simp [isOrdinaryNumber, Number.isNaN_nearest]
  obtain ⟨-, p, -, -, hp⟩ := exists_place? hordinary
  have hplace : (Number.float (Number.nearest m)).place? = some p := hp
  have hat : (int m).height = (Number.Place.at (m * Number.unit)).height := rfl
  refine ⟨p, ?_, ?_, ?_⟩
  · rw [decimal, loosePlace?_signedDecimal, hplace]
  · rw [height, hp]
    rfl
  · rw [hat, Number.Place.height_injective.eq_iff, ← Number.place?_nearest_iff, hplace, Option.some_inj, eq_comm]

/-- Integers compare by value, and so do decimal texts as far as no integer lies between a text and its float. -/
theorem comparesAs_decimal_iff (m : ℤ) : (∀ n, (int m).ComparesAs n m) ∧
    (∀ n, (decimal m).ComparesAs n m ↔
      Number.IsFloat m ∨ (int n).height ∉ Set.uIcc (int m).height (float (Number.nearest m)).height) ∧
    ((∀ n, (decimal m).ComparesAs n m) ↔ Number.IsFloat m) := by
  obtain ⟨p, hdecimal, hheight, hsame⟩ := exists_loosePlace?_decimal m
  have hint : (int m).loosePlace? = some (.at (m * Number.unit)) := rfl
  have hiff : ∀ n, (decimal m).ComparesAs n m ↔
      Number.IsFloat m ∨ (int n).height ∉ Set.uIcc (int m).height (float (Number.nearest m)).height := by
    intro n
    rw [comparesAs_iff rfl hdecimal, compare_eq_compare_iff, hsame, hheight]
  refine ⟨?_, hiff, ?_⟩
  · intro n
    rw [comparesAs_iff rfl hint]
    rfl
  · constructor
    · intro h
      -- an integer that is no float lies at an end of its own interval
      exact ((hiff m).mp (h m)).resolve_right (fun hout => hout Set.left_mem_uIcc)
    · intro hfloat n
      exact (hiff n).mpr (Or.inl hfloat)

theorem not_always_by_value : ¬ ∀ n m : ℤ, (decimal m).ComparesAs n m := by
  intro h
  have hequal := (h 9007199254740993 9007199254740993).int_equals.mpr rfl
  exact absurd hequal (by decide +kernel)

end Value

end NoteQuery

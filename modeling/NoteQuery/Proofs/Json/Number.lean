import NoteQuery.Json.Reader
import NoteQuery.Proofs.Number.FloatText

/-!
# Numbers in JSON documents

An integer is written without zeros in front, and so are the digits before the point of a float.
A float is told from an integer by its point or its exponent. A number is read as far as it goes, so
it has to be known that what stands after it does not go on.
-/

namespace NoteQuery

/-! ## NaN -/

namespace Number

open Float.Model.UnpackedFloat (unpackExponent unpackMantissa)

/-- All floats that are NaN have the same bits. -/
theorem eq_nan {x : Float} (h : isNaN x = true) : x = nan := by
  have hlt := toNat_toBits_lt x
  simp only [isNaN, Bool.and_eq_true, beq_iff_eq, bne_iff_ne, exponentField, fractionField, twoTo_eq] at h
  have hbits : x.toBits.toBitVec = Float.Model.UnpackedFloat.packedNaN Float.Model.Format.binary64 := by
    apply x.toModel.valid.eq_packedNaN
    · rw [← BitVec.toNat_inj]
      simp [unpackExponent, Float.Model.Format.binary64, Float.Model.Format.numBits, Nat.shiftRight_eq_div_pow]
      exact h.1
    · rw [Ne, ← BitVec.toNat_inj]
      simp [unpackMantissa, Float.Model.Format.binary64, Float.Model.Format.numBits]
      exact h.2
  rw [← Float.toBits_inj, ← UInt64.toBitVec_inj, hbits]
  decide +kernel

/-! ## Digits without zeros in front -/

inductive IsWhole : List Char → Prop
  | zero : IsWhole ['0']
  | digits {c : Char} {cs : List Char} (hc : c ≠ '0') (hcs : AllDigits (c :: cs)) : IsWhole (c :: cs)

theorem ne_zero_of_pow_le {c : Char} {cs : List Char} (hcs : AllDigits (c :: cs))
    (h : 10 ^ cs.length ≤ Text.digitsValue (c :: cs)) : c ≠ '0' := by
  rintro rfl
  obtain ⟨hc, hcs⟩ := List.forall_mem_cons.mp hcs
  have hlt := Text.digitsValue_lt hcs
  rw [Text.digitsValue_cons hc hcs] at h
  simp at h
  omega

theorem isWhole_decimal (n : ℕ) : IsWhole (Text.decimal n) := by
  by_cases hn : 0 < n
  · have hpow := Text.pow_length_decimal_le hn
    have hdigits : AllDigits (Text.decimal n) := fun _ => Text.isDigit_of_mem_decimal
    have hvalue := Text.digitsValue_decimal n
    obtain ⟨c, cs, hcs⟩ := List.exists_cons_of_ne_nil (Text.decimal_ne_nil n)
    rw [hcs] at hdigits hpow hvalue ⊢
    rw [← hvalue] at hpow
    exact .digits (ne_zero_of_pow_le hdigits hpow) hdigits
  · obtain rfl : n = 0 := by omega
    exact .zero

theorem Decimal.IsProper.exists_cons {d : Decimal} (h : d.IsProper) : ∃ c cs, d.digits = c :: cs ∧ c ≠ '0' := by
  have hdigits := h.digits
  have hfirst := h.first
  obtain ⟨c, cs, hcs⟩ := List.exists_cons_of_ne_nil h.ne_nil
  rw [hcs] at hdigits hfirst
  exact ⟨c, cs, hcs, ne_zero_of_pow_le hdigits hfirst⟩

/-! ## Floats -/

/-- The text of a size that is no integer: a whole number with a point or an exponent. -/
inductive IsFloating : List Char → Prop
  | point {ds es rest : List Char} {e : ℤ} (hds : IsWhole ds) (hne : es ≠ []) (hes : AllDigits es)
      (hrest : IsExponent rest e) : IsFloating (ds ++ '.' :: (es ++ rest))
  | exponent {ds rest : List Char} {e : ℤ} (hds : IsWhole ds) (hne : rest ≠ []) (hrest : IsExponent rest e) :
      IsFloating (ds ++ rest)

theorem Decimal.isFloating_text {d : Decimal} (h : d.IsProper) : IsFloating d.text := by
  obtain ⟨c, cs, hcs, hc⟩ := h.exists_cons
  have hdigits := h.digits
  have hexponent := isExponent_padded (d.point - 1)
  rw [hcs] at hdigits
  unfold text
  dsimp only
  rw [hcs]
  split
  -- without an exponent the point stands before the digits, behind them or among them
  · split
    · have hzeros : AllDigits (List.replicate (-d.point).toNat '0' ++ c :: cs) :=
        List.forall_mem_append.mpr ⟨Text.isDigit_of_mem_zeros, hdigits⟩
      have hpoint := IsFloating.point .zero (by simp) hzeros .none
      rwa [List.append_nil] at hpoint
    split
    · have hzeros : AllDigits (c :: (cs ++ List.replicate (d.point - (c :: cs).length).toNat '0')) :=
        List.forall_mem_append.mpr ⟨hdigits, Text.isDigit_of_mem_zeros⟩
      exact IsFloating.point (.digits hc hzeros) (List.cons_ne_nil '0' []) (Text.isDigit_of_mem_zeros (n := 1)) .none
    · rename_i hsmall hwhole
      obtain ⟨n, hn⟩ : ∃ n, d.point.toNat = n + 1 := ⟨d.point.toNat - 1, by omega⟩
      have hlength : n < cs.length := by
        rw [List.length_cons] at hwhole
        omega
      have hfirst : AllDigits (c :: cs.take n) := by
        intro x hx
        exact hdigits x (List.mem_of_mem_take (i := n + 1) hx)
      have hrest : AllDigits (cs.drop n) := by
        intro x hx
        exact hdigits x (List.mem_cons_of_mem c (List.mem_of_mem_drop hx))
      have hpoint := IsFloating.point (.digits hc hfirst) (List.ne_nil_of_length_pos (by simp; omega)) hrest .none
      rw [List.append_nil] at hpoint
      rwa [hn]
  · cases cs with
    | nil => exact .exponent (.digits hc hdigits) (by simp) hexponent
    | cons c' cs =>
      obtain ⟨hfirst, hrest⟩ := List.forall_mem_cons.mp hdigits
      have hone : AllDigits [c] := by simpa [AllDigits] using hfirst
      exact .point (.digits hc hone) (by simp) hrest hexponent

theorem isFloating_sizeChars {x : Float} (hfinite : isFinite x = true) : IsFloating (sizeChars x) := by
  unfold sizeChars
  rw [hfinite]
  split
  · cases ‹(!true) = true›
  split
  · exact .point .zero (List.cons_ne_nil '0' []) (Text.isDigit_of_mem_zeros (n := 1)) .none
  · rename_i hmagnitude
    have hpos : 0 < significand x := by
      apply Nat.pos_of_ne_zero
      intro hzero
      rw [magnitude, hzero, Nat.zero_mul] at hmagnitude
      exact hmagnitude rfl
    exact Decimal.isFloating_text (shortest_spec hpos).1

end Number

namespace Json

open Number (AllDigits IsWhole IsExponent IsFloating)

theorem ne_of_isDigit {c other : Char} (hc : c.isDigit = true) (hother : other.isDigit = false) : c ≠ other := by
  rintro rfl
  rw [hc] at hother
  cases hother

/-! ## Where a number ends -/

/-- Whether a number in front of a text is over where the text begins. -/
def Ends (rest : List Char) : Prop := ∀ c ∈ rest.head?, c.isDigit = false ∧ c ≠ '.' ∧ c ≠ 'e' ∧ c ≠ 'E'

theorem wholeDigits_append {ds : List Char} (hds : IsWhole ds) (rest : List Char)
    (hrest : ∀ c ∈ rest.head?, c.isDigit = false) : wholeDigits (ds ++ rest) = (ds, rest) := by
  cases hds with
  | zero => rfl
  | digits hc hcs =>
    rw [List.cons_append, wholeDigits]
    · exact Text.span_append hcs hrest
    · simpa using hc

theorem fraction_append {es rest : List Char} (hne : es ≠ []) (hes : AllDigits es)
    (hrest : ∀ c ∈ rest.head?, c.isDigit = false) : fraction ('.' :: (es ++ rest)) = ('.' :: es, rest) := by
  have hspan : Number.spanDigits (es ++ rest) = (es, rest) := Text.span_append hes hrest
  cases es with
  | nil => exact absurd rfl hne
  | cons c es => simp only [fraction, hspan]

theorem fraction_of_ne {rest : List Char} (h : ∀ c ∈ rest.head?, c ≠ '.') : fraction rest = ([], rest) := by
  unfold fraction
  split
  · simp at h
  · rfl

theorem exponent_append {ex rest : List Char} {e : ℤ} (hex : IsExponent ex e) (hrest : Ends rest) :
    exponent (ex ++ rest) = (ex, rest) := by
  cases hex with
  | none =>
    cases rest with
    | nil => rfl
    | cons c rest =>
      obtain ⟨-, -, hlower, hupper⟩ := hrest c rfl
      simp [exponent, hlower, hupper]
  | @plus ds hne hds =>
    have hspan : Number.spanDigits (ds ++ rest) = (ds, rest) := Text.span_append hds fun c hc => (hrest c hc).1
    cases ds with
    | nil => exact absurd rfl hne
    | cons c ds => simp_all [exponent, sign]
  | @minus ds hne hds =>
    have hspan : Number.spanDigits (ds ++ rest) = (ds, rest) := Text.span_append hds fun c hc => (hrest c hc).1
    cases ds with
    | nil => exact absurd rfl hne
    | cons c ds => simp_all [exponent, sign]

/-! ## Numbers -/

theorem minus_append (negative : Bool) {cs : List Char} (h : ∃ c ds, cs = c :: ds ∧ c.isDigit = true) :
    minus (if negative then '-' :: cs else cs) = (if negative then ['-'] else [], cs) := by
  obtain ⟨c, ds, rfl, hc⟩ := h
  cases negative with
  | true => rfl
  | false => simp [minus, show c ≠ '-' from ne_of_isDigit hc rfl]

theorem exists_cons_of_isWhole {ds : List Char} (h : IsWhole ds) : ∃ c cs, ds = c :: cs ∧ c.isDigit = true := by
  cases h with
  | zero => exact ⟨'0', [], rfl, rfl⟩
  | digits hc hcs => exact ⟨_, _, rfl, hcs _ List.mem_cons_self⟩

theorem head_exponent_append {ex rest : List Char} {e : ℤ} (hex : IsExponent ex e) (hrest : Ends rest) :
    ∀ c ∈ (ex ++ rest).head?, c.isDigit = false ∧ c ≠ '.' := by
  cases hex with
  | none => exact fun c hc => ⟨(hrest c hc).1, (hrest c hc).2.1⟩
  | plus hne hds => simp
  | minus hne hds => simp

theorem exists_cons_of_isFloating {cs : List Char} (h : IsFloating cs) : ∃ c ds, cs = c :: ds ∧ c.isDigit = true := by
  cases h with
  | point hds =>
    obtain ⟨c, cs, rfl, hc⟩ := exists_cons_of_isWhole hds
    exact ⟨c, _, rfl, hc⟩
  | exponent hds =>
    obtain ⟨c, cs, rfl, hc⟩ := exists_cons_of_isWhole hds
    exact ⟨c, _, rfl, hc⟩

theorem parts_of_isFloating {cs rest : List Char} (h : IsFloating cs) (hrest : Ends rest) : ∃ ds fr ex,
    cs = ds ++ fr ++ ex ∧ IsWhole ds ∧ ¬(fr = [] ∧ ex = []) ∧ wholeDigits (cs ++ rest) = (ds, fr ++ (ex ++ rest)) ∧
    fraction (fr ++ (ex ++ rest)) = (fr, ex ++ rest) ∧ exponent (ex ++ rest) = (ex, rest) := by
  cases h with
  | @point ds es ex e hds hne hes hex =>
    have hhead := head_exponent_append hex hrest
    have hwhole := wholeDigits_append hds ('.' :: (es ++ (ex ++ rest))) (by simp)
    refine ⟨ds, '.' :: es, ex, by simp, hds, by simp, by simpa using hwhole, ?_, exponent_append hex hrest⟩
    exact fraction_append hne hes fun c hc => (hhead c hc).1
  | @exponent ds ex e hds hne hex =>
    have hhead := head_exponent_append hex hrest
    have hwhole := wholeDigits_append hds (ex ++ rest) fun c hc => (hhead c hc).1
    refine ⟨ds, [], ex, by simp, hds, by simp [hne], by simpa using hwhole, ?_, exponent_append hex hrest⟩
    exact fraction_of_ne fun c hc => (hhead c hc).2

theorem number?_of_parts {cs afterSign afterWhole afterPoint rest sign ds fr ex : List Char}
    (hminus : minus cs = (sign, afterSign)) (hwhole : wholeDigits afterSign = (ds, afterWhole))
    (hfraction : fraction afterWhole = (fr, afterPoint)) (hexponent : exponent afterPoint = (ex, rest)) (hne : ds ≠ []) :
    number? cs = if fr = [] ∧ ex = [] then
        some (.int (if sign = [] then (Text.digitsValue ds : ℤ) else -Text.digitsValue ds), rest)
      else (Number.readFloat? (sign ++ ds ++ fr ++ ex)).map fun x => (.float x, rest) := by
  simp only [number?, hminus, hwhole, hfraction, hexponent, if_neg hne]

section

variable (negative : Bool) {cs rest : List Char} (hrest : Ends rest)
include hrest

theorem number?_of_isWhole (hcs : IsWhole cs) : number? (if negative then '-' :: (cs ++ rest) else cs ++ rest) =
    some (.int (if negative then -(Text.digitsValue cs : ℤ) else Text.digitsValue cs), rest) := by
  obtain ⟨c, ds, rfl, hc⟩ := exists_cons_of_isWhole hcs
  have hminus := minus_append negative ⟨c, ds ++ rest, rfl, hc⟩
  have hwhole := wholeDigits_append hcs rest fun c hc => (hrest c hc).1
  have hfraction := fraction_of_ne fun c hc => (hrest c hc).2.1
  rw [List.cons_append] at hwhole ⊢
  rw [number?_of_parts hminus hwhole hfraction (exponent_append .none hrest) (List.cons_ne_nil c ds), if_pos ⟨rfl, rfl⟩]
  cases negative <;> rfl

theorem number?_of_isFloating (hcs : IsFloating cs) {x : Float}
    (hx : Number.readFloat? (if negative then '-' :: cs else cs) = some x) :
    number? (if negative then '-' :: (cs ++ rest) else cs ++ rest) = some (.float x, rest) := by
  obtain ⟨ds, fr, ex, rfl, hds, hparts, hwhole, hfraction, hexponent⟩ := parts_of_isFloating hcs hrest
  obtain ⟨c, ds, rfl, hc⟩ := exists_cons_of_isWhole hds
  have hminus : minus (if negative then '-' :: (c :: ds ++ fr ++ ex ++ rest) else c :: ds ++ fr ++ ex ++ rest) =
      (if negative then ['-'] else [], c :: ds ++ fr ++ ex ++ rest) := minus_append negative ⟨c, _, rfl, hc⟩
  have hread : Number.readFloat? ((if negative then ['-'] else []) ++ (c :: ds) ++ fr ++ ex) = some x := by
    cases negative <;> simpa using hx
  rw [number?_of_parts hminus hwhole hfraction hexponent (List.cons_ne_nil c ds), if_neg hparts, hread]
  rfl

end

/-! ## Names -/

theorem name?_of_isDigit {c : Char} (hc : c.isDigit = true) (cs : List Char) :
    name? (c :: cs) = none ∧ name? ('-' :: c :: cs) = none := by
  have hne (other : Char) (hother : other.isDigit = false) : (other == c) = false :=
    beq_eq_false_iff_ne.mpr (ne_of_isDigit hc hother).symm
  constructor
  · simp [name?, names, Text.after?, hne 'n' rfl, hne 't' rfl, hne 'f' rfl, hne 'N' rfl, hne 'I' rfl, hne '-' rfl]
  · simp [name?, names, Text.after?, hne 'I' rfl]

end Json

end NoteQuery

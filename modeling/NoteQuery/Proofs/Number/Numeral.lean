import NoteQuery.Number.Read
import NoteQuery.Proofs.Text.Letter
import NoteQuery.Proofs.Text.Squeeze

/-!
# Numerals

A numeral is a run of digits, perhaps with a point and an exponent. It has no blanks and no low lines,
so it is read as it stands, whatever sign is before it. Digits without more are read as a whole number.
-/

namespace NoteQuery.Number

/-! ## Digits and signs -/

theorem plainDigits_of_isDigit : ∀ {cs : List Char}, (∀ c ∈ cs, c.isDigit = true) → plainDigits cs = cs
  | [], _ => rfl
  | c :: cs, h => by
    have hc := h c (List.mem_cons_self ..)
    have ih := plainDigits_of_isDigit fun d hd => h d (List.mem_cons_of_mem _ hd)
    have hcode : 48 + (c.toNat - 48) = c.toNat := by
      have hge := (Text.isDigit_iff.mp hc).1
      omega
    unfold plainDigits at ih ⊢
    rw [List.map_cons, ih, Text.digitValue?_of_isDigit hc]
    simp only [hcode, Char.ofNat_toNat]

theorem splitSign_of_isDigit {c : Char} (h : c.isDigit = true) (cs : List Char) :
    splitSign (c :: cs) = (false, c :: cs) := by
  unfold splitSign
  split
  · rename_i heq
    rw [(List.cons.inj heq).1] at h
    cases h
  · rename_i heq
    rw [(List.cons.inj heq).1] at h
    cases h
  · rfl

/-! ## Numerals -/

def AllDigits (cs : List Char) : Prop := ∀ c ∈ cs, c.isDigit = true

/-- A text that writes an exponent, which may be missing. -/
inductive IsExponent : List Char → Int → Prop
  | none : IsExponent [] 0
  | plus {ds : List Char} (hne : ds ≠ []) (hds : AllDigits ds) : IsExponent ('e' :: '+' :: ds) (Text.digitsValue ds)
  | minus {ds : List Char} (hne : ds ≠ []) (hds : AllDigits ds) : IsExponent ('e' :: '-' :: ds) (-Text.digitsValue ds)

/-- A text that writes some digits times a power of ten: digits, more digits after a point if there is
one, and an exponent. -/
inductive IsNumeral : List Char → List Char → Int → Prop
  | whole {ds rest : List Char} {e : Int} (hne : ds ≠ []) (hds : AllDigits ds) (hrest : IsExponent rest e) :
      IsNumeral (ds ++ rest) ds e
  | point {ds es rest : List Char} {e : Int} (hne : ds ≠ []) (hds : AllDigits ds) (hes : AllDigits es)
      (hrest : IsExponent rest e) : IsNumeral (ds ++ '.' :: (es ++ rest)) (ds ++ es) (e - es.length)

theorem IsExponent.exponent? {rest : List Char} {e : Int} (h : IsExponent rest e) : exponent? rest = some e := by
  cases h with
  | none => rfl
  | plus hne hds => exact if_pos ⟨hne, List.all_eq_true.mpr hds⟩
  | minus hne hds => exact if_pos ⟨hne, List.all_eq_true.mpr hds⟩

theorem IsExponent.head {rest : List Char} {e : Int} (h : IsExponent rest e) : ∀ c ∈ rest.head?, c = 'e' := by
  cases h with
  | none => exact nofun
  | plus hne hds => exact fun c hc => (Option.some.inj hc).symm
  | minus hne hds => exact fun c hc => (Option.some.inj hc).symm

theorem IsExponent.spanDigits {es rest : List Char} {e : Int} (hes : AllDigits es) (h : IsExponent rest e) :
    spanDigits (es ++ rest) = (es, rest) := by
  refine Text.span_append hes fun c hc => ?_
  rw [h.head c hc]
  rfl

theorem IsNumeral.unsigned? {cs ds : List Char} {e : Int} (h : IsNumeral cs ds e) (negative : Bool) :
    unsigned? negative cs = some (ofDecimal negative ds e) := by
  cases h with
  | whole hne hds hrest =>
    have hspan := hrest.spanDigits hds
    have hexponent := hrest.exponent?
    cases hrest <;> simp only [Number.unsigned?, hspan] <;> simp [hne, hexponent]
  | @point ds es rest e hne hds hes hrest =>
    have hwhole : Number.spanDigits (ds ++ '.' :: (es ++ rest)) = (ds, '.' :: (es ++ rest)) := by
      refine Text.span_append hds fun c hc => ?_
      obtain rfl := Option.some.inj hc
      rfl
    simp only [Number.unsigned?, hwhole, hrest.spanDigits hes, hrest.exponent?]
    exact if_neg fun hnil => hne hnil.1

/-! ## Reading a numeral -/

def isNumeralChar (c : Char) : Bool := c.isDigit || c == '.' || c == 'e' || c == '+' || c == '-'

theorem AllDigits.chars {cs : List Char} (h : AllDigits cs) : ∀ c ∈ cs, isNumeralChar c = true := by
  intro c hc
  simp [isNumeralChar, h c hc]

theorem IsExponent.chars {rest : List Char} {e : Int} (h : IsExponent rest e) : ∀ c ∈ rest, isNumeralChar c = true := by
  cases h with
  | none => exact nofun
  | plus hne hds =>
    simp only [List.forall_mem_cons]
    exact ⟨rfl, rfl, hds.chars⟩
  | minus hne hds =>
    simp only [List.forall_mem_cons]
    exact ⟨rfl, rfl, hds.chars⟩

theorem IsNumeral.chars {cs ds : List Char} {e : Int} (h : IsNumeral cs ds e) : ∀ c ∈ cs, isNumeralChar c = true := by
  cases h with
  | whole hne hds hrest =>
    rw [List.forall_mem_append]
    exact ⟨hds.chars, hrest.chars⟩
  | point hne hds hes hrest =>
    rw [List.forall_mem_append, List.forall_mem_cons, List.forall_mem_append]
    exact ⟨hds.chars, rfl, hes.chars, hrest.chars⟩

theorem IsNumeral.first {cs ds : List Char} {e : Int} (h : IsNumeral cs ds e) :
    ∃ first rest, cs = first :: rest ∧ first.isDigit = true := by
  cases h with
  | whole hne hds hrest =>
    obtain ⟨first, ds, rfl⟩ := List.exists_cons_of_ne_nil hne
    exact ⟨first, _, rfl, hds first List.mem_cons_self⟩
  | point hne hds hes hrest =>
    obtain ⟨first, ds, rfl⟩ := List.exists_cons_of_ne_nil hne
    exact ⟨first, _, rfl, hds first List.mem_cons_self⟩

theorem isNumeralChar_spec {c : Char} (h : isNumeralChar c = true) :
    Text.isBlank c = false ∧ plainDigits [c] = [c] ∧ c ≠ '_' := by
  by_cases hdigit : c.isDigit = true
  · refine ⟨Text.not_isBlank_of_isWord (Text.isWord_of_isDigit hdigit), plainDigits_of_isDigit (by simpa using hdigit), ?_⟩
    rintro rfl
    cases hdigit
  · have hcases : c = '.' ∨ c = 'e' ∨ c = '+' ∨ c = '-' := by simpa [isNumeralChar, hdigit, or_assoc] using h
    rcases hcases with rfl | rfl | rfl | rfl <;> decide +kernel

theorem dropLowLines?_of_ne : ∀ {cs : List Char} {previous : Char}, previous ≠ '_' → (∀ c ∈ cs, c ≠ '_') →
    dropLowLines? previous cs = some cs
  | [], previous, hprevious, _ => by rw [dropLowLines?, if_neg (by simpa using hprevious)]
  | c :: cs, previous, hprevious, h => by
    obtain ⟨hc, hcs⟩ := List.forall_mem_cons.mp h
    rw [dropLowLines?, if_neg (by simpa using hc), if_neg (by simp [hprevious]), dropLowLines?_of_ne hc hcs]
    rfl

theorem plainDigits_of_isNumeralChar : ∀ {cs : List Char}, (∀ c ∈ cs, isNumeralChar c = true) → plainDigits cs = cs
  | [], _ => rfl
  | c :: cs, h => by
    obtain ⟨hc, hcs⟩ := List.forall_mem_cons.mp h
    have hfirst := (isNumeralChar_spec hc).2.1
    have hrest := plainDigits_of_isNumeralChar hcs
    rw [plainDigits, List.map_cons, ← plainDigits, hrest]
    rw [plainDigits, List.map_singleton] at hfirst
    rw [(List.cons.inj hfirst).1]

theorem ofList_ne_of_isDigit {first : Char} (hfirst : first.isDigit = true) (rest : List Char) {name : String}
    (hname : ∀ c ∈ name.toList.head?, c.isDigit = false) : String.ofList ((first :: rest).map Char.toLower) ≠ name := by
  rintro rfl
  rw [String.toList_ofList, List.map_cons, Text.toLower_of_isDigit hfirst] at hname
  rw [hname first rfl] at hfirst
  cases hfirst

theorem splitSign_signed {first : Char} {rest : List Char} (hfirst : first.isDigit = true)
    (hchars : ∀ c ∈ first :: rest, isNumeralChar c = true) (negative : Bool) :
    splitSign (plainDigits (Text.trim (if negative then '-' :: first :: rest else first :: rest))) =
      (negative, first :: rest) := by
  have hall : ∀ c ∈ (if negative then '-' :: first :: rest else first :: rest), isNumeralChar c = true := by
    split
    · exact List.forall_mem_cons.mpr ⟨rfl, hchars⟩
    · exact hchars
  have hne : (if negative then '-' :: first :: rest else first :: rest) ≠ [] := by split <;> exact nofun
  rw [Text.trim_of_tight (.of_not_blank (fun c hc => (isNumeralChar_spec (hall c hc)).1) hne),
    plainDigits_of_isNumeralChar hall]
  cases negative with
  | false => exact splitSign_of_isDigit hfirst rest
  | true => rfl

theorem readFloat?_of_isNumeral {cs ds : List Char} {e : Int} (h : IsNumeral cs ds e) (negative : Bool) :
    readFloat? (if negative then '-' :: cs else cs) = some (ofDecimal negative ds e) := by
  have hread := h.unsigned? negative
  have hchars := h.chars
  obtain ⟨first, rest, rfl, hfirst⟩ := h.first
  have hlow : dropLowLines? '+' (first :: rest) = some (first :: rest) :=
    dropLowLines?_of_ne (by decide) fun c hc => (isNumeralChar_spec (hchars c hc)).2.2
  have hname : ∀ {name : String}, (∀ c ∈ name.toList.head?, c.isDigit = false) →
      String.ofList ((first :: rest).map Char.toLower) ≠ name := fun hname => ofList_ne_of_isDigit hfirst rest hname
  rw [readFloat?, splitSign_signed hfirst hchars]
  dsimp only
  rw [if_neg (not_or.mpr ⟨hname (by simp), hname (by simp)⟩), if_neg (hname (by simp)), hlow]
  exact hread

/-! ## Whole numbers -/

theorem digitIn?_of_isDigit {c : Char} (h : c.isDigit = true) : digitIn? 10 c = Text.digitValue? c := by
  have hvalue := (Text.isDigit_iff.mp h).2
  rw [digitIn?, Text.hexValue?, if_pos h, Text.digitValue?_of_isDigit h, Option.filter_some, if_pos]
  exact decide_eq_true (by omega)

theorem digitsIn?_cons {c : Char} (hc : c.isDigit = true) (n : Nat) (before : Bool) (ds : List Char) :
    digitsIn? 10 n before (c :: ds) = digitsIn? 10 (10 * n + (Text.digitValue? c).getD 0) true ds := by
  have hline : c ≠ '_' := by
    rintro rfl
    cases hc
  rw [digitsIn?, if_neg (by simpa using hline), digitIn?_of_isDigit hc, Text.digitValue?_of_isDigit hc]
  rfl

theorem digitsIn?_of_allDigits : ∀ {ds : List Char}, AllDigits ds → ∀ n,
    digitsIn? 10 n true ds = some (ds.foldl (fun n c => 10 * n + (Text.digitValue? c).getD 0) n)
  | [], _, _ => rfl
  | c :: ds, h, n => by
    obtain ⟨hc, hds⟩ := List.forall_mem_cons.mp h
    rw [digitsIn?_cons hc, digitsIn?_of_allDigits hds, List.foldl_cons]

theorem dropBaseMark_ten (cs : List Char) : dropBaseMark 10 cs = cs := by
  unfold dropBaseMark
  split
  · exact if_neg nofun
  · rfl

theorem readInt?_of_allDigits {ds : List Char} (hne : ds ≠ []) (h : AllDigits ds) (negative : Bool) :
    readInt? 10 (if negative then '-' :: ds else ds) =
      some (if negative then -(Text.digitsValue ds : Int) else Text.digitsValue ds) := by
  obtain ⟨first, ds, rfl⟩ := List.exists_cons_of_ne_nil hne
  obtain ⟨hfirst, hds⟩ := List.forall_mem_cons.mp h
  rw [readInt?, splitSign_signed hfirst h.chars]
  dsimp only
  rw [dropBaseMark_ten, digitsIn?_cons hfirst, digitsIn?_of_allDigits hds]
  rfl

theorem readInt?_signedDecimal (n : Int) : readInt? 10 (Text.signedDecimal n) = some n := by
  cases n with
  | ofNat n =>
    have hread := readInt?_of_allDigits (Text.decimal_ne_nil n) (fun _ => Text.isDigit_of_mem_decimal) false
    rw [Text.digitsValue_decimal] at hread
    exact hread
  | negSucc n =>
    have hread := readInt?_of_allDigits (Text.decimal_ne_nil (n + 1)) (fun _ => Text.isDigit_of_mem_decimal) true
    rw [Text.digitsValue_decimal] at hread
    exact hread

end NoteQuery.Number

import NoteQuery.Proofs.Json.Number
import NoteQuery.Proofs.Json.Text

/-!
# Documents that are read back

Every document is read back from its text, whatever the style is. A text of a document is read as far
as it goes, if what stands after it does not go on with a number, as no comma, bracket or blank does.
-/

namespace NoteQuery.Json

/-! ## Blanks -/

theorem dropBlanks_append {blanks : List Char} (h : ∀ c ∈ blanks, isBlank c = true) (cs : List Char) :
    dropBlanks (blanks ++ cs) = dropBlanks cs :=
  List.dropWhile_append_of_pos h

theorem dropBlanks_cons {c : Char} (h : isBlank c = false) (cs : List Char) : dropBlanks (c :: cs) = c :: cs := by
  simp [dropBlanks, h]

theorem isBlank_of_mem_lineStart (style : Style) (level : ℕ) : ∀ c ∈ lineStart style level, isBlank c = true := by
  intro c hc
  unfold lineStart at hc
  split at hc
  · rcases List.mem_cons.mp hc with rfl | hc
    · rfl
    · rw [(List.mem_replicate.mp hc).2]
      rfl
  · cases hc

structure Style.IsPlain (style : Style) : Prop where
  comma : ∃ blanks, style.comma.toList = ',' :: blanks ∧ ∀ c ∈ blanks, isBlank c = true
  colon : ∃ blanks, style.colon.toList = ':' :: blanks ∧ ∀ c ∈ blanks, isBlank c = true

theorem isPlain_line : Style.line.IsPlain where
  comma := ⟨[' '], rfl, by simp [isBlank]⟩
  colon := ⟨[' '], rfl, by simp [isBlank]⟩

theorem ends_cons {c : Char} (h : isBlank c = true ∨ c = ',' ∨ c = ']' ∨ c = '}') (cs : List Char) :
    Ends (c :: cs) := by
  intro d hd
  obtain rfl := Option.some.inj hd
  have hcases : c = ' ' ∨ c = '\t' ∨ c = '\n' ∨ c = '\r' ∨ c = ',' ∨ c = ']' ∨ c = '}' := by
    simpa [isBlank, or_assoc] using h
  rcases hcases with rfl | rfl | rfl | rfl | rfl | rfl | rfl <;> decide

/-! ## Items -/

section

variable {α : Type} {item? : List Char → Option (α × List Char)}

/-- A text from which an item is read, wherever it stands. -/
structure Reads (item? : List Char → Option (α × List Char)) (text : List Char) (item : α) : Prop where
  first : ∃ c cs, text = c :: cs ∧ isBlank c = false ∧ c ≠ ']' ∧ c ≠ '}'
  read : ∀ rest, Ends rest → item? (text ++ rest) = some (item, rest)

theorem Reads.dropBlanks {text : List Char} {item : α} (h : Reads item? text item) {blanks : List Char}
    (hblanks : ∀ c ∈ blanks, isBlank c = true) (rest : List Char) :
    Json.dropBlanks (blanks ++ (text ++ rest)) = text ++ rest := by
  obtain ⟨c, cs, rfl, hc, -, -⟩ := h.first
  rw [dropBlanks_append hblanks, List.cons_append, dropBlanks_cons hc]

/-- What stands after the first item of a collection, the texts of the others with what is around them. -/
def afterItem (style : Style) (gap last : List Char) (close : Char) (texts : List (List Char)) (rest : List Char) :
    List Char :=
  texts.flatMap (fun t => style.comma.toList ++ gap ++ t) ++ (last ++ close :: rest)

theorem length_afterItem {style : Style} (hstyle : style.IsPlain) (gap last : List Char) (close : Char)
    (texts : List (List Char)) (rest : List Char) :
    texts.length ≤ (afterItem style gap last close texts rest).length := by
  obtain ⟨blanks, hcomma, -⟩ := hstyle.comma
  unfold afterItem
  induction texts with
  | nil => simp
  | cons t texts ih =>
    simp only [List.flatMap_cons, List.length_append, List.length_cons, hcomma] at ih ⊢
    omega

section

variable {style : Style} (hstyle : style.IsPlain) {close : Char} (hclose : close = ']' ∨ close = '}')
  {gap last : List Char} (hgap : ∀ c ∈ gap, isBlank c = true) (hlast : ∀ c ∈ last, isBlank c = true)
include hstyle hclose hgap hlast

theorem sequence?_append (rest : List Char) : ∀ (steps : ℕ) {texts : List (List Char)} {items : List α}
    {cs : List Char} {item : α}, Reads item? cs item → List.Forall₂ (Reads item?) texts items →
    items.length < steps →
    sequence? item? close steps (cs ++ afterItem style gap last close texts rest) = some (item :: items, rest)
  | steps + 1, [], [], cs, item, hitem, .nil, _ => by
    -- a number at the end must not run into the bracket
    have hends : Ends (last ++ close :: rest) := by
      cases last with
      | nil => exact ends_cons (Or.inr (Or.inr hclose)) rest
      | cons c last => exact ends_cons (Or.inl (hlast c List.mem_cons_self)) _
    have hdrop : dropBlanks (last ++ close :: rest) = close :: rest := by
      rw [dropBlanks_append hlast, dropBlanks_cons]
      rcases hclose with rfl | rfl <;> rfl
    simp [afterItem, sequence?, hitem.read _ hends, hdrop]
  | steps + 1, t :: texts, next :: items, cs, item, hitem, .cons hnext hitems, hsteps => by
    -- a comma, with the blanks of the style behind it, goes before the next item
    obtain ⟨blanks, hcomma, hblanks⟩ := hstyle.comma
    have hafter : afterItem style gap last close (t :: texts) rest =
        ',' :: (blanks ++ gap ++ (t ++ afterItem style gap last close texts rest)) := by
      simp [afterItem, hcomma]
    have hskip := hnext.dropBlanks (List.forall_mem_append.mpr ⟨hblanks, hgap⟩)
      (afterItem style gap last close texts rest)
    have hends := ends_cons (Or.inr (Or.inl rfl)) (blanks ++ gap ++ (t ++ afterItem style gap last close texts rest))
    have hne : ',' ≠ close := by rcases hclose with rfl | rfl <;> decide
    have ih := sequence?_append rest steps hnext hitems (Nat.lt_of_succ_lt_succ hsteps)
    have hdrop := dropBlanks_cons (c := ',') rfl (blanks ++ gap ++ (t ++ afterItem style gap last close texts rest))
    rw [hafter, sequence?, hitem.read _ hends]
    simp only [hdrop, Option.bind_eq_bind, Option.bind_some, beq_iff_eq, hne, if_false, if_true, hskip, ih]
    rfl

theorem items?_append {texts : List (List Char)} {items : List α} {cs : List Char} {item : α}
    (hitem : Reads item? cs item) (hitems : List.Forall₂ (Reads item?) texts items) (rest : List Char) :
    items? item? close (gap ++ (cs ++ afterItem style gap last close texts rest)) = some (item :: items, rest) := by
  have hlength := length_afterItem hstyle gap last close texts rest
  rw [hitems.length_eq] at hlength
  unfold items?
  rw [hitem.dropBlanks hgap]
  obtain ⟨c, cs, rfl, -, hleft, hright⟩ := hitem.first
  have hne : c ≠ close := by rcases hclose with rfl | rfl <;> assumption
  have hread := sequence?_append hstyle hclose hgap hlast rest
    ((cs ++ afterItem style gap last close texts rest).length + 1) hitem hitems (by
      rw [List.length_append]
      omega)
  rw [List.cons_append] at hread ⊢
  simp only [beq_iff_eq, hne, if_false]
  exact hread

end

theorem enclosed_eq_cons (style : Style) (level : ℕ) (left right : Char) (texts : List (List Char)) :
    ∃ cs, enclosed style level left right texts = left :: cs := by
  cases texts <;> exact ⟨_, rfl⟩

theorem items?_enclosed {style : Style} (hstyle : style.IsPlain) {close : Char} (hclose : close = ']' ∨ close = '}')
    (left : Char) (level : ℕ) {texts : List (List Char)} {items : List α}
    (hitems : List.Forall₂ (Reads item?) texts items) (rest : List Char) :
    ∃ cs, enclosed style level left close texts ++ rest = left :: cs ∧ items? item? close cs = some (items, rest) := by
  cases hitems with
  | nil =>
    have hblank : isBlank close = false := by rcases hclose with rfl | rfl <;> rfl
    refine ⟨close :: rest, rfl, ?_⟩
    simp [items?, dropBlanks_cons hblank]
  | @cons cs item texts items hitem hitems =>
    refine ⟨_, ?_, items?_append hstyle hclose (isBlank_of_mem_lineStart style (level + 1))
      (isBlank_of_mem_lineStart style level) hitem hitems rest⟩
    simp [enclosed, afterItem]

theorem length_enclosed (style : Style) (level : ℕ) (left right : Char) (texts : List (List Char)) :
    ∀ t ∈ texts, t.length + 2 ≤ (enclosed style level left right texts).length := by
  intro t ht
  cases texts with
  | nil => cases ht
  | cons first texts =>
    simp only [enclosed, List.length_append, List.length_cons, List.length_nil]
    rcases List.mem_cons.mp ht with rfl | ht
    · omega
    · have hle : t.length ≤
          (texts.flatMap fun t => style.comma.toList ++ lineStart style (level + 1) ++ t).length := by
        obtain ⟨before, after, rfl⟩ := List.append_of_mem ht
        simp only [List.flatMap_append, List.flatMap_cons, List.length_append]
        omega
      omega

end

/-! ## Documents -/

theorem reads_text (style : Style) (depth : ℕ) (s : String) :
    Reads (value? (depth + 1)) (quotedText style.ascii s) (.text s) where
  first := ⟨'"', _, rfl, rfl, by decide, by decide⟩
  read rest _ := by
    have htext := text?_quoted style.ascii s rest
    simp [quotedText, value?, htext]

theorem reads_pair {α : Type} {item? : List Char → Option (α × List Char)} {style : Style} (hstyle : style.IsPlain)
    (key : String) {text : List Char} {item : α} (h : Reads item? text item) :
    Reads (pair? item?) (quotedText style.ascii key ++ style.colon.toList ++ text) (key, item) where
  first := ⟨'"', _, rfl, rfl, by decide, by decide⟩
  read rest hrest := by
    obtain ⟨blanks, hcolon, hblanks⟩ := hstyle.colon
    have htext := text?_quoted style.ascii key (':' :: (blanks ++ (text ++ rest)))
    have hdrop : dropBlanks (':' :: (blanks ++ (text ++ rest))) = ':' :: (blanks ++ (text ++ rest)) :=
      dropBlanks_cons rfl _
    simp [quotedText, pair?, hcolon, htext, hdrop, h.dropBlanks hblanks, h.read rest hrest]

theorem reads_number (negative : Bool) {depth : ℕ} {cs : List Char} {doc : Json}
    (hfirst : ∃ c ds, cs = c :: ds ∧ c.isDigit = true)
    (hread : ∀ rest, Ends rest → number? (if negative then '-' :: (cs ++ rest) else cs ++ rest) = some (doc, rest)) :
    Reads (value? (depth + 1)) (if negative then '-' :: cs else cs) doc := by
  obtain ⟨c, ds, rfl, hc⟩ := hfirst
  have hne (other : Char) (hother : other.isDigit = false) : c ≠ other := ne_of_isDigit hc hother
  cases negative with
  | true =>
    refine ⟨⟨'-', c :: ds, rfl, rfl, by decide, by decide⟩, fun rest hrest => ?_⟩
    have hnumber := hread rest hrest
    simp only [if_true, List.cons_append] at hnumber ⊢
    simp [value?, name?_of_isDigit hc, hnumber]
  | false =>
    refine ⟨⟨c, ds, rfl, ?_, hne ']' rfl, hne '}' rfl⟩, fun rest hrest => ?_⟩
    · simp [isBlank, hne ' ' rfl, hne '\t' rfl, hne '\n' rfl, hne '\r' rfl]
    · have hnumber := hread rest hrest
      simp only [Bool.false_eq_true, if_false, List.cons_append] at hnumber ⊢
      simp [value?, hne '"' rfl, hne '[' rfl, hne '{' rfl, name?_of_isDigit hc, hnumber]

theorem reads_signedDecimal (depth : ℕ) (n : ℤ) : Reads (value? (depth + 1)) (Text.signedDecimal n) (.int n) := by
  have hsize (negative : Bool) (m : ℕ) : Reads (value? (depth + 1))
      (if negative then '-' :: Text.decimal m else Text.decimal m) (.int (if negative then -(m : ℤ) else m)) := by
    have hm := Number.isWhole_decimal m
    refine reads_number negative (exists_cons_of_isWhole hm) fun rest hrest => ?_
    rw [number?_of_isWhole negative hrest hm, Text.digitsValue_decimal]
  cases n with
  | ofNat m => exact hsize false m
  | negSucc m => exact hsize true (m + 1)

theorem reads_name (depth : ℕ) : ∀ entry ∈ names, Reads (value? (depth + 1)) entry.1.toList entry.2 := by
  unfold names
  simp only [List.forall_mem_cons]
  refine ⟨?_, ?_, ?_, ?_, ?_, ?_, nofun⟩ <;>
    exact ⟨⟨_, _, rfl, rfl, by decide, by decide⟩, fun rest _ => by simp [value?, name?, names, Text.after?]⟩

theorem floatChars_of_not_finite {x : Float} (hfinite : Number.isFinite x = false) :
    ∃ name, (name, .float x) ∈ names ∧ floatChars x = name.toList := by
  by_cases hnan : Number.isNaN x = true
  · refine ⟨"NaN", ?_, ?_⟩
    · rw [Number.eq_nan hnan]
      simp [names]
    · simp [floatChars, hnan]
  · rw [Bool.not_eq_true] at hnan
    have hx := Number.eq_infinity hnan hfinite
    have htext : floatChars x = (if Number.isNegative x then ['-'] else []) ++ "Infinity".toList := by
      simp [floatChars, hnan, hfinite]
    rw [htext]
    cases hnegative : Number.isNegative x with
    | true =>
      rw [hnegative] at hx
      exact ⟨"-Infinity", by simp [names, hx], rfl⟩
    | false =>
      rw [hnegative] at hx
      exact ⟨"Infinity", by simp [names, hx], rfl⟩

theorem reads_floatChars (depth : ℕ) (x : Float) : Reads (value? (depth + 1)) (floatChars x) (.float x) := by
  by_cases hfinite : Number.isFinite x = true
  · have hnan : Number.isNaN x = false := by
      unfold Number.isFinite at hfinite
      simp_all [Number.isNaN]
    have hfloating := Number.isFloating_sizeChars hfinite
    have hread := Number.readFloat?_floatChars hnan
    have htext : floatChars x = Number.floatChars x := by simp [floatChars, hnan, hfinite]
    rw [htext]
    rw [Number.floatChars_eq hnan] at hread ⊢
    exact reads_number _ (exists_cons_of_isFloating hfloating) fun rest hrest =>
      number?_of_isFloating _ hrest hfloating hread
  · obtain ⟨name, hname, htext⟩ := floatChars_of_not_finite (Bool.not_eq_true _ ▸ hfinite)
    rw [htext]
    exact reads_name depth _ hname

section

variable {style : Style} (hstyle : style.IsPlain)
include hstyle

theorem reads_list (level : ℕ) {depth : ℕ} {texts : List (List Char)} {items : List Json}
    (h : List.Forall₂ (Reads (value? depth)) texts items) :
    Reads (value? (depth + 1)) (enclosed style level '[' ']' texts) (.list items) := by
  constructor
  · obtain ⟨cs, hcs⟩ := enclosed_eq_cons style level '[' ']' texts
    exact ⟨'[', cs, hcs, rfl, by decide, by decide⟩
  · intro rest _
    obtain ⟨cs, hcs, hread⟩ := items?_enclosed hstyle (Or.inl rfl) '[' level h rest
    rw [hcs]
    simp [value?, hread]

theorem reads_object (level : ℕ) {depth : ℕ} {texts : List (List Char)} {entries : List (String × Json)}
    (h : List.Forall₂ (Reads (pair? (value? depth))) texts entries) :
    Reads (value? (depth + 1)) (enclosed style level '{' '}' texts) (.object entries) := by
  constructor
  · obtain ⟨cs, hcs⟩ := enclosed_eq_cons style level '{' '}' texts
    exact ⟨'{', cs, hcs, rfl, by decide, by decide⟩
  · intro rest _
    obtain ⟨cs, hcs, hread⟩ := items?_enclosed hstyle (Or.inr rfl) '{' level h rest
    rw [hcs]
    simp [value?, hread]

end

mutual

theorem reads_chars {style : Style} (hstyle : style.IsPlain) : ∀ (doc : Json) (level depth : ℕ),
    (chars style level doc).length ≤ depth + 1 →
    Reads (value? (depth + 1)) (chars style level doc) doc
  | .null, level, depth, _ => by
    rw [chars]
    exact reads_name depth ("null", .null) (by simp [names])
  | .bool b, level, depth, _ => by
    rw [chars]
    cases b with
    | true => exact reads_name depth ("true", .bool true) (by simp [names])
    | false => exact reads_name depth ("false", .bool false) (by simp [names])
  | .int n, level, depth, _ => by
    rw [chars]
    exact reads_signedDecimal depth n
  | .float x, level, depth, _ => by
    rw [chars]
    exact reads_floatChars depth x
  | .text s, level, depth, _ => by
    rw [chars]
    exact reads_text style depth s
  | .list items, level, depth, h => by
    rw [chars] at h ⊢
    refine reads_list hstyle level (reads_itemChars hstyle items (level + 1) depth fun t ht => ?_)
    -- the text of an item is shorter than that of the list, so one level less is enough
    have := length_enclosed style level '[' ']' _ t ht
    omega
  | .object entries, level, depth, h => by
    rw [chars] at h ⊢
    refine reads_object hstyle level (reads_entryChars hstyle entries (level + 1) depth fun t ht => ?_)
    have := length_enclosed style level '{' '}' _ t ht
    omega

theorem reads_itemChars {style : Style} (hstyle : style.IsPlain) : ∀ (items : List Json) (level depth : ℕ),
    (∀ t ∈ itemChars style level items, t.length + 1 ≤ depth) →
    List.Forall₂ (Reads (value? depth)) (itemChars style level items) items
  | [], level, depth, _ => .nil
  | item :: items, level, depth, h => by
    rw [itemChars] at h ⊢
    obtain ⟨hitem, hitems⟩ := List.forall_mem_cons.mp h
    obtain ⟨n, rfl⟩ : ∃ n, depth = n + 1 := ⟨depth - 1, by omega⟩
    exact .cons (reads_chars hstyle item level n (by omega)) (reads_itemChars hstyle items level (n + 1) hitems)

theorem reads_entryChars {style : Style} (hstyle : style.IsPlain) : ∀ (entries : List (String × Json))
    (level depth : ℕ), (∀ t ∈ entryChars style level entries, t.length + 1 ≤ depth) →
    List.Forall₂ (Reads (pair? (value? depth))) (entryChars style level entries) entries
  | [], level, depth, _ => .nil
  | (key, value) :: entries, level, depth, h => by
    rw [entryChars] at h ⊢
    obtain ⟨hentry, hentries⟩ := List.forall_mem_cons.mp h
    rw [List.length_append, List.length_append] at hentry
    obtain ⟨n, rfl⟩ : ∃ n, depth = n + 1 := ⟨depth - 1, by omega⟩
    have hvalue := reads_chars hstyle value level n (by omega)
    exact .cons (reads_pair hstyle key hvalue) (reads_entryChars hstyle entries level (n + 1) hentries)

end

theorem read?_render {style : Style} (hstyle : style.IsPlain) (doc : Json) : read? (render style doc) = some doc := by
  obtain ⟨c, cs, hcs, hblank, -⟩ := (reads_chars hstyle doc 0 (chars style 0 doc).length (by omega)).first
  have hread := (reads_chars hstyle doc 0 cs.length (by simp [hcs])).read [] nofun
  have hdrop : dropBlanks (chars style 0 doc) = chars style 0 doc := by rw [hcs, dropBlanks_cons hblank]
  rw [List.append_nil] at hread
  unfold read? render
  rw [String.toList_ofList, hdrop, hcs, List.length_cons, ← hcs, hread]
  rfl

end NoteQuery.Json

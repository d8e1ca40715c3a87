import NoteQuery.Proofs.Query.Search
import NoteQuery.Proofs.Query.Written

/-!
# The parts of a written query

Names, quoted texts, numbers and what is put together from them have no blanks but single
spaces and no reserved words. A clause is its keyword, a space and such a part.
-/

namespace NoteQuery.Query

open NoteQuery.Text (isWord isBlank isFieldChar Tight)

theorem isKeyword_of_reservedWords : ∀ keyword ∈ reservedWords, IsKeyword keyword := by decide

theorem free_nil {keywords : List (List Char)} (h : ∀ keyword ∈ keywords, IsKeyword keyword) : Free keywords [] :=
  free_of_isWord (fun _ hc => by cases hc) fun keyword hk => not_reads_nil (h keyword hk)

structure IsPart (cs : List Char) : Prop where
  tight : Tight cs
  free : Free reservedWords cs

namespace IsPart

theorem space {a b : List Char} (ha : IsPart a) (hb : IsPart b) : IsPart (a ++ ' ' :: b) :=
  ⟨ha.tight.space hb.tight, (free_append_cons isWord_space a b).mpr ⟨ha.free, hb.free⟩⟩

section
variable {c : Char} (hword : isWord c = false) (hblank : isBlank c = false)
include hword hblank

theorem mark : IsPart [c] where
  tight := Tight.of_not_blank (by simpa using hblank) (List.cons_ne_nil c [])
  free := by
    have hnil := free_nil isKeyword_of_reservedWords
    exact (free_append_cons hword [] []).mpr ⟨hnil, hnil⟩

theorem cons {b : List Char} (hb : IsPart b) : IsPart (c :: b) where
  tight := (mark hword hblank).tight.append hb.tight
  free := (free_append_cons hword [] b).mpr ⟨free_nil isKeyword_of_reservedWords, hb.free⟩

theorem concat {a : List Char} (ha : IsPart a) : IsPart (a ++ [c]) where
  tight := ha.tight.append (mark hword hblank).tight
  free := (free_append_cons hword a []).mpr ⟨ha.free, free_nil isKeyword_of_reservedWords⟩

theorem append_cons {a b : List Char} (ha : IsPart a) (hb : IsPart b) : IsPart (a ++ c :: b) where
  tight := ha.tight.append (cons hword hblank hb).tight
  free := (free_append_cons hword a b).mpr ⟨ha.free, hb.free⟩

end

theorem of_isWord {cs : List Char} (hcs : ∀ c ∈ cs, isWord c = true) (hne : cs ≠ [])
    (h : ∀ keyword ∈ reservedWords, ¬Reads keyword cs) : IsPart cs where
  tight := Tight.of_not_blank (fun c hc => Text.not_isBlank_of_isWord (hcs c hc)) hne
  free := free_of_isWord hcs h

theorem of_isName {p : Char → Bool} (hp : ∀ c, p c = true → isBlank c = false) {s : String} (h : IsName p s) :
    IsPart s.toList where
  tight := Tight.of_not_blank (fun c hc => hp c (h.chars c hc)) h.ne_nil
  free := h.free

theorem of_isPath {s : String} (h : IsName isFieldChar s) : IsPart s.toList :=
  of_isName (fun _ => Text.not_isBlank_of_isFieldChar) h

theorem quoted {s : String} (h : IsQuotable s) : IsPart (quoted s) where
  tight := Tight.enclosed rfl rfl h.spaced
  free := by
    have hnil := free_nil isKeyword_of_reservedWords
    have hright : Free reservedWords (s.toList ++ ['"']) := (free_append_cons rfl s.toList []).mpr ⟨h.free, hnil⟩
    exact (free_append_cons rfl [] _).mpr ⟨hnil, hright⟩

end IsPart

/-! ## Numbers and literals -/

theorem not_reads_of_isDigit {keyword run : List Char} (hk : IsKeyword keyword) {c : Char} (hc : c ∈ run)
    (hdigit : c.isDigit = true) : ¬Reads keyword run := by
  intro h
  obtain ⟨letter, hl, hr⟩ := exists_readsAs h c hc
  rw [Text.not_readsAs_of_isDigit (hk.2 letter hl) hdigit] at hr
  cases hr

theorem free_decimal {keywords : List (List Char)} (hk : ∀ keyword ∈ keywords, IsKeyword keyword) (n : Nat) :
    Free keywords (Text.decimal n) := by
  have hfirst := List.head_mem (Text.decimal_ne_nil n)
  refine free_of_isWord (fun c hc => Text.isWord_of_isDigit (Text.isDigit_of_mem_decimal hc)) fun keyword hmem => ?_
  exact not_reads_of_isDigit (hk keyword hmem) hfirst (Text.isDigit_of_mem_decimal hfirst)

theorem free_signedDecimal {keywords : List (List Char)} (hk : ∀ keyword ∈ keywords, IsKeyword keyword) (n : Int) :
    Free keywords (Text.signedDecimal n) := by
  cases n with
  | ofNat m => exact free_decimal hk m
  | negSucc m => exact (free_append_cons rfl [] _).mpr ⟨free_nil hk, free_decimal hk (m + 1)⟩

theorem isPart_decimal (n : Nat) : IsPart (Text.decimal n) where
  tight := Tight.of_not_blank
    (fun _ hc => Text.not_isBlank_of_isWord (Text.isWord_of_isDigit (Text.isDigit_of_mem_decimal hc)))
    (Text.decimal_ne_nil n)
  free := free_decimal isKeyword_of_reservedWords n

theorem isPart_signedDecimal (n : Int) : IsPart (Text.signedDecimal n) := by
  cases n with
  | ofNat m => exact isPart_decimal m
  | negSucc m => exact IsPart.cons rfl rfl (isPart_decimal (m + 1))

theorem isPart_literalText {v : Value} (h : IsLiteral v) : IsPart (literalText v) := by
  cases v with
  | bool b => cases b <;> exact IsPart.of_isWord (by decide) (by decide) (by decide)
  | int n => exact isPart_signedDecimal n
  | text s => exact IsPart.quoted h.1
  | _ => exact absurd h id

/-! ## Columns and conditions -/

theorem isPart_aggregate {f : Aggregate} (h : f ∈ [Aggregate.length, .count, .sum]) : IsPart f.text.toList := by
  cases f with
  | unknown name => simp at h
  | _ => exact IsPart.of_isWord (by decide) (by decide) (by decide)

theorem isPart_columnText {c : Column} (h : c.IsWritable) : IsPart (columnText c) := by
  have hfield := IsPart.of_isPath h.field
  have has : IsPart ['A', 'S'] := IsPart.of_isWord (by decide) (by decide) (by decide)
  have hcall : ∀ f ∈ c.aggregate, IsPart (f.text.toList ++ '(' :: c.field.toList ++ [')']) := fun f hf =>
    IsPart.concat rfl rfl (IsPart.append_cons rfl rfl (isPart_aggregate (h.aggregate f hf)) hfield)
  have htitle : ∀ a ∈ c.title, IsPart ('A' :: 'S' :: ' ' :: quoted a) := fun a ha =>
    has.space (IsPart.quoted (h.title a ha).1.toIsQuotable)
  unfold columnText
  cases hf : c.aggregate with
  | none =>
    cases ht : c.title with
    | none => rw [List.append_nil]; exact hfield
    | some a => exact hfield.space (htitle a ht)
  | some f =>
    cases ht : c.title with
    | none => rw [List.append_nil]; exact hcall f hf
    | some a => exact (hcall f hf).space (htitle a ht)

theorem isPart_operator {o : Operator} (h : o ∈ Operator.all.map (·.2)) : IsPart o.text.toList := by
  have hmark : ∀ a b : Char, isWord a = false → isBlank a = false → isWord b = false → isBlank b = false →
      IsPart [a, b] := fun a b ha ha' hb hb' => IsPart.cons ha ha' (IsPart.mark hb hb')
  cases o with
  | equal => exact IsPart.mark rfl rfl
  | unequal => exact hmark '!' '=' rfl rfl rfl rfl
  | greater => exact IsPart.mark rfl rfl
  | less => exact IsPart.mark rfl rfl
  | atLeast => exact hmark '>' '=' rfl rfl rfl rfl
  | atMost => exact hmark '<' '=' rfl rfl rfl rfl
  | contains => exact IsPart.of_isWord (by decide) (by decide) (by decide)
  | unknown name => simp [Operator.all] at h

theorem isPart_conditionText {c : Condition} (h : c.IsWritable) : IsPart (conditionText c) := by
  have hright := (isPart_operator h.operator).space (isPart_literalText h.literal)
  have hall := (IsPart.of_isPath h.field).space hright
  simpa [conditionText] using hall

theorem isPart_joinWith (sep : List Char)
    (hsep : ∀ {x y : List Char}, IsPart x → IsPart y → IsPart (x ++ sep ++ y)) :
    ∀ {parts : List (List Char)}, parts ≠ [] → (∀ part ∈ parts, IsPart part) → IsPart (Text.joinWith sep parts)
  | [], hne, _ => absurd rfl hne
  | [part], _, h => h part (List.mem_cons_self ..)
  | part :: next :: parts, _, h => by
    have ih := isPart_joinWith sep hsep (List.cons_ne_nil next parts)
      fun p hp => h p (List.mem_cons_of_mem _ hp)
    exact hsep (h part (List.mem_cons_self ..)) ih

/-! ## Clauses -/

def Clause.keyword : Clause → List Char
  | .source _ => ['F', 'R', 'O', 'M']
  | .filter _ => ['W', 'H', 'E', 'R', 'E']
  | .flatten _ => ['F', 'L', 'A', 'T', 'T', 'E', 'N']
  | .group _ => ['G', 'R', 'O', 'U', 'P']
  | .sort _ => ['S', 'O', 'R', 'T']
  | .limit _ => ['L', 'I', 'M', 'I', 'T']

/-- What stands behind the keyword of a clause and a space. -/
def Clause.body : Clause → List Char
  | .source (.folder path) => quoted path
  | .source (.tag name) => '#' :: name.toList
  | .filter conditions => Text.joinWith " AND ".toList (conditions.map conditionText)
  | .flatten f => f.field.toList ++ ' ' :: (['A', 'S'] ++ ' ' :: f.name.toList)
  | .group field => ['B', 'Y'] ++ ' ' :: field.toList
  | .sort o => o.key.text.toList ++ ' ' :: o.direction.text.toList
  | .limit l => l.text.toList

theorem Clause.text_eq (c : Clause) : c.text = c.keyword ++ ' ' :: c.body := by
  cases c with
  | source s =>
    cases s with
    | folder path => rfl
    | tag name =>
      have hfrom : "FROM #".toList = ['F', 'R', 'O', 'M', ' ', '#'] := rfl
      show "FROM #".toList ++ name.toList = _
      rw [hfrom]
      rfl
  | flatten f =>
    have hflatten : "FLATTEN ".toList = ['F', 'L', 'A', 'T', 'T', 'E', 'N', ' '] := rfl
    have has : " AS ".toList = [' ', 'A', 'S', ' '] := rfl
    show "FLATTEN ".toList ++ f.field.toList ++ " AS ".toList ++ f.name.toList = _
    rw [hflatten, has, List.append_assoc, List.append_assoc]
    rfl
  | _ => rfl

def writtenKeywords : List (List Char) := ["FROM", "WHERE", "FLATTEN", "GROUP", "SORT", "LIMIT"].map String.toList

theorem Clause.keyword_mem (c : Clause) : c.keyword ∈ writtenKeywords := by
  cases c <;> simp [Clause.keyword, writtenKeywords]

theorem isWord_of_writtenKeywords : ∀ word ∈ writtenKeywords, word ≠ [] ∧ ∀ c ∈ word, isWord c = true := by decide

theorem exists_reads_of_writtenKeywords : ∀ word ∈ writtenKeywords, ∃ keyword ∈ clauseKeywords, Reads keyword word := by
  decide

theorem toList_text_count (n : Nat) : (Limit.count n).text.toList = Text.decimal n := Nat.toList_repr

theorem isPart_sortKey {columns : Option (List Column)} {o : RowOrder} (h : o.IsWritable columns) :
    IsPart o.key.text.toList := by
  have hwritable := h.key
  cases hkey : o.key with
  | field path =>
    rw [hkey] at hwritable
    exact IsPart.of_isPath hwritable.1
  | groupSize =>
    have hlength : IsPart ['l', 'e', 'n', 'g', 't', 'h'] := IsPart.of_isWord (by decide) (by decide) (by decide)
    have hrows : IsPart ['r', 'o', 'w', 's'] := IsPart.of_isWord (by decide) (by decide) (by decide)
    have hcall : IsPart (['l', 'e', 'n', 'g', 't', 'h'] ++ '(' :: ['r', 'o', 'w', 's'] ++ [')']) :=
      IsPart.concat rfl rfl (IsPart.append_cons rfl rfl hlength hrows)
    exact hcall

theorem isPart_direction {d : Direction} (h : d ∈ [Direction.ascending, .descending]) : IsPart d.text.toList := by
  cases d with
  | unknown name => simp at h
  | _ => exact IsPart.of_isWord (by decide) (by decide) (by decide)

theorem Clause.isPart_body {columns : Option (List Column)} {c : Clause} (h : c.IsWritable columns) :
    IsPart c.body := by
  have hword : ∀ {cs : List Char}, (∀ d ∈ cs, isWord d = true) → cs ≠ [] →
      (∀ keyword ∈ reservedWords, ¬Reads keyword cs) → IsPart cs := IsPart.of_isWord
  cases c with
  | source s =>
    cases s with
    | folder path => exact IsPart.quoted (show IsTrimmed path from h).toIsQuotable
    | tag name =>
      refine IsPart.cons rfl rfl (IsPart.of_isName (fun c hc => ?_) (show IsName isTagChar name from h))
      simp only [isTagChar, Bool.or_eq_true, beq_iff_eq] at hc
      rcases hc with (hc | rfl) | rfl
      · exact Text.not_isBlank_of_isWord hc
      · rfl
      · rfl
  | filter conditions =>
    -- the words between the pieces are plain, and the pieces are names, paths and literals
    have hand : IsPart ['A', 'N', 'D'] := hword (by decide) (by decide) (by decide)
    refine isPart_joinWith " AND ".toList (fun {x y} hx hy => ?_) (by simpa using h.1) ?_
    · have hall := hx.space (hand.space hy)
      simpa using hall
    · intro part hpart
      obtain ⟨condition, hmem, rfl⟩ := List.mem_map.mp hpart
      exact isPart_conditionText (h.2 condition hmem)
  | flatten f =>
    have has : IsPart ['A', 'S'] := hword (by decide) (by decide) (by decide)
    exact (IsPart.of_isPath h.field).space (has.space (IsPart.of_isName (fun _ => Text.not_isBlank_of_isWord) h.name))
  | group field =>
    have hby : IsPart ['B', 'Y'] := hword (by decide) (by decide) (by decide)
    exact hby.space (IsPart.of_isPath h)
  | sort o => exact (isPart_sortKey h).space (isPart_direction h.direction)
  | limit l =>
    obtain ⟨n, rfl, -⟩ := (show l.IsWritable from h).exists_count
    rw [Clause.body, toList_text_count]
    exact isPart_decimal n

end NoteQuery.Query

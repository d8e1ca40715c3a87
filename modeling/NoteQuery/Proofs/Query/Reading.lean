import NoteQuery.Proofs.Query.Part

/-!
# Reading written clauses

Each recogniser reads back the clause that it is for, whatever follows, and fails on every other
clause, since no keyword is read as another one.
-/

namespace NoteQuery.Query

open NoteQuery.Text (isWord isFieldChar isBlank afterKeyword?)

/-! ## Words and runs at the start of a text -/

theorem afterWord?_of_reads {keyword word : List Char} (h : Reads keyword word) (rest : List Char) :
    afterWord? keyword (word ++ ' ' :: rest) = some rest :=
  afterWord?_eq_some_iff.mpr (afterKeyword?_of_reads h (' ' :: rest))

theorem run?_append {p : Char → Bool} {cs rest : List Char} (hne : cs ≠ []) (hcs : ∀ c ∈ cs, p c = true)
    (hrest : ∀ c ∈ rest.head?, p c = false) : run? p (cs ++ rest) = some (cs, rest) := by
  obtain ⟨c, cs, rfl⟩ := List.exists_cons_of_ne_nil hne
  rw [run?, Text.span_append hcs hrest]

theorem AtBreak.not_of_space {rest : List Char} (h : AtBreak rest) {p : Char → Bool} (hp : p ' ' = false) :
    ∀ c ∈ rest.head?, p c = false := by
  intro c hc
  rw [h c hc]
  exact hp

theorem AtBreak.wordEnds {rest : List Char} (h : AtBreak rest) : wordEnds rest = true := by
  cases rest with
  | nil => rfl
  | cons c rest =>
    rw [h c rfl]
    rfl

section
variable {α : Type} {f : List Char → Option α} {keyword : List Char}

theorem LedBy.eq_none_of_other (hf : LedBy keyword f) (hk : IsKeyword keyword) {c : Clause}
    (h : ¬Reads keyword c.keyword) (rest : List Char) : f (c.text ++ rest) = none := by
  have hword := (isWord_of_writtenKeywords c.keyword c.keyword_mem).2
  have hfree : Free [keyword] c.keyword := free_of_isWord hword (by simpa using h)
  rw [c.text_eq, List.append_assoc]
  exact hf _ (afterWord?_of_free hfree (List.mem_singleton_self _) hk (atBreak_space _))

end

/-! ## Sources -/

theorem folderClause?_ledBy : LedBy "from".toList folderClause? := fun cs h => by rw [folderClause?, h]

theorem tagClause?_ledBy : LedBy "from".toList tagClause? := fun cs h => by rw [tagClause?, h]

def Clause.folder? : Clause → Option Source
  | .source (.folder path) => some (.folder path)
  | _ => none

def Clause.tag? : Clause → Option Source
  | .source (.tag name) => some (.tag name)
  | _ => none

theorem afterWord?_from (body rest : List Char) :
    afterWord? "from".toList (['F', 'R', 'O', 'M'] ++ ' ' :: body ++ rest) = some (body ++ rest) := by
  rw [List.append_assoc]
  exact afterWord?_of_reads (by decide) _

theorem run?_quoted {s : String} (h : '"' ∉ s.toList) (hne : s.toList ≠ []) (rest : List Char) :
    run? (· != '"') (s.toList ++ '"' :: rest) = some (s.toList, '"' :: rest) := by
  refine run?_append hne (fun c hc => ?_) fun c hc => ?_
  · have hcne : c ≠ '"' := fun e => h (e ▸ hc)
    simpa using hcne
  · simp [← Option.mem_some.mp hc]

theorem folderClause?_text {columns : Option (List Column)} {c : Clause} (h : c.IsWritable columns)
    (rest : List Char) : folderClause? (c.text ++ rest) = c.folder? := by
  cases c with
  | source s =>
    rw [Clause.text_eq, Clause.keyword]
    cases s with
    | folder path =>
      have hpath : IsTrimmed path := h
      have hrun := run?_quoted hpath.unquoted hpath.ne_nil rest
      rw [folderClause?, afterWord?_from]
      simp only [Clause.body, quoted, List.cons_append, List.append_assoc, List.nil_append, hrun, hpath.trimmed,
        String.ofList_toList]
      rfl
    | tag name =>
      rw [folderClause?, afterWord?_from]
      rfl
  | _ => exact folderClause?_ledBy.eq_none_of_other (by decide) (by rw [Clause.keyword]; decide) rest

theorem tagClause?_text {columns : Option (List Column)} {c : Clause} (h : c.IsWritable columns)
    {rest : List Char} (hrest : AtBreak rest) : tagClause? (c.text ++ rest) = c.tag? := by
  cases c with
  | source s =>
    rw [Clause.text_eq, Clause.keyword]
    cases s with
    | folder path =>
      rw [tagClause?, afterWord?_from]
      rfl
    | tag name =>
      have hname : IsName isTagChar name := h
      have hrun := run?_append hname.ne_nil hname.chars (hrest.not_of_space rfl)
      rw [tagClause?, afterWord?_from]
      simp only [Clause.body, List.cons_append]
      rw [show (fun c => isWord c || c == '/' || c == '-') = isTagChar from rfl, hrun]
      simp [Clause.tag?]
  | _ => exact tagClause?_ledBy.eq_none_of_other (by decide) (by rw [Clause.keyword]; decide) rest

/-! ## Fields, names, directions and numbers -/

theorem flattenClause?_ledBy : LedBy "flatten".toList flattenClause? := fun cs h => by
  rw [flattenClause?, h, Option.bind_none]

theorem groupClause?_ledBy : LedBy "group".toList groupClause? := fun cs h => by
  rw [groupClause?, h, Option.bind_none, Option.bind_none, Option.map_none]

theorem sortClause?_ledBy : LedBy "sort".toList sortClause? := fun cs h => by
  rw [sortClause?, h, Option.bind_none, Option.map_none]

theorem limitDigits?_ledBy : LedBy "limit".toList limitDigits? := fun cs h => by
  rw [limitDigits?, h, Option.bind_none, Option.map_none]

theorem search_limitClause? (cs : List Char) : search limitClause? cs = (search limitDigits? cs).map Text.digitsValue :=
  searchFrom_map Text.digitsValue none cs

def Clause.flatten? : Clause → Option Flatten
  | .flatten f => some f
  | _ => none

def Clause.group? : Clause → Option String
  | .group field => some field
  | _ => none

def Clause.sort? : Clause → Option RowOrder
  | .sort o => some o
  | _ => none

def Clause.limit? : Clause → Option Limit
  | .limit l => some l
  | _ => none

theorem run?_path {s : String} (h : IsName isFieldChar s) {rest : List Char} (hrest : AtBreak rest) :
    run? isFieldChar (s.toList ++ rest) = some (s.toList, rest) :=
  run?_append h.ne_nil h.chars (hrest.not_of_space rfl)

theorem flattenClause?_text {columns : Option (List Column)} {c : Clause} (h : c.IsWritable columns)
    {rest : List Char} (hrest : AtBreak rest) : flattenClause? (c.text ++ rest) = c.flatten? := by
  cases c with
  | flatten f =>
    have hwords : (Clause.flatten f).text ++ rest = ['F', 'L', 'A', 'T', 'T', 'E', 'N'] ++ ' ' ::
        (f.field.toList ++ ' ' :: (['A', 'S'] ++ ' ' :: (f.name.toList ++ rest))) := by
      simp [Clause.text_eq, Clause.keyword, Clause.body]
    have hfield := run?_path h.field (atBreak_space (['A', 'S'] ++ ' ' :: (f.name.toList ++ rest)))
    have hname := run?_append h.name.ne_nil h.name.chars (hrest.not_of_space isWord_space)
    have has : Reads "as".toList ['A', 'S'] := by decide
    rw [hwords, flattenClause?, afterWord?_of_reads (by decide), Option.bind_some, hfield]
    simp only [afterSpacedWord?, afterWord?_of_reads has, Option.bind_some, hname, Option.map_some,
      String.ofList_toList]
    rfl
  | _ => exact flattenClause?_ledBy.eq_none_of_other (by decide) (by rw [Clause.keyword]; decide) rest

theorem groupClause?_text {columns : Option (List Column)} {c : Clause} (h : c.IsWritable columns)
    {rest : List Char} (hrest : AtBreak rest) : groupClause? (c.text ++ rest) = c.group? := by
  cases c with
  | group field =>
    have hfield : IsName isFieldChar field := h
    have hwords : (Clause.group field).text ++ rest =
        ['G', 'R', 'O', 'U', 'P'] ++ ' ' :: (['B', 'Y'] ++ ' ' :: (field.toList ++ rest)) := by
      simp [Clause.text_eq, Clause.keyword, Clause.body]
    rw [hwords, groupClause?, afterWord?_of_reads (by decide), Option.bind_some, afterWord?_of_reads (by decide),
      Option.bind_some, run?_path hfield hrest, Option.map_some]
    exact congrArg some String.ofList_toList
  | _ => exact groupClause?_ledBy.eq_none_of_other (by decide) (by rw [Clause.keyword]; decide) rest

theorem direction_text {d : Direction} (h : d ∈ [Direction.ascending, .descending]) {rest : List Char}
    (hrest : AtBreak rest) : direction (' ' :: d.text.toList ++ rest) = d := by
  cases d with
  | unknown name => simp at h
  | ascending => rfl
  | descending =>
    have hread : afterKeyword? "desc".toList (['D', 'E', 'S', 'C'] ++ rest) = some rest :=
      afterKeyword?_of_reads (by decide) rest
    have htext : Direction.descending.text.toList = ['D', 'E', 'S', 'C'] := rfl
    rw [htext]
    simp only [direction, List.cons_append] at hread ⊢
    rw [hread]
    simp [hrest.wordEnds]

theorem isSortChar_of_mem_text {columns : Option (List Column)} {o : RowOrder} (h : o.IsWritable columns) :
    ∀ c ∈ o.key.text.toList, isSortChar c = true := by
  have hwritable := h.key
  cases hkey : o.key with
  | field path =>
    rw [hkey] at hwritable
    intro c hc
    simp [isSortChar, hwritable.1.chars c hc]
  | groupSize => decide

theorem sortClause?_text {columns : Option (List Column)} {c : Clause} (h : c.IsWritable columns)
    {rest : List Char} (hrest : AtBreak rest) :
    sortClause? (c.text ++ rest) = c.sort?.map fun o => (o.key.text.toList, o.direction) := by
  cases c with
  | sort o =>
    have ho : o.IsWritable columns := h
    have hwords : (Clause.sort o).text ++ rest =
        ['S', 'O', 'R', 'T'] ++ ' ' :: (o.key.text.toList ++ (' ' :: o.direction.text.toList ++ rest)) := by
      simp [Clause.text_eq, Clause.keyword, Clause.body]
    have hbreak : AtBreak (' ' :: o.direction.text.toList ++ rest) := atBreak_space _
    have hrun := run?_append (isPart_sortKey ho).tight.ne_nil (isSortChar_of_mem_text ho)
      (hbreak.not_of_space (p := isSortChar) rfl)
    rw [hwords, sortClause?, afterWord?_of_reads (by decide), Option.bind_some, hrun, Option.map_some]
    show some (_, direction (' ' :: o.direction.text.toList ++ rest)) = _
    rw [direction_text ho.direction hrest]
    rfl
  | _ => exact sortClause?_ledBy.eq_none_of_other (by decide) (by rw [Clause.keyword]; decide) rest

theorem limitDigits?_text {columns : Option (List Column)} {c : Clause} (h : c.IsWritable columns)
    {rest : List Char} (hrest : AtBreak rest) :
    limitDigits? (c.text ++ rest) = c.limit?.map (·.text.toList) := by
  cases c with
  | limit l =>
    obtain ⟨n, rfl, -⟩ := (show l.IsWritable from h).exists_count
    have hrun := run?_append (Text.decimal_ne_nil n)
      (fun c hc => Text.isDecimalDigit_of_isDigit (Text.isDigit_of_mem_decimal hc))
      (hrest.not_of_space (p := Text.isDecimalDigit) rfl)
    have hwords : (Clause.limit (.count n)).text ++ rest =
        ['L', 'I', 'M', 'I', 'T'] ++ ' ' :: (Text.decimal n ++ rest) := by
      rw [Clause.text_eq, Clause.keyword, Clause.body, toList_text_count]
      simp
    rw [hwords, limitDigits?, afterWord?_of_reads (by decide), Option.bind_some, hrun, Option.map_some]
    exact congrArg some (toList_text_count n).symm
  | _ => exact limitDigits?_ledBy.eq_none_of_other (by decide) (by rw [Clause.keyword]; decide) rest

/-- A sort key is read back from its text, since no field holds a bracket. -/
theorem sortKey_text {columns : Option (List Column)} {o : RowOrder} (h : o.IsWritable columns) :
    sortKey columns o.key.text.toList = o.key := by
  have hwritable := h.key
  cases hkey : o.key with
  | groupSize =>
    have hcall : Text.lower (SortKey.text .groupSize).toList = groupSizeCall := by decide
    simp [sortKey, hcall]
  | field path =>
    rw [hkey] at hwritable
    obtain ⟨hname, halias⟩ := hwritable
    have hcall : Text.lower path.toList ≠ groupSizeCall := by
      intro e
      -- lower-casing makes no bracket, so there would be one in the field
      have hin : '(' ∈ Text.lower path.toList := by
        rw [e]
        decide
      have hfield := hname.chars '(' (Text.mem_of_mem_lowerAfter (by decide) (by decide) hin)
      cases hfield
    have hother : (columns.getD []).any (fun c => c.isGroupSize && path != "" && c.title == some path) = false := by
      refine List.any_eq_false.mpr fun c hc => ?_
      cases hsize : c.isGroupSize with
      | false => simp
      | true => simp [halias c hc hsize]
    simp [sortKey, SortKey.text, hcall, hother]

end NoteQuery.Query

import NoteQuery.Proofs.Query.Keyword
import NoteQuery.Query.Printer

/-!
# Queries that can be written

What the parts of a query have to be so that its text says them: names of the right characters,
quoted texts without double quotes, single spaces only, and nowhere a reserved word. A part that
is written has no blank but single spaces, and its words are free of reserved words too.
-/

namespace NoteQuery

open NoteQuery.Query (Free)

namespace Query

/-- The words that no part of a query may hold: those that end a free clause, and the one that
changes the head of a table. -/
def reservedWords : List (List Char) := "without".toList :: clauseKeywords

def isTagChar (c : Char) : Bool := Text.isWord c || c == '/' || c == '-'

structure IsName (p : Char → Bool) (s : String) : Prop where
  ne_nil : s.toList ≠ []
  chars : ∀ c ∈ s.toList, p c = true
  free : Free reservedWords s.toList

instance (p : Char → Bool) (s : String) : Decidable (IsName p s) :=
  decidable_of_iff (s.toList ≠ [] ∧ (∀ c ∈ s.toList, p c = true) ∧ Free reservedWords s.toList)
    ⟨fun ⟨hne, hchars, hfree⟩ => ⟨hne, hchars, hfree⟩, fun ⟨hne, hchars, hfree⟩ => ⟨hne, hchars, hfree⟩⟩

structure IsQuotable (s : String) : Prop where
  unquoted : '"' ∉ s.toList
  spaced : Text.SingleSpaced s.toList
  free : Free reservedWords s.toList

instance (s : String) : Decidable (IsQuotable s) :=
  decidable_of_iff ('"' ∉ s.toList ∧ Text.SingleSpaced s.toList ∧ Free reservedWords s.toList)
    ⟨fun ⟨hquote, hspaced, hfree⟩ => ⟨hquote, hspaced, hfree⟩,
      fun ⟨hquote, hspaced, hfree⟩ => ⟨hquote, hspaced, hfree⟩⟩

structure IsTrimmed (s : String) : Prop extends IsQuotable s where
  ne_nil : s.toList ≠ []
  trimmed : Text.trim s.toList = s.toList

instance (s : String) : Decidable (IsTrimmed s) :=
  decidable_of_iff (IsQuotable s ∧ s.toList ≠ [] ∧ Text.trim s.toList = s.toList)
    ⟨fun ⟨hquotable, hne, htrim⟩ => ⟨hquotable, hne, htrim⟩, fun h => ⟨h.toIsQuotable, h.ne_nil, h.trimmed⟩⟩

/-- Truth values, integers that floats reach, and texts without quotes of either kind. -/
def IsLiteral : Value → Prop
  | .bool _ => True
  | .int n => n.natAbs < Nat.pow 10 308
  | .text s => IsQuotable s ∧ '\'' ∉ s.toList
  | _ => False

instance : (v : Value) → Decidable (IsLiteral v)
  | .bool _ => .isTrue trivial
  | .int n => inferInstanceAs (Decidable (n.natAbs < Nat.pow 10 308))
  | .text s => inferInstanceAs (Decidable (IsQuotable s ∧ '\'' ∉ s.toList))
  | .missing | .null | .float _ | .list _ | .map _ | .link _ _ | .date _ | .dateTime _ | .bytes _ | .set _ | .loop _ =>
    .isFalse id

end Query

open Query

structure Column.IsWritable (c : Column) : Prop where
  field : IsName Text.isFieldChar c.field
  aggregate : ∀ f ∈ c.aggregate, f ∈ [Aggregate.length, .count, .sum]
  title : ∀ a ∈ c.title, IsTrimmed a ∧ '\'' ∉ a.toList ∧ ',' ∉ a.toList

instance (c : Column) : Decidable c.IsWritable :=
  decidable_of_iff (IsName Text.isFieldChar c.field ∧ (∀ f ∈ c.aggregate, f ∈ [Aggregate.length, .count, .sum]) ∧
      ∀ a ∈ c.title, IsTrimmed a ∧ '\'' ∉ a.toList ∧ ',' ∉ a.toList)
    ⟨fun ⟨hfield, hcall, htitle⟩ => ⟨hfield, hcall, htitle⟩, fun ⟨hfield, hcall, htitle⟩ => ⟨hfield, hcall, htitle⟩⟩

def Source.IsWritable : Source → Prop
  | .folder path => IsTrimmed path
  | .tag name => IsName isTagChar name

instance : (s : Source) → Decidable s.IsWritable
  | .folder path => inferInstanceAs (Decidable (IsTrimmed path))
  | .tag name => inferInstanceAs (Decidable (IsName isTagChar name))

structure Condition.IsWritable (c : Condition) : Prop where
  field : IsName Text.isFieldChar c.field
  operator : c.operator ∈ Operator.all.map (·.2)
  literal : IsLiteral c.literal

instance (c : Condition) : Decidable c.IsWritable :=
  decidable_of_iff (IsName Text.isFieldChar c.field ∧ c.operator ∈ Operator.all.map (·.2) ∧ IsLiteral c.literal)
    ⟨fun ⟨hfield, hsign, hliteral⟩ => ⟨hfield, hsign, hliteral⟩,
      fun ⟨hfield, hsign, hliteral⟩ => ⟨hfield, hsign, hliteral⟩⟩

structure Flatten.IsWritable (f : Flatten) : Prop where
  field : IsName Text.isFieldChar f.field
  name : IsName Text.isWord f.name

instance (f : Flatten) : Decidable f.IsWritable :=
  decidable_of_iff (IsName Text.isFieldChar f.field ∧ IsName Text.isWord f.name)
    ⟨fun ⟨hfield, hname⟩ => ⟨hfield, hname⟩, fun ⟨hfield, hname⟩ => ⟨hfield, hname⟩⟩

/-- A field is written as what to sort by if no column for the size of groups has its name. -/
def SortKey.IsWritable (columns : Option (List Column)) : SortKey → Prop
  | .field path => IsName Text.isFieldChar path ∧ ∀ c ∈ columns.getD [], c.isGroupSize = true → c.title ≠ some path
  | .groupSize => True

instance (columns : Option (List Column)) : (k : SortKey) → Decidable (k.IsWritable columns)
  | .field path => inferInstanceAs (Decidable (IsName Text.isFieldChar path ∧ _))
  | .groupSize => .isTrue trivial

structure RowOrder.IsWritable (columns : Option (List Column)) (o : RowOrder) : Prop where
  key : o.key.IsWritable columns
  direction : o.direction ∈ [Direction.ascending, .descending]

instance (columns : Option (List Column)) (o : RowOrder) : Decidable (o.IsWritable columns) :=
  decidable_of_iff (o.key.IsWritable columns ∧ o.direction ∈ [Direction.ascending, .descending])
    ⟨fun ⟨hkey, hdirection⟩ => ⟨hkey, hdirection⟩, fun ⟨hkey, hdirection⟩ => ⟨hkey, hdirection⟩⟩

def Limit.IsWritable : Limit → Prop
  | .count n => 0 < n
  | .flag _ => False

instance : (l : Limit) → Decidable l.IsWritable
  | .count n => inferInstanceAs (Decidable (0 < n))
  | .flag _ => .isFalse id

theorem Limit.IsWritable.exists_count {l : Limit} (h : l.IsWritable) : ∃ n : Nat, l = .count n ∧ 0 < n := by
  cases l with
  | count n => exact ⟨n.toNat, by rw [Int.toNat_of_nonneg (Int.le_of_lt h)], Int.lt_toNat.mpr h⟩
  | flag b => exact absurd h id

namespace Query

/-- Whether the text of a query says all of it. -/
structure IsWritable (q : Query) : Prop where
  head : q.kind = .list ∧ q.withoutId = false ∧ q.columns = none ∨
    q.kind = .table ∧ q.columnList ≠ [] ∧ ∀ c ∈ q.columnList, c.IsWritable
  source : ∀ s ∈ q.source, s.IsWritable
  conditions : ∀ c ∈ q.conditions, c.IsWritable
  flatten : ∀ f ∈ q.flatten, f.IsWritable
  groupBy : ∀ field ∈ q.groupBy, IsName Text.isFieldChar field
  sort : ∀ o ∈ q.sort, o.IsWritable q.columns
  limit : ∀ l ∈ q.limit, l.IsWritable

instance (q : Query) : Decidable q.IsWritable :=
  decidable_of_iff ((q.kind = .list ∧ q.withoutId = false ∧ q.columns = none ∨
      q.kind = .table ∧ q.columnList ≠ [] ∧ ∀ c ∈ q.columnList, c.IsWritable) ∧ (∀ s ∈ q.source, s.IsWritable) ∧
      (∀ c ∈ q.conditions, c.IsWritable) ∧ (∀ f ∈ q.flatten, f.IsWritable) ∧
      (∀ field ∈ q.groupBy, IsName Text.isFieldChar field) ∧ (∀ o ∈ q.sort, o.IsWritable q.columns) ∧
      ∀ l ∈ q.limit, l.IsWritable)
    ⟨fun ⟨h1, h2, h3, h4, h5, h6, h7⟩ => ⟨h1, h2, h3, h4, h5, h6, h7⟩,
      fun ⟨h1, h2, h3, h4, h5, h6, h7⟩ => ⟨h1, h2, h3, h4, h5, h6, h7⟩⟩

def Clause.IsWritable (columns : Option (List Column)) : Clause → Prop
  | .source s => s.IsWritable
  | .filter conditions => conditions ≠ [] ∧ ∀ c ∈ conditions, c.IsWritable
  | .flatten f => f.IsWritable
  | .group field => IsName Text.isFieldChar field
  | .sort o => o.IsWritable columns
  | .limit l => l.IsWritable

theorem IsWritable.head_cases {q : Query} (h : q.IsWritable) :
    q.kind = .list ∧ q.withoutId = false ∧ q.columns = none ∨
      q.kind = .table ∧ ∃ columns ≠ [], q.columns = some columns ∧ ∀ c ∈ columns, c.IsWritable := by
  rcases h.head with hlist | ⟨hkind, hne, hall⟩
  · exact Or.inl hlist
  · refine Or.inr ⟨hkind, q.columnList, hne, ?_, hall⟩
    cases hcolumns : q.columns with
    | none => exact absurd (by rw [columnList, hcolumns]; rfl) hne
    | some columns => rw [columnList, hcolumns, Option.getD_some]

theorem IsWritable.of_mem_clauses {q : Query} (h : q.IsWritable) : ∀ c ∈ q.clauses, c.IsWritable q.columns := by
  intro c hc
  simp only [clauses, List.mem_append, Option.mem_toList, Option.map_eq_some_iff] at hc
  rcases hc with ((((⟨s, hs, rfl⟩ | ⟨f, hf, rfl⟩) | hc) | ⟨field, hg, rfl⟩) | ⟨o, ho, rfl⟩) | ⟨l, hl, rfl⟩
  · exact h.source s hs
  · exact h.flatten f hf
  · split at hc
    · cases hc
    · rename_i hne
      rw [List.mem_singleton.mp hc]
      exact ⟨by simpa using hne, h.conditions⟩
  · exact h.groupBy field hg
  · exact h.sort o ho
  · exact h.limit l hl

end Query

end NoteQuery

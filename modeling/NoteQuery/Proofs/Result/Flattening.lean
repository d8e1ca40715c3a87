import NoteQuery.Proofs.Text.Squeeze
import NoteQuery.Result

/-!
# Flattened rows

Flattening puts a row for each item of a field in the place of a record, or one row if the field has
none. A row differs from its record in the bound entry only, so a field path that does not begin with
the bound name reads the same in both, and a condition on it, or a scope, can be tested before the
flattening as well as after it.
-/

namespace NoteQuery

namespace Entries

theorem erase_insert (name : String) (v : Value) : ∀ entries : Entries,
    erase (insert (.text name) v entries) name = erase entries name
  | [] => by simp [insert, erase, isKey]
  | (k, w) :: rest => by
    have ih := erase_insert name v rest
    simp only [erase] at ih
    rw [insert, sameKey_text]
    cases hk : isKey name k with
    | true => simp [erase, hk]
    | false => simp [erase, hk, ih]

theorem erase_erase (entries : Entries) (name : String) : erase (erase entries name) name = erase entries name := by
  simp [erase, List.filter_filter]

end Entries

namespace Value

/-- How many items a value has. A value that is no list counts as one item. -/
def itemCount : Value → ℕ
  | .list items => items.length
  | _ => 1

def flattened : Value → List Value
  | .list (item :: items) => item :: items
  | v => [v]

theorem length_flattened (v : Value) : v.flattened.length = max 1 v.itemCount := by
  cases v with
  | list items =>
    cases items with
    | nil => rfl
    | cons item items => exact (Nat.max_eq_right (Nat.le_add_left 1 items.length)).symm
  | _ => rfl

end Value

namespace Flatten

/-! ## The bound entry -/

def bound (name : String) (value : Value) (entries : Entries) : Entries :=
  match value with
  | .missing => entries.erase name
  | v => entries.insert (.text name) v

theorem bind_eq (name : String) (value : Value) (r : Record) :
    bind name value r = { r with frontMatter := bound name value r.frontMatter } := by
  cases value <;> rfl

theorem bound_of_ne_missing {value : Value} (h : value ≠ .missing) (name : String) (entries : Entries) :
    bound name value entries = entries.insert (.text name) value := by
  cases value <;> first | rfl | exact absurd rfl h

theorem erase_bound (name : String) (value : Value) (entries : Entries) :
    (bound name value entries).erase name = entries.erase name := by
  by_cases h : value = .missing
  · rw [h]
    exact Entries.erase_erase entries name
  · rw [bound_of_ne_missing h, Entries.erase_insert]

theorem get?_bound_self (name : String) (value : Value) (entries : Entries) :
    ((bound name value entries).get? name).getD .missing = value := by
  by_cases h : value = .missing
  · rw [h, bound, Entries.get?_erase_self, Option.getD_none]
  · rw [bound_of_ne_missing h, Entries.get?_insert_self, Option.getD_some]

theorem get?_bound_of_ne {name other : String} (hne : other ≠ name) (value : Value) (entries : Entries) :
    (bound name value entries).get? other = entries.get? other := by
  by_cases h : value = .missing
  · rw [h]
    exact Entries.get?_erase_of_ne entries hne
  · rw [bound_of_ne_missing h, Entries.get?_insert_of_ne hne]

/-! ## What field paths read -/

/-- A field path that an entry does not take part in: the path of a virtual field, or one that begins
with another name. -/
def IsApart (name path : String) : Prop :=
  (Record.VirtualField.ofPath? path).isSome = true ∨ (Text.segments '.' path).head? ≠ some name

instance (name path : String) : Decidable (IsApart name path) :=
  inferInstanceAs (Decidable (_ ∨ _))

theorem ofPath?_eq_none {name : String} (h : '.' ∉ name.toList) : Record.VirtualField.ofPath? name = none := by
  refine List.lookup_eq_none_iff.mpr fun entry hentry => bne_iff_ne.mpr ?_
  have hall : ∀ entry ∈ Record.VirtualField.all, '.' ∈ entry.1.toList := by decide
  rintro rfl
  exact h (hall entry hentry)

theorem segments_eq {name : String} (h : '.' ∉ name.toList) : Text.segments '.' name = [name] := by
  have hcut : Text.cutAt '.' name.toList = [name.toList] := by
    refine Text.cutWhere_of_forall_not _ fun c hc => beq_eq_false_iff_ne.mpr ?_
    rintro rfl
    exact h hc
  rw [Text.segments, hcut, List.map_singleton, String.ofList_toList]

theorem segments_ne_nil (path : String) : Text.segments '.' path ≠ [] :=
  fun h => Text.cutWhere_ne_nil _ _ (List.map_eq_nil_iff.mp h)

theorem walk_map (entries : Entries) (name : String) (names : List String) :
    (Value.map entries).walk (name :: names) = ((entries.get? name).map (·.walk names)).getD .missing := by
  rw [Value.walk]
  cases entries.get? name <;> rfl

theorem resolve_bind_self {name : String} (h : '.' ∉ name.toList) (value : Value) (r : Record) :
    (bind name value r).resolve name = value := by
  have hself := get?_bound_self name value r.frontMatter
  rw [Record.resolve, ofPath?_eq_none h, segments_eq h, bind_eq]
  dsimp only
  rw [walk_map]
  cases hget : (bound name value r.frontMatter).get? name with
  | none =>
    rw [hget] at hself
    exact hself
  | some v =>
    rw [hget] at hself
    exact hself ▸ Value.walk.eq_1 v

theorem resolve_bind_of_isApart {name path : String} (h : IsApart name path) (value : Value) (r : Record) :
    (bind name value r).resolve path = r.resolve path := by
  rw [Record.resolve, Record.resolve, bind_eq]
  cases hfield : Record.VirtualField.ofPath? path with
  | some field => cases field <;> rfl
  | none =>
    dsimp only
    have hhead : (Text.segments '.' path).head? ≠ some name := by
      refine h.resolve_left ?_
      rw [hfield]
      exact Bool.false_ne_true
    cases hsegments : Text.segments '.' path with
    | nil => exact absurd hsegments (segments_ne_nil path)
    | cons first names =>
      have hne : first ≠ name := by
        rintro rfl
        rw [hsegments] at hhead
        exact hhead rfl
      rw [walk_map, walk_map, get?_bound_of_ne hne]

/-! ## Tests of rows -/

theorem matchesRecord_bind {name : String} {c : Condition} (h : IsApart name c.field) (value : Value) (r : Record) :
    c.matchesRecord (bind name value r) = c.matchesRecord r := by
  rw [Condition.matchesRecord, Condition.matchesRecord, resolve_bind_of_isApart h]

theorem admits_bind (name : String) (value : Value) (r : Record) (source : Source) :
    source.admits (bind name value r) = source.admits r := by
  rw [bind_eq]
  cases source <;> rfl

theorem rows_eq (f : Flatten) (r : Record) :
    f.rows r = (r.resolve f.field).flattened.map fun v => bind f.name v r := by
  rw [rows]
  cases r.resolve f.field with
  | list items => cases items <;> rfl
  | _ => rfl

theorem filter_apply {f : Flatten} {p : Record → Bool} (h : ∀ r v, p (bind f.name v r) = p r) (records : List Record) :
    (apply (some f) records).filter p = apply (some f) (records.filter p) := by
  induction records with
  | nil => rfl
  | cons r records ih =>
    change (f.rows r ++ apply (some f) records).filter p = _
    have hrows : ∀ row ∈ f.rows r, p row = p r := by
      intro row hrow
      rw [rows_eq] at hrow
      obtain ⟨v, -, rfl⟩ := List.mem_map.mp hrow
      exact h r v
    rw [List.filter_append, ih, List.filter_cons]
    cases hp : p r with
    | true =>
      rw [List.filter_eq_self.mpr fun row hrow => (hrows row hrow).trans hp]
      rfl
    | false =>
      rw [List.filter_eq_nil_iff.mpr fun row hrow => by rw [hrows row hrow, hp]; exact Bool.false_ne_true]
      rfl

/-! ## Flattening -/

/-- A row that a record has for a value. It has the record's entries but for the bound one, in which the
value is read. -/
structure IsRow (name : String) (r : Record) (value : Value) (row : Record) : Prop where
  same : row = { r with frontMatter := row.frontMatter }
  entries : row.frontMatter.erase name = r.frontMatter.erase name
  value : '.' ∉ name.toList → row.resolve name = value
  apart : ∀ path, IsApart name path → row.resolve path = r.resolve path

theorem isRow_bind (name : String) (value : Value) (r : Record) : IsRow name r value (bind name value r) where
  same := by rw [bind_eq]
  entries := by
    rw [bind_eq]
    exact erase_bound name value r.frontMatter
  value := fun h => resolve_bind_self h value r
  apart := fun _ h => resolve_bind_of_isApart h value r

/-- Flattening gives each record a row for each item of its field, and at least one. -/
theorem flattens (f : Flatten) (records : List Record) :
    (∃ parts, apply (some f) records = parts.flatten ∧ List.Forall₂ (fun r part =>
      part.length = max 1 (r.resolve f.field).itemCount ∧
        List.Forall₂ (IsRow f.name r) (r.resolve f.field).flattened part) records parts) ∧
    (∀ c : Condition, IsApart f.name c.field → (apply (some f) records).filter (c.matchesRecord ·) =
      apply (some f) (records.filter (c.matchesRecord ·))) ∧
    ∀ source, Source.select source (apply (some f) records) = apply (some f) (Source.select source records) := by
  refine ⟨⟨records.map f.rows, (List.flatMap_def).symm ▸ rfl, ?_⟩, fun c h => ?_, fun source => ?_⟩
  · refine List.forall₂_map_right_iff.mpr (List.forall₂_same.mpr fun r _ => ⟨?_, ?_⟩)
    · rw [rows_eq, List.length_map, Value.length_flattened]
    · rw [rows_eq]
      exact List.forall₂_map_right_iff.mpr (List.forall₂_same.mpr fun v _ => isRow_bind f.name v r)
  · exact filter_apply (fun r v => matchesRecord_bind h v r) records
  · cases source with
    | none => rfl
    | some source => exact filter_apply (fun r v => admits_bind f.name v r source) records

/-- The bound name is that of an old entry, and what the paths of virtual fields begin with. -/
def partsAsFile : Flatten := ⟨"parts", "file"⟩

def partsRecord : Record :=
  ⟨"a.md", "a", "", [], [], [(.text "file", .text "old"), (.text "parts", .seq [.text "x", .null])], false⟩

def onFileName : Condition := ⟨"file.name", .equal, .text "A"⟩

theorem flattens_partsAsFile : '.' ∉ "file".toList ∧ IsApart "file" onFileName.field ∧ ∃ first second,
    apply (some partsAsFile) [partsRecord] = [first, second] ∧
    first.resolve "file" = .text "x" ∧ second.resolve "file" = .null ∧
    [first, second].filter (onFileName.matchesRecord ·) =
      apply (some partsAsFile) ([partsRecord].filter (onFileName.matchesRecord ·)) := by
  obtain ⟨⟨parts, happly, hparts⟩, hcondition, -⟩ := flattens partsAsFile [partsRecord]
  obtain ⟨part, rest, ⟨-, hrows⟩, hrest, rfl⟩ := List.forall₂_cons_left_iff.mp hparts
  obtain rfl := List.forall₂_nil_left_iff.mp hrest
  have hvalues : (partsRecord.resolve partsAsFile.field).flattened = [.text "x", .null] := rfl
  rw [hvalues] at hrows
  obtain ⟨first, others, hfirst, hothers, rfl⟩ := List.forall₂_cons_left_iff.mp hrows
  obtain ⟨second, last, hsecond, hlast, rfl⟩ := List.forall₂_cons_left_iff.mp hothers
  obtain rfl := List.forall₂_nil_left_iff.mp hlast
  have hname : '.' ∉ partsAsFile.name.toList := by decide
  have hapart : IsApart partsAsFile.name onFileName.field := by decide
  have hfilter := hcondition onFileName hapart
  rw [happly] at hfilter
  exact ⟨hname, hapart, first, second, happly, hfirst.value hname, hsecond.value hname, hfilter⟩

end Flatten

end NoteQuery

import NoteQuery.Proofs.Text.Segment
import NoteQuery.Scope

/-!
# Scopes by segments

A scope is compared with a folder or a tag as a text, but what counts is their segments between slashes: a
record is in scope if the segments of the scope begin those of its folder or of one of its tags. So a scope
that goes on behind a slash keeps fewer records.
-/

namespace NoteQuery.Source

def Begins (scope name : List Char) : Prop := scope.splitOn '/' <+: name.splitOn '/'

instance (scope name : List Char) : Decidable (Begins scope name) :=
  inferInstanceAs (Decidable (scope.splitOn '/' <+: name.splitOn '/'))

theorem begins_iff (scope name : List Char) : Begins scope name ↔ Text.cutAt '/' scope <+: Text.cutAt '/' name := by
  unfold Begins Text.cutAt
  rw [Text.cutWhere_eq_splitOnP, Text.cutWhere_eq_splitOnP]
  rfl

theorem isWithin_iff (scope name : List Char) : isWithin scope name = true ↔ Begins scope name := by
  rw [begins_iff, Text.cutAt_prefix_iff, isWithin, Bool.or_eq_true, beq_iff_eq, Text.startsWith_iff]

theorem Begins.trans {scope inner name : List Char} (h : Begins scope inner) (hinner : Begins inner name) :
    Begins scope name :=
  List.IsPrefix.trans h hinner

theorem eq_nil_of_begins_nil {scope : List Char} (h : Begins scope []) : scope = [] := by
  rw [begins_iff, Text.cutAt_prefix_iff] at h
  rcases h with h | h
  · exact h.symm
  · simp at h

/-! ## Records in scope -/

theorem admits_folder_iff (r : Record) (path : String) : admits r (.folder path) = true ↔
    Text.stripAll '/' path.toList = [] ∨ Begins (Text.stripAll '/' path.toList) (recordFolder r) := by
  simp only [admits, Bool.or_eq_true, List.isEmpty_iff, isWithin_iff]

theorem admits_tag_iff (r : Record) (name : String) :
    admits r (.tag name) = true ↔ ∃ tag ∈ r.tags, Begins (bareTag name) (bareTag tag) := by
  simp only [admits, List.any_eq_true, isWithin_iff]

theorem select_folder (path : String) (records : List Record) : select (some (.folder path)) records =
    if Text.stripAll '/' path.toList = [] then records
    else records.filter fun r => Begins (Text.stripAll '/' path.toList) (recordFolder r) := by
  by_cases hroot : Text.stripAll '/' path.toList = []
  · rw [if_pos hroot]
    apply List.filter_eq_self.mpr
    intro r _
    exact (admits_folder_iff r path).mpr (Or.inl hroot)
  · rw [if_neg hroot]
    apply List.filter_congr
    intro r _
    rw [Bool.eq_iff_iff, admits_folder_iff, or_iff_right hroot, decide_eq_true_iff]

theorem select_tag (name : String) (records : List Record) : select (some (.tag name)) records =
    records.filter fun r => ∃ tag ∈ r.tags, Begins (bareTag name) (bareTag tag) := by
  apply List.filter_congr
  intro r _
  rw [Bool.eq_iff_iff, admits_tag_iff, decide_eq_true_iff]

/-! ## Narrower scopes -/

theorem toList_append_slash (s t : String) : (s ++ "/" ++ t).toList = s.toList ++ '/' :: t.toList := by
  rw [String.toList_append, String.toList_append, List.append_assoc]
  rfl

theorem bareTag_append (name rest : String) : bareTag (name ++ "/" ++ rest) = bareTag name ++ '/' :: rest.toList := by
  unfold bareTag
  rw [toList_append_slash]
  cases name.toList with
  | nil => rfl
  | cons c cs =>
    rw [List.cons_append, Text.dropOne, Text.dropOne]
    split <;> rfl

theorem begins_append (scope rest : List Char) : Begins scope (scope ++ '/' :: rest) := by
  rw [begins_iff, Text.cutAt_prefix_iff]
  right
  exact ⟨rest, List.append_assoc ..⟩

theorem admits_folder_of_append {r : Record} {path rest : String}
    (h : admits r (.folder (path ++ "/" ++ rest)) = true) : admits r (.folder path) = true := by
  rw [admits_folder_iff] at h ⊢
  rw [toList_append_slash] at h
  by_cases hroot : Text.stripAll '/' path.toList = []
  · exact Or.inl hroot
  · have hbegins := (begins_iff _ _).mpr (Text.stripAll_append hroot rest.toList)
    rcases h with h | h
    · rw [h] at hbegins
      exact Or.inl (eq_nil_of_begins_nil hbegins)
    · exact Or.inr (hbegins.trans h)

theorem admits_tag_of_append {r : Record} {name rest : String}
    (h : admits r (.tag (name ++ "/" ++ rest)) = true) : admits r (.tag name) = true := by
  rw [admits_tag_iff] at h ⊢
  obtain ⟨tag, htag, h⟩ := h
  rw [bareTag_append] at h
  exact ⟨tag, htag, (begins_append _ _).trans h⟩

theorem select_sublist {wide narrow : Source}
    (h : ∀ r : Record, narrow.admits r = true → wide.admits r = true) (records : List Record) :
    (select (some narrow) records).Sublist (select (some wide) records) :=
  List.monotone_filter_right records h

/-- Scopes are told by segments. -/
theorem select_by_segments (records : List Record) :
    (∀ path, select (some (.folder path)) records =
      if Text.stripAll '/' path.toList = [] then records
      else records.filter fun r => Begins (Text.stripAll '/' path.toList) (recordFolder r)) ∧
    (∀ name, select (some (.tag name)) records =
      records.filter fun r => ∃ tag ∈ r.tags, Begins (bareTag name) (bareTag tag)) ∧
    ∀ scope rest,
      (select (some (.folder (scope ++ "/" ++ rest))) records).Sublist (select (some (.folder scope)) records) ∧
      (select (some (.tag (scope ++ "/" ++ rest))) records).Sublist (select (some (.tag scope)) records) := by
  refine ⟨fun path => select_folder path records, fun name => select_tag name records, ?_⟩
  intro scope rest
  constructor
  · apply select_sublist
    intro r
    exact admits_folder_of_append
  · apply select_sublist
    intro r
    exact admits_tag_of_append

end NoteQuery.Source

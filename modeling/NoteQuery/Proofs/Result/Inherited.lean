import NoteQuery.Proofs.Result.Flattening
import NoteQuery.Proofs.Value.Native

/-!
# Inherited properties

What a query reads of a record is a part of its front matter or a virtual field. So a property that passes
from lists and maps to what is in them holds of all that is read, if it holds of the record.
-/

namespace NoteQuery

structure Value.Inherited (P : Value → Prop) : Prop where
  missing : P .missing
  text : ∀ s, P (.text s)
  list : ∀ {t : Bool} {items : List Value}, P (@Value.list t items) ↔ ∀ v ∈ items, P v
  entry : ∀ {entries : Entries} {key v : Value}, P (.map entries) → (key, v) ∈ entries → P v

structure Record.Inherits (P : Value → Prop) (r : Record) : Prop where
  link : P (.link r.path (noteName r.name))
  entry : ∀ {key v : Value}, (key, v) ∈ r.frontMatter → P v

namespace Value

variable {P : Value → Prop}

theorem mem_of_get? {entries : Entries} {name : String} {v : Value} (h : entries.get? name = some v) :
    ∃ key, (key, v) ∈ entries := by
  obtain ⟨⟨key, value⟩, hfind, rfl⟩ := Option.map_eq_some_iff.mp h
  exact ⟨key, List.mem_of_find?_eq_some hfind⟩

theorem Inherited.walk (hP : Inherited P) {names : List String} {v : Value} (h : P v) : P (v.walk names) := by
  induction names generalizing v with
  | nil =>
    unfold Value.walk
    exact h
  | cons name names ih =>
    cases v with
    | map entries =>
      rw [Flatten.walk_map]
      cases hget : Entries.get? entries name with
      | none => exact hP.missing
      | some w =>
        obtain ⟨key, hmem⟩ := mem_of_get? hget
        exact ih (hP.entry h hmem)
    | _ => exact hP.missing

theorem Inherited.flattened (hP : Inherited P) {v : Value} (h : P v) : ∀ w ∈ v.flattened, P w := by
  intro w hw
  unfold Value.flattened at hw
  split at hw
  · exact hP.list.mp h w hw
  · rw [List.mem_singleton.mp hw]
    exact h

end Value

namespace Record.Inherits

variable {P : Value → Prop} (hP : Value.Inherited P) {r : Record} (h : r.Inherits P)
include hP h

theorem resolve (field : String) : P (r.resolve field) := by
  unfold Record.resolve
  split
  · rename_i virtual _
    cases virtual with
    | link => exact h.link
    | tags => exact hP.list.mpr (by simp [hP.text])
    | outlinks => exact hP.list.mpr (by simp [hP.text])
    | inlinks => exact hP.list.mpr (by simp)
    | _ => exact hP.text _
  · cases hnames : Text.segments '.' field with
    | nil => exact absurd hnames (Flatten.segments_ne_nil field)
    | cons name names =>
      rw [Flatten.walk_map]
      cases hget : r.frontMatter.get? name with
      | none => exact hP.missing
      | some v =>
        obtain ⟨key, hmem⟩ := Value.mem_of_get? hget
        exact hP.walk (h.entry hmem)

omit hP in
theorem bind (name : String) {v : Value} (hv : P v) : (Flatten.bind name v r).Inherits P := by
  rw [Flatten.bind_eq]
  refine ⟨h.link, fun {key w} hentry => ?_⟩
  by_cases hmissing : v = .missing
  · rw [hmissing] at hentry
    exact h.entry (List.mem_filter.mp hentry).1
  · rw [Flatten.bound_of_ne_missing hmissing] at hentry
    rcases (Entries.mem_insert hentry).2 with hnew | ⟨old, hold, heq⟩
    · obtain rfl : w = v := hnew
      exact hv
    · obtain rfl : old.2 = w := heq
      exact h.entry hold

end Record.Inherits

namespace Query

variable {P : Value → Prop} {records : List Record}

/-- The rows that the conditions are tried on. -/
def scanned (q : Query) (records : List Record) : List Record :=
  Flatten.apply q.flatten (Source.select q.source records)

theorem candidates_subset (q : Query) (records : List Record) : q.candidates records ⊆ q.scanned records := by
  have hfilter : ∀ (conditions : List Condition) (rows : List Record),
      conditions.foldl (fun rows c => rows.filter (c.matchesRecord ·)) rows ⊆ rows := by
    intro conditions
    induction conditions with
    | nil => exact fun rows => List.Subset.refl rows
    | cons c conditions ih => exact fun rows => List.Subset.trans (ih _) (List.filter_subset_self rows)
  exact hfilter q.conditions _

theorem select_subset (source : Option Source) (records : List Record) : Source.select source records ⊆ records := by
  unfold Source.select
  split
  · exact List.Subset.refl records
  · exact List.filter_subset_self records

theorem of_mem_scanned {q : Query} {r : Record} (hr : r ∈ q.scanned records) :
    r ∈ records ∨ ∃ before ∈ records, ∃ f : Flatten, ∃ v ∈ (before.resolve f.field).flattened,
      Flatten.bind f.name v before = r := by
  unfold scanned Flatten.apply at hr
  split at hr
  · exact Or.inl (select_subset q.source records hr)
  · rename_i f _
    obtain ⟨before, hbefore, hrow⟩ := List.mem_flatMap.mp hr
    rw [Flatten.rows_eq] at hrow
    obtain ⟨v, hv, heq⟩ := List.mem_map.mp hrow
    exact Or.inr ⟨before, select_subset q.source records hbefore, f, v, hv, heq⟩

theorem inherits_scanned (hP : Value.Inherited P) (q : Query) (h : ∀ r ∈ records, r.Inherits P) :
    ∀ r ∈ q.scanned records, r.Inherits P := by
  intro r hr
  rcases of_mem_scanned hr with hrecord | ⟨before, hbefore, f, v, hv, rfl⟩
  · exact h r hrecord
  · have hwhole := (h before hbefore).resolve hP f.field
    exact (h before hbefore).bind f.name (hP.flattened hwhole v hv)

theorem inherits_candidates (hP : Value.Inherited P) (q : Query) (h : ∀ r ∈ records, r.Inherits P) :
    ∀ r ∈ q.candidates records, r.Inherits P :=
  fun r hr => inherits_scanned hP q h r (candidates_subset q records hr)

theorem exists_path_of_candidates {q : Query} {r : Record} (hr : r ∈ q.candidates records) :
    ∃ before ∈ records, before.path = r.path := by
  rcases of_mem_scanned (candidates_subset q records hr) with hrecord | ⟨before, hbefore, f, v, -, rfl⟩
  · exact ⟨r, hrecord, rfl⟩
  · exact ⟨before, hbefore, by rw [Flatten.bind_eq]⟩

end Query

end NoteQuery

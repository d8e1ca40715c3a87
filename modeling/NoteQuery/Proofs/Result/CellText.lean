import NoteQuery.Cell
import NoteQuery.Proofs.Fallible
import NoteQuery.Proofs.Result.Inherited
import NoteQuery.Proofs.Text.Lines
import NoteQuery.Proofs.Value.Native

/-!
# Texts of cells

The text of a cell stands on one line whatever a note holds, as long as no note and no link has a line feed
in its name: links are shown by their names as they are.
-/

namespace NoteQuery

/-! ## Links in values -/

/-- Values in which a link of this name can be come upon, as an item or an entry at any depth. -/
inductive HoldsLink (name : String) : Value → Prop
  | link (path : String) : HoldsLink name (.link path name)
  | item {t : Bool} {items : List Value} {item : Value} :
    item ∈ items → HoldsLink name item → HoldsLink name (@Value.list t items)
  | entry {entries : Entries} {key v : Value} : (key, v) ∈ entries → HoldsLink name v → HoldsLink name (.map entries)

def Value.Unbroken (v : Value) : Prop := ∀ name, HoldsLink name v → '\n' ∉ name.toList

namespace Value

theorem Unbroken.item {t : Bool} {items : List Value} (h : (@Value.list t items).Unbroken)
    {v : Value} (hv : v ∈ items) : v.Unbroken :=
  fun name hlink => h name (.item hv hlink)

theorem unbroken_list {t : Bool} {items : List Value} (h : ∀ v ∈ items, v.Unbroken) : (@Value.list t items).Unbroken := by
  intro name hlink
  cases hlink with
  | item hmem hlink => exact h _ hmem name hlink

theorem unbroken_text (s : String) : (Value.text s).Unbroken := fun _ hlink => nomatch hlink

theorem unbroken_int (n : Int) : (Value.int n).Unbroken := fun _ hlink => nomatch hlink

theorem unbroken_missing : Value.missing.Unbroken := fun _ hlink => nomatch hlink

theorem unbroken_map {entries : Entries} : (Value.map entries).Unbroken ↔ ∀ entry ∈ entries, entry.2.Unbroken := by
  constructor
  · intro h entry hentry name hlink
    exact h name (.entry hentry hlink)
  · intro h name hlink
    cases hlink with
    | entry hmem hlink => exact h _ hmem name hlink

theorem inherited_unbroken : Inherited Unbroken where
  missing := unbroken_missing
  text := unbroken_text
  list := ⟨fun h _ hv => h.item hv, unbroken_list⟩
  entry := fun h hentry => unbroken_map.mp h _ hentry

end Value

/-! ## Records -/

structure Record.Unbroken (r : Record) : Prop where
  path : '\n' ∉ r.path.toList
  name : '\n' ∉ r.name.toList
  frontMatter : (Value.map r.frontMatter).Unbroken

theorem dropTail_subset (tail cs : List Char) : Text.dropTail tail cs ⊆ cs := by
  unfold Text.dropTail
  split
  · rename_i rest hafter
    intro c hc
    rw [Text.after?_eq_some_iff] at hafter
    rw [← List.mem_reverse, hafter]
    exact List.mem_append_right _ (List.mem_reverse.mp hc)
  · exact List.Subset.refl cs

theorem Record.Unbroken.inherits {r : Record} (h : r.Unbroken) : r.Inherits Value.Unbroken where
  link := by
    intro name hlink
    cases hlink with
    | link path =>
      intro hmem
      unfold noteName at hmem
      rw [String.toList_ofList] at hmem
      exact h.name (dropTail_subset _ _ hmem)
  entry := fun hentry => Value.unbroken_map.mp h.frontMatter _ hentry

/-! ## Cells -/

namespace Cell

theorem unbroken_sumValue {n : Number} {v : Value} (h : sumValue n = .ok v) : v.Unbroken := by
  cases n with
  | int n =>
    rw [sumValue] at h
    split at h
    · obtain rfl := Except.ok.inj h
      exact Value.unbroken_int n
    · cases h
  | float x =>
    obtain rfl := Except.ok.inj h
    split
    · exact Value.unbroken_int _
    · exact fun _ hlink => nomatch hlink

theorem unbroken_sum {values : List Value} {v : Value} (h : sum values = .ok v) : v.Unbroken := by
  unfold sum at h
  split at h
  · obtain rfl := Except.ok.inj h
    exact Value.unbroken_missing
  · split at h
    · exact unbroken_sumValue h
    · cases h

section
variable {c : Column}

theorem eq_of_shown {v w : Value} (h : shown v = .ok w) : v = w := by
  unfold shown at h
  split at h
  · cases h
  · exact Except.ok.inj h

theorem unbroken_ofEntry {e : Entry} (he : (e.resolve c.field).Unbroken) {v : Value} (h : ofEntry c e = .ok v) :
    v.Unbroken := by
  unfold ofEntry at h
  split at h
  · obtain rfl := Except.ok.inj h
    exact he
  · obtain rfl := Except.ok.inj h
    unfold lengthOf
    split
    · exact Value.unbroken_int _
    · exact Value.unbroken_int _
    · exact Value.unbroken_missing
  · obtain rfl := Except.ok.inj h
    exact Value.unbroken_int _
  · exact unbroken_sum h
  · obtain rfl := Except.ok.inj h
    exact Value.unbroken_missing

theorem unbroken_ofGroup {g : Group} {groupBy : Option String} (hg : ∀ e ∈ g.rows, (e.resolve c.field).Unbroken) {v : Value}
    (h : ofGroup c groupBy g = .ok v) : v.Unbroken := by
  unfold ofGroup at h
  dsimp only at h
  split at h
  · obtain rfl := Except.ok.inj h
    split
    · cases g.key with
      | none => exact Value.unbroken_missing
      | some key => exact Value.unbroken_text key
    · apply Value.unbroken_list
      simpa using hg
  · obtain rfl := Except.ok.inj h
    exact Value.unbroken_int _
  · obtain rfl := Except.ok.inj h
    exact Value.unbroken_int _
  · exact unbroken_sum h
  · obtain rfl := Except.ok.inj h
    exact Value.unbroken_missing

end

theorem break_not_mem_map (cs : List Char) : '\n' ∉ cs.map fun c => if c == '\n' then ' ' else c := by
  intro h
  obtain ⟨c, -, hc⟩ := List.mem_map.mp h
  split at hc
  · cases hc
  · rename_i hne
    exact hne (beq_iff_eq.mpr hc)

mutual

theorem break_not_mem_text : ∀ {v : Value}, v.Unbroken → '\n' ∉ (text v).toList
  | .list items, h => by
    have hitems : ∀ s ∈ itemTexts items, '\n' ∉ s.toList := break_not_mem_itemTexts fun v hv => h.item hv
    unfold text
    rw [String.toList_intercalate, ← Text.joinWith_eq_intercalate]
    intro hmem
    rcases Text.mem_joinWith hmem with hcomma | ⟨piece, hpiece, hmem⟩
    · exact absurd hcomma (by decide)
    · obtain ⟨s, hs, rfl⟩ := List.mem_map.mp hpiece
      exact hitems s hs hmem
  | .link path name, h => by
    unfold text
    exact h name (.link path)
  | .missing, _ => by
    unfold text
    decide
  | .null, _ => by
    unfold text
    decide
  | .bool _, _ | .int _, _ | .float _, _ | .text _, _ | .map _, _ | .date _, _ | .dateTime _, _ | .bytes _, _ | .set _, _
  | .loop _, _ => by
    unfold text
    rw [String.toList_ofList]
    exact break_not_mem_map _

theorem break_not_mem_itemTexts : ∀ {items : List Value}, (∀ v ∈ items, v.Unbroken) →
    ∀ s ∈ itemTexts items, '\n' ∉ s.toList
  | [], _, _, hs => by
    unfold itemTexts at hs
    cases hs
  | item :: items, h, s, hs => by
    obtain ⟨hitem, hitems⟩ := List.forall_mem_cons.mp h
    unfold itemTexts at hs
    rcases List.mem_cons.mp hs with rfl | hs
    · exact break_not_mem_text hitem
    · exact break_not_mem_itemTexts hitems s hs

end

end Cell

end NoteQuery

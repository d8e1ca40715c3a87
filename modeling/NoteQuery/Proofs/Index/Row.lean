import NoteQuery.Index.Basic
import NoteQuery.Proofs.Json.RoundTrip
import NoteQuery.Proofs.Value.Native

/-!
# Rows that are read back

The texts of a row are read as what was written, so that a row gives back its record, with the front
matter that its document stands for.
-/

namespace NoteQuery

namespace Row

theorem itemsOf?_render {α : Type} (item? : Json → Option α) (doc : α → Json) (h : ∀ a, item? (doc a) = some a)
    (items : List α) : itemsOf? item? (Json.render .line (.list (items.map doc))) = some items := by
  unfold itemsOf?
  rw [Json.read?_render Json.isPlain_line]
  induction items with
  | nil => rfl
  | cons a items ih =>
    simp only [List.map_cons, List.mapM_cons, h] at ih ⊢
    rw [ih]
    rfl

theorem linkOf?_linkDoc (l : WikiLink) : linkOf? (linkDoc l) = some l := by
  obtain ⟨target, display, isEmbed⟩ := l
  cases display <;> rfl

theorem entriesOf?_render (entries : List (String × Json)) : entriesOf? (Json.render .line (.object entries)) =
    some (Entries.ofList (Value.entriesOfJson entries)) := by
  unfold entriesOf?
  rw [Json.read?_render Json.isPlain_line, Option.map_some, Value.ofJson]

theorem record?_ofRecord (r : Record) : (ofRecord r).map record? =
    (Value.storedEntries r.frontMatter).map fun frontMatter => some { r with frontMatter } := by
  unfold ofRecord Value.storedEntries
  rw [Value.toJson]
  cases Value.entriesToJson r.frontMatter with
  | error cause => rfl
  | ok docs =>
    have htags := itemsOf?_render textOf? Json.text (fun _ => rfl) r.tags
    have hlinks := itemsOf?_render linkOf? linkDoc linkOf?_linkDoc r.links
    have hprivate : ((if r.isPrivate then 1 else 0 : ℤ) != 0) = r.isPrivate := by cases r.isPrivate <;> rfl
    simp [Except.map, bind, Except.bind, pure, Except.pure, record?, htags, hlinks, hprivate, entriesOf?_render]

end Row

/-- No row that is written is unreadable. -/
theorem Index.stored_eq (r : Record) : Index.stored r =
    match Value.storedEntries r.frontMatter with
    | .ok frontMatter => .ok { r with frontMatter }
    | .error cause => .error (.undocumented cause) := by
  have hmap : Index.stored r = match (Row.ofRecord r).map Row.record? with
      | .ok (some s) => .ok s
      | .ok none => .error (.unreadable r.path)
      | .error cause => .error (.undocumented cause) := by
    unfold Index.stored
    cases Row.ofRecord r with
    | error cause => rfl
    | ok row => cases hread : row.record? <;> simp [Except.map, hread]
  rw [hmap, Row.record?_ofRecord]
  cases Value.storedEntries r.frontMatter <;> rfl

end NoteQuery

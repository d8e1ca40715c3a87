import NoteQuery.Proofs.Index.Completion
import NoteQuery.Proofs.Value.Native

/-!
# Records that are written and read

A record that is written is read back with other front matter at most. What is read has texts for keys
and nothing that JSON does not know, so that writing it again changes nothing, and front matter that is
of that kind from the start comes back as it was.
-/

namespace NoteQuery

namespace Index

theorem isOpen_of_upsert {x y : Index} {key : VaultKey} {r : Record} (h : x.upsert key r = .ok y) :
    x.isOpen = true := by
  obtain ⟨s, hs, -⟩ := IndexRun.upsert_eq_ok h
  cases hopen : x.isOpen with
  | true => rfl
  | false =>
    have hcheck : x.checkOpen = .error (.closed x.location) := by
      unfold checkOpen
      rw [hopen]
      rfl
    rw [upsert, upsertMany_eq, List.mapM_cons, List.mapM_nil, hs, hcheck] at h
    cases h

theorem get?_put {x : Index} (hopen : x.isOpen = true) (key : VaultKey) (s : Record) :
    get? { x with rows := put key s x.rows } key s.path = .ok (some s) := by
  have hrow := rowAt_put key s x.rows key s.path
  rw [if_pos ⟨rfl, rfl⟩] at hrow
  have hcheck : checkOpen { x with rows := put key s x.rows } = .ok () := if_pos hopen
  unfold get?
  rw [hcheck]
  exact congrArg Except.ok hrow

theorem stored_of_native {r : Record} (hnative : Value.NativeEntries r.frontMatter)
    (hkeyed : Value.KeyedEntries r.frontMatter) (hshort : Value.entriesHaveLong r.frontMatter = false) :
    stored r = .ok r := by
  rw [stored_eq, Value.storedEntries_of_native hnative hkeyed hshort]

/-- A record is read as its projection, which is read as it is. -/
theorem upsert_projects {x y : Index} {key : VaultKey} {r : Record} (h : x.upsert key r = .ok y) :
    ∃ s, y.get? key r.path = .ok (some s) ∧
      s = { r with frontMatter := s.frontMatter } ∧
      Value.NativeEntries s.frontMatter ∧ Value.KeyedEntries s.frontMatter ∧
      (∀ z : Index, z.isOpen = true → ∀ other, ∃ w,
        z.upsert other s = .ok w ∧ w.get? other s.path = .ok (some s)) ∧
      (Value.NativeEntries r.frontMatter → Value.KeyedEntries r.frontMatter → s = r) := by
  have hopen := isOpen_of_upsert h
  obtain ⟨s, hs, rfl⟩ := IndexRun.upsert_eq_ok h
  obtain ⟨frontMatter, hstored, rfl⟩ := stored_eq_ok hs
  obtain ⟨hnative, hkeyed, hshort⟩ := Value.spec_of_storedEntries hstored
  refine ⟨_, get?_put hopen key _, rfl, hnative, hkeyed, ?_, ?_⟩
  · intro z hz other
    have hsame := stored_of_native (r := { r with frontMatter }) hnative hkeyed hshort
    exact ⟨_, IndexRun.upsert_of_stored hz other hsame, get?_put hz other _⟩
  · intro hnativeBefore hkeyedBefore
    rw [Value.eq_of_storedEntries hnativeBefore hkeyedBefore hstored]

/-- Front matter with a date, with keys that are written alike, with NaN and with marks to be escaped. -/
def drawer : Record where
  path := "a.md"
  name := "a"
  sha := "0f"
  tags := ["x \"y\""]
  links := [⟨"b\\c", none, true⟩, ⟨"d", some "é", false⟩]
  frontMatter := [(.text "when", .date ⟨2024, 1, 5⟩),
    (.text "counts", .map [(.int 1, .float Number.nan), (.null, .seq [.text "\\n\n", .float (Float.ofBits 1)]),
      (.text "1", .int (-7))])]
  isPrivate := true

def drawerRead : Entries :=
  [(.text "when", .text "2024-01-05"),
    (.text "counts", .map [(.text "1", .int (-7)), (.text "null", .seq [.text "\\n\n", .float (Float.ofBits 1)])])]

def drawerKey : VaultKey := ⟨"local", "local", "repo", "main"⟩

theorem upsert_projects_drawer : ∃ y z s, (empty "notes.db").upsert drawerKey drawer = .ok y ∧
    y.get? drawerKey "a.md" = .ok (some s) ∧ s.links = drawer.links ∧ s.frontMatter = drawerRead ∧
    Value.NativeEntries s.frontMatter ∧ Value.KeyedEntries s.frontMatter ∧
    (empty "notes.db").upsert drawerKey s = .ok z ∧ z.get? drawerKey "a.md" = .ok (some s) := by
  have hstored : stored drawer = .ok { drawer with frontMatter := drawerRead } := by
    rw [stored_eq]
    rfl
  have hupsert := IndexRun.upsert_of_stored (x := empty "notes.db") rfl drawerKey hstored
  have hget := get?_put (x := empty "notes.db") rfl drawerKey { drawer with frontMatter := drawerRead }
  obtain ⟨s, hread, -, hnative, hkeyed, hagain, -⟩ := upsert_projects hupsert
  obtain rfl := Option.some.inj (Except.ok.inj (hread.symm.trans hget))
  obtain ⟨z, hz, -⟩ := hagain (empty "notes.db") rfl drawerKey
  obtain ⟨s, hsame, -, -, -, -, hkept⟩ := upsert_projects hz
  obtain rfl := hkept hnative hkeyed
  exact ⟨_, z, _, hupsert, hread, rfl, rfl, hnative, hkeyed, hz, hsame⟩

end Index

end NoteQuery

import NoteQuery.Proofs.Index.Projection
import NoteQuery.Proofs.Note.FrontMatter
import NoteQuery.Proofs.Note.Tag

/-!
# Tags that mark a note as private

The marker of a private note is a tag that is written in lower case and stands before a blank or at the end.
So a marked note has the tag, but the tag in capital letters, or before a point or a comma, marks nothing,
and a note with no other marker is shown.
-/

namespace NoteQuery

namespace Note

def privateTag : List Char := ['p', 'r', 'i', 'v', 'a', 't', 'e']

theorem isTag_privateTag : IsTag privateTag := ⟨⟨'p', rfl, rfl⟩, List.all_eq_true.mp rfl⟩

/-! ## The marker -/

theorem atGap_iff {cs : List Char} : atGap cs = true ↔ ∀ c ∈ cs.head?, Text.isBlank c = true := by
  cases cs with
  | nil => simp [atGap]
  | cons c cs => simp [atGap]

theorem atMarker_iff {cs : List Char} :
    atMarker cs = true ↔ ∃ after, cs = '#' :: (privateTag ++ after) ∧ ∀ c ∈ after.head?, Text.isBlank c = true := by
  unfold atMarker
  cases h : Text.after? "#private".toList cs with
  | none =>
    apply iff_of_false
    · simp
    · intro hmarker
      obtain ⟨after, heq, -⟩ := hmarker
      have hsome : Text.after? "#private".toList cs = some after := Text.after?_eq_some_iff.mpr heq
      rw [h] at hsome
      cases hsome
  | some rest =>
    have heq : cs = '#' :: (privateTag ++ rest) := Text.after?_eq_some_iff.mp h
    rw [Option.map_some, Option.getD_some, atGap_iff]
    constructor
    · intro hrest
      exact ⟨rest, heq, hrest⟩
    · intro hmarker
      obtain ⟨after, hafter, hblank⟩ := hmarker
      rw [heq] at hafter
      rw [List.append_cancel_left (List.cons.inj hafter).2]
      exact hblank

theorem hasMarker_iff {gap : Bool} {cs : List Char} :
    hasMarker gap cs = true ↔ BehindGap gap (fun rest => atMarker rest = true) cs := by
  induction cs generalizing gap with
  | nil =>
    rw [behindGap_nil]
    simp [hasMarker, atMarker, Text.after?]
  | cons c cs ih => rw [hasMarker, behindGap_cons, Bool.or_eq_true, Bool.and_eq_true, ih]

def MarkedAt (text before after : List Char) : Prop :=
  WrittenAt text before privateTag after ∧ ∀ c ∈ after.head?, Text.isBlank c = true

theorem hasMarker_true_iff {text : List Char} :
    hasMarker true text = true ↔ ∃ before after, MarkedAt text before after := by
  rw [hasMarker_iff]
  constructor
  · intro h
    obtain ⟨before, rest, heq, hgap, hrest⟩ := h
    obtain ⟨after, hafter, hblank⟩ := atMarker_iff.mp hrest
    rw [hafter] at heq
    refine ⟨before, after, ⟨heq, elim_getLast?_iff.mp hgap, isTag_privateTag, ?_⟩, hblank⟩
    intro c hc
    exact not_isTagChar_of_isBlank (hblank c hc)
  · intro h
    obtain ⟨before, after, hwritten, hblank⟩ := h
    exact ⟨before, _, hwritten.text_eq, elim_getLast?_iff.mpr hwritten.gap, atMarker_iff.mpr ⟨after, rfl, hblank⟩⟩

def SaysPrivate (frontMatter : Entries) : Prop := Entries.get? frontMatter "private" = some (.bool true)

theorem isPrivateContent_iff {frontMatter : Entries} {body : List Char} : isPrivateContent frontMatter body = true ↔
    SaysPrivate frontMatter ∨ ∃ before after, MarkedAt (withoutCode body) before after := by
  unfold isPrivateContent SaysPrivate
  rw [Bool.or_eq_true, hasMarker_true_iff]
  apply or_congr_left
  split
  · rename_i h
    exact iff_of_true rfl h
  · rename_i h
    exact iff_of_false (by simp) h

/-! ## The tag -/

theorem private_mem_inlineTags {body : List Char} : "private" ∈ inlineTags body ↔
    ∃ before tag after, WrittenAt (withoutCode body) before tag after ∧ tag.map Char.toLower = privateTag := by
  rw [mem_inlineTags]
  have hname : ∀ tag : List Char,
      "private" = String.ofList (tag.map Char.toLower) ↔ tag.map Char.toLower = privateTag := by
    intro tag
    rw [← String.toList_inj, String.toList_ofList, String.toList_ofList]
    exact eq_comm
  simp only [hname]

theorem private_mem_of_marked {body before after : List Char} (h : MarkedAt (withoutCode body) before after) :
    "private" ∈ inlineTags body :=
  private_mem_inlineTags.mpr ⟨before, privateTag, after, h.1, by decide⟩

end Note

/-! ## What is shown -/

namespace Index

theorem listPublic_of_upsert {x y : Index} {key : VaultKey} {r : Record} (h : x.upsert key r = .ok y) :
    ∃ shown, y.listPublic key = .ok shown ∧ ((∃ s ∈ shown, s.path = r.path) ↔ r.isPrivate = false) := by
  have hopen := isOpen_of_upsert h
  obtain ⟨s, hs, hy⟩ := IndexRun.upsert_eq_ok h
  obtain ⟨frontMatter, -, hstored⟩ := stored_eq_ok hs
  have hpath : s.path = r.path := by rw [hstored]
  have hprivate : s.isPrivate = r.isPrivate := by rw [hstored]
  -- of the rows at this path only the one just written is left
  have hmem : ∀ t : Record, t.path = r.path → (t ∈ y.recordsOf key ↔ t = s) := by
    intro t ht
    have hat : isAt key s.path (key, t) = true := isAt_iff.mpr ⟨rfl, ht.trans hpath.symm⟩
    rw [mem_recordsOf, hy, put, List.mem_append, List.mem_filter, hat, List.mem_singleton, Prod.mk.injEq]
    simp
  refine ⟨(y.recordsOf key).filter (!·.isPrivate), ?_, ?_⟩
  · rw [hy, listPublic, listAll, checkOpen, if_pos hopen]
    rfl
  · rw [← hprivate]
    constructor
    · intro hshown
      obtain ⟨t, ht, htpath⟩ := hshown
      obtain ⟨ht, hpublic⟩ := List.mem_filter.mp ht
      rw [← (hmem t htpath).mp ht]
      simpa using hpublic
    · intro hpublic
      refine ⟨s, List.mem_filter.mpr ⟨(hmem s hpath).mpr rfl, ?_⟩, hpath⟩
      rw [hpublic]
      rfl

end Index

namespace Note

theorem isPrivate_of_toRecord [Yaml.Loader] {path : String} {content : List UInt8} {text body : List Char}
    {entries : Entries} {r : Record} (htext : Bytes.decodeUtf8 content = .ok text)
    (hread : frontMatter text = .ok (entries, body))
    (h : toRecord path content = .ok r) : r.path = path ∧ r.isPrivate = isPrivateContent entries body := by
  obtain ⟨text', body', htext', hread', hrecord⟩ := exists_of_toRecord h
  rw [htext] at htext'
  rw [← Except.ok.inj htext', hread] at hread'
  obtain ⟨hentries, hbody⟩ := Prod.mk.inj (Except.ok.inj hread')
  rw [hrecord, hentries, hbody]
  exact ⟨rfl, rfl⟩

/-- The tag makes a note private just if the front matter does anyway, or if one place where it is written is a
marker. -/
theorem private_and_tagged_iff [Yaml.Loader] (entries : Entries) (body : List Char) :
    (("private" ∈ inlineTags body → isPrivateContent entries body = true) ↔
      SaysPrivate entries ∨ (∃ before after, MarkedAt (withoutCode body) before after) ∨
        ∀ before tag after, WrittenAt (withoutCode body) before tag after → tag.map Char.toLower ≠ privateTag) ∧
    (¬SaysPrivate entries → isPrivateContent entries body = true → "private" ∈ inlineTags body) ∧
    ∀ path content text r, Bytes.decodeUtf8 content = .ok text → frontMatter text = .ok (entries, body) →
      toRecord path content = .ok r → ∀ (x y : Index) (key : VaultKey), x.upsert key r = .ok y →
        ∃ shown, y.listPublic key = .ok shown ∧ ((∃ s ∈ shown, s.path = path) ↔
          ¬SaysPrivate entries ∧ ∀ before after, ¬MarkedAt (withoutCode body) before after) := by
  refine ⟨?_, ?_, ?_⟩
  · rw [isPrivateContent_iff, private_mem_inlineTags]
    by_cases htagged : ∃ before tag after,
        WrittenAt (withoutCode body) before tag after ∧ tag.map Char.toLower = privateTag
    · have hnot : ¬∀ before tag after,
          WrittenAt (withoutCode body) before tag after → tag.map Char.toLower ≠ privateTag := by
        intro hall
        obtain ⟨before, tag, after, hwritten, hname⟩ := htagged
        exact hall before tag after hwritten hname
      rw [or_iff_left hnot]
      exact forall_prop_of_true htagged
    -- without the tag there is nothing to show
    · apply iff_of_true
      · intro h
        exact absurd h htagged
      · right
        right
        intro before tag after hwritten hname
        exact htagged ⟨before, tag, after, hwritten, hname⟩
  · intro hsays hprivate
    obtain ⟨before, after, h⟩ := (isPrivateContent_iff.mp hprivate).resolve_left hsays
    exact private_mem_of_marked h
  · intro path content text r htext hread hr x y key h
    obtain ⟨hpath, hprivate⟩ := isPrivate_of_toRecord htext hread hr
    obtain ⟨shown, hshown, hiff⟩ := Index.listPublic_of_upsert h
    refine ⟨shown, hshown, ?_⟩
    rw [hpath, hprivate, ← Bool.not_eq_true, isPrivateContent_iff] at hiff
    simp only [not_or, not_exists] at hiff
    exact hiff

/-- The tag in capital letters, and the marker in code. -/
def shoutedText : List Char := "Deal #Private, `#private`\n".toList

def shoutedNote : List UInt8 := Bytes.encodeUtf8 shoutedText

def shoutedRecord : Record := recordOf "a.md" shoutedNote shoutedText shoutedText []

theorem private_and_tagged_shouted : ∃ y shown, toRecord "a.md" shoutedNote = .ok shoutedRecord ∧
    "private" ∈ shoutedRecord.tags ∧ (Index.empty "index").upsert homeVault shoutedRecord = .ok y ∧
    y.listPublic homeVault = .ok shown ∧ ∃ s ∈ shown, s.path = "a.md" := by
  have hdecoded : Bytes.decodeUtf8 shoutedNote = .ok shoutedText := by decide +kernel
  have hplain : frontMatter shoutedText = .ok ([], shoutedText) := rfl
  have hr : toRecord "a.md" shoutedNote = .ok shoutedRecord := by
    rw [toRecord, hdecoded]
    rfl
  have htag : "private" ∈ shoutedRecord.tags := by decide +kernel
  have hunmarked : hasMarker true (withoutCode shoutedText) = false := by decide +kernel
  have hstored : Index.stored shoutedRecord = .ok shoutedRecord := Index.stored_of_native trivial trivial rfl
  have hwritten := IndexRun.upsert_of_stored (x := Index.empty "index") rfl homeVault hstored
  obtain ⟨-, -, hlisted⟩ := private_and_tagged_iff [] shoutedText
  obtain ⟨shown, hshown, hiff⟩ := hlisted "a.md" _ _ _ hdecoded hplain hr _ _ homeVault hwritten
  refine ⟨_, shown, hr, htag, hwritten, hshown, hiff.mpr ⟨?_, ?_⟩⟩
  · intro hsays
    cases hsays
  · intro before after h
    rw [hasMarker_true_iff.mpr ⟨before, after, h⟩] at hunmarked
    cases hunmarked

theorem not_always_private :
    ¬∀ frontMatter body, "private" ∈ inlineTags body → isPrivateContent frontMatter body = true := by
  intro hall
  have h := hall [] "#Private".toList (by decide +kernel)
  revert h
  decide +kernel

end Note

end NoteQuery

import NoteQuery.Proofs.Note.FrontMatter
import NoteQuery.Proofs.Note.Tag
import NoteQuery.Proofs.Scope

/-!
# Tags of a record

A record has the tags that its front matter declares and then those written in its body, each once and in a
normal form. Blanks are trimmed before signs are dropped, so that a blank between a sign and a name is left at
the front of the tag, and only there.
-/

namespace NoteQuery.Note

/-! ## Normal forms -/

def BeginsBlank (cs : List Char) : Prop := ∃ c ∈ cs.head?, Text.isBlank c = true

structure IsNormal (tag : List Char) : Prop where
  ne_nil : tag ≠ []
  lower : Text.lower tag = tag
  unsigned : ∀ c ∈ tag.head?, c ≠ '#'
  trimmed : ∀ c ∈ tag.getLast?, Text.isBlank c = false

theorem eq_sign_of_isLowerOf {c : Char} (h : Text.IsLowerOf '#' c) : c = '#' := by
  rcases h with h | ⟨-, h⟩
  · exact Text.eq_of_mem_lowerLetter (by decide) (by decide) h
  · exact absurd h (by decide)

theorem isNormal_lower {cs : List Char} (hne : cs ≠ []) (hunsigned : ∀ c ∈ cs.head?, c ≠ '#')
    (htrimmed : ∀ c ∈ cs.getLast?, Text.isBlank c = false) : IsNormal (Text.lower cs) where
  ne_nil := mt Text.lowerAfter_eq_nil_iff.mp hne
  lower := Text.lower_lower cs
  unsigned := by
    intro d hd hsign
    obtain ⟨c, hc, hlower⟩ := Text.exists_head_lower hd
    rw [hsign] at hlower
    exact hunsigned c hc (eq_sign_of_isLowerOf hlower)
  trimmed := by
    intro d hd
    obtain ⟨c, hc, hlower⟩ := Text.exists_last_lowerAfter hd
    rw [hlower.spec.2]
    exact htrimmed c hc

theorem beginsBlank_lower {cs : List Char} : BeginsBlank (Text.lower cs) ↔ BeginsBlank cs := by
  constructor
  · intro h
    obtain ⟨d, hd, hblank⟩ := h
    obtain ⟨c, hc, hlower⟩ := Text.exists_head_lower hd
    exact ⟨c, hc, hlower.spec.2 ▸ hblank⟩
  · intro h
    obtain ⟨c, hc, hblank⟩ := h
    have hne : Text.lower cs ≠ [] :=
      mt Text.lowerAfter_eq_nil_iff.mp (List.ne_nil_of_mem (List.mem_of_mem_head? hc))
    have hd : (Text.lower cs).head hne ∈ (Text.lower cs).head? := List.head?_eq_some_head hne
    obtain ⟨b, hb, hlower⟩ := Text.exists_head_lower hd
    refine ⟨_, hd, ?_⟩
    rw [hlower.spec.2, Option.mem_unique hb hc]
    exact hblank

/-! ## Written tags -/

theorem IsTag.isNormal {tag : List Char} (h : IsTag tag) : IsNormal (Text.lower tag) := by
  refine isNormal_lower h.ne_nil ?_ ?_
  · intro c hc hsign
    have hchar := h.chars c (List.mem_of_mem_head? hc)
    rw [hsign] at hchar
    exact absurd hchar (by decide)
  · intro c hc
    exact not_isBlank_of_isTagChar (h.chars c (List.mem_of_mem_getLast? hc))

theorem IsTag.not_beginsBlank {tag : List Char} (h : IsTag tag) : ¬BeginsBlank (Text.lower tag) := by
  rw [beginsBlank_lower]
  intro hbegins
  obtain ⟨c, hc, hblank⟩ := hbegins
  rw [not_isBlank_of_isTagChar (h.chars c (List.mem_of_mem_head? hc))] at hblank
  cases hblank

theorem exists_isTag {body : List Char} {s : String} (h : s ∈ inlineTags body) :
    ∃ tag, IsTag tag ∧ s.toList = Text.lower tag := by
  obtain ⟨before, tag, after, hwritten, heq⟩ := mem_inlineTags.mp h
  refine ⟨tag, hwritten.isTag, ?_⟩
  rw [heq, String.toList_ofList, hwritten.isTag.lower]

/-! ## Declared tags -/

def tagTexts (frontMatter : Entries) : List String := declarations ((Entries.get? frontMatter "tags").getD .null)

def bareText (s : String) : List Char := Text.dropAll '#' (Text.trim s.toList)

/-- A declaration of a name: blanks around it, and signs directly before it. -/
structure DeclaredAs (s before signs name after : List Char) : Prop where
  text_eq : s = before ++ (signs ++ name ++ after)
  before_blank : ∀ c ∈ before, Text.isBlank c = true
  after_blank : ∀ c ∈ after, Text.isBlank c = true
  are_signs : ∀ c ∈ signs, c = '#'
  first : ∃ c ∈ name.head?, Text.isBlank c = false ∧ c ≠ '#'
  last : ∃ c ∈ name.getLast?, Text.isBlank c = false

theorem toList_declaredTag (s : String) : (declaredTag s).toList = Text.lower (bareText s) := String.toList_ofList

theorem declaredTag_eq_empty_iff {s : String} : declaredTag s = "" ↔ bareText s = [] := by
  rw [← String.toList_inj, toList_declaredTag]
  exact Text.lowerAfter_eq_nil_iff

theorem mem_declaredTags {frontMatter : Entries} {tag : String} : tag ∈ declaredTags frontMatter ↔
    ∃ s ∈ tagTexts frontMatter, Text.trim s.toList ≠ [] ∧ declaredTag s = tag := by
  simp [declaredTags, tagTexts, and_assoc]

theorem mem_declaredTags_of_bareText {frontMatter : Entries} {s : String} (hs : s ∈ tagTexts frontMatter)
    (hne : bareText s ≠ []) : declaredTag s ∈ declaredTags frontMatter := by
  refine mem_declaredTags.mpr ⟨s, hs, ?_, rfl⟩
  intro htrim
  apply hne
  rw [bareText, htrim]
  rfl

theorem isNormal_declaredTag {s : String} (h : declaredTag s ≠ "") : IsNormal (declaredTag s).toList := by
  rw [toList_declaredTag]
  refine isNormal_lower (mt declaredTag_eq_empty_iff.mpr h) ?_ ?_
  · intro c hc hsign
    have hhead := List.head?_dropWhile_not (· == '#') (Text.trim s.toList)
    rw [bareText, Text.dropAll, hsign] at hc
    rw [hc] at hhead
    cases hhead
  · intro c hc
    apply Text.not_isBlank_last_trim s.toList
    exact Text.mem_getLast?_of_suffix (List.dropWhile_suffix _) hc

theorem DeclaredAs.bareText_eq {s : String} {before signs name after : List Char}
    (h : DeclaredAs s.toList before signs name after) : bareText s = name := by
  obtain ⟨first, hfirst, hblank, hunsigned⟩ := h.first
  obtain ⟨last, hlast, hlastBlank⟩ := h.last
  -- trimming stops at the first sign, or at the name if there is none
  have hhead : ∃ c ∈ (signs ++ name).head?, Text.isBlank c = false := by
    cases signs with
    | nil => exact ⟨first, hfirst, hblank⟩
    | cons c signs =>
      refine ⟨c, rfl, ?_⟩
      rw [h.are_signs c List.mem_cons_self]
      rfl
  have hend : ∃ c ∈ (signs ++ name).getLast?, Text.isBlank c = false :=
    ⟨last, Text.mem_getLast?_of_suffix (List.suffix_append signs name) hlast, hlastBlank⟩
  have hpass : ∀ c ∈ signs, (c == '#') = true := by
    intro c hc
    rw [h.are_signs c hc]
    rfl
  obtain ⟨rest, hname⟩ := List.head?_eq_some_iff.mp hfirst
  rw [bareText, h.text_eq, Text.trim_append h.before_blank h.after_blank hhead hend, Text.dropAll,
    List.dropWhile_append_of_pos hpass, hname, List.dropWhile_cons_of_neg]
  simpa using hunsigned

theorem DeclaredAs.ne_nil {s before signs name after : List Char} (h : DeclaredAs s before signs name after) :
    name ≠ [] := by
  obtain ⟨c, hc, -⟩ := h.first
  exact List.ne_nil_of_mem (List.mem_of_mem_head? hc)

/-! ## Merged tags -/

theorem eraseDups_of_nodup {items : List String} (h : items.Nodup) : items.eraseDups = items := by
  induction items with
  | nil => rfl
  | cons item items ih =>
    obtain ⟨hitem, hitems⟩ := List.nodup_cons.mp h
    have hfilter : (items.filter fun other => !other == item) = items := by
      apply List.filter_eq_self.mpr
      intro other hother
      simpa using fun heq : other = item => hitem (heq ▸ hother)
    rw [List.eraseDups_cons, hfilter, ih hitems]

theorem mergeTags_eq {declared written : List String} (hnodup : written.Nodup) (hne : ∀ tag ∈ written, tag ≠ "") :
    mergeTags [declared, written] =
      (declared.filter (· ≠ "")).eraseDups ++ written.filter (· ∉ declared) := by
  have hwritten : written.filter (· ≠ "") = written := List.filter_eq_self.mpr (by simpa using hne)
  have hremoved : written.removeAll (declared.filter (· ≠ "")) = written.filter (· ∉ declared) := by
    apply List.filter_congr
    intro tag htag
    simp [hne tag htag]
  have hflat : [declared, written].flatten = declared ++ written := by simp
  rw [mergeTags, hflat, List.filter_append, hwritten, distinct_eq, List.eraseDups_append, hremoved,
    eraseDups_of_nodup (hnodup.filter _)]

theorem mem_mergeTags {declared written : List String} {tag : String} :
    tag ∈ mergeTags [declared, written] ↔ tag ≠ "" ∧ (tag ∈ declared ∨ tag ∈ written) := by
  rw [mergeTags, mem_distinct, List.mem_filter, List.mem_flatten]
  simp [and_comm]

/-! ## Tags of a record -/

/-- The tags of a record with this body. -/
structure HasTagsOf (r : Record) (body : List Char) : Prop where
  listed : r.tags = ((declaredTags r.frontMatter).filter (· ≠ "")).eraseDups ++
    (inlineTags body).filter (· ∉ declaredTags r.frontMatter)
  written : inlineTags body =
    ((writtenTags true (withoutCode body)).map fun tag => String.ofList (Text.lower tag)).eraseDups
  nodup : r.tags.Nodup
  normal : ∀ tag ∈ r.tags, IsNormal tag.toList
  unblank_iff : (∀ tag ∈ r.tags, ¬BeginsBlank tag.toList) ↔ ∀ s ∈ tagTexts r.frontMatter, ¬BeginsBlank (bareText s)
  finds_declared : ∀ s ∈ tagTexts r.frontMatter, ∀ before signs name after,
    DeclaredAs s.toList before signs name after →
    (Source.tag (String.ofList (Text.lower name))).admits r = true
  finds_written : ∀ before tag after, WrittenAt (withoutCode body) before tag after →
    (Source.tag (String.ofList (Text.lower tag))).admits r = true

theorem admits_of_mem_tags {r : Record} {tag : String} (h : tag ∈ r.tags) : (Source.tag tag).admits r = true :=
  (Source.admits_tag_iff r tag).mpr ⟨tag, h, List.prefix_rfl⟩

section
variable {r : Record} {body : List Char} (h : r.tags = mergeTags [declaredTags r.frontMatter, inlineTags body])
include h

theorem mem_tags_iff {tag : String} :
    tag ∈ r.tags ↔ tag ≠ "" ∧ (tag ∈ declaredTags r.frontMatter ∨ tag ∈ inlineTags body) := by
  rw [h, mem_mergeTags]

theorem declaredTag_mem_tags {s : String} (hs : s ∈ tagTexts r.frontMatter) (hne : bareText s ≠ []) :
    declaredTag s ∈ r.tags :=
  (mem_tags_iff h).mpr ⟨mt declaredTag_eq_empty_iff.mp hne, Or.inl (mem_declaredTags_of_bareText hs hne)⟩

theorem tag_cases {tag : String} (htag : tag ∈ r.tags) :
    (∃ s ∈ tagTexts r.frontMatter, declaredTag s ≠ "" ∧ tag = declaredTag s) ∨
      ∃ name, IsTag name ∧ tag.toList = Text.lower name := by
  obtain ⟨hne, hdeclared | hwritten⟩ := (mem_tags_iff h).mp htag
  · obtain ⟨s, hs, -, heq⟩ := mem_declaredTags.mp hdeclared
    rw [← heq] at hne
    exact Or.inl ⟨s, hs, hne, heq.symm⟩
  · exact Or.inr (exists_isTag hwritten)

theorem unblank_tags_iff :
    (∀ tag ∈ r.tags, ¬BeginsBlank tag.toList) ↔ ∀ s ∈ tagTexts r.frontMatter, ¬BeginsBlank (bareText s) := by
  constructor
  · intro hall s hs hblank
    have hne : bareText s ≠ [] := by
      obtain ⟨c, hc, -⟩ := hblank
      exact List.ne_nil_of_mem (List.mem_of_mem_head? hc)
    apply hall _ (declaredTag_mem_tags h hs hne)
    rw [toList_declaredTag, beginsBlank_lower]
    exact hblank
  · intro hall tag htag
    rcases tag_cases h htag with ⟨s, hs, -, heq⟩ | ⟨name, hname, heq⟩
    · rw [heq, toList_declaredTag, beginsBlank_lower]
      exact hall s hs
    · rw [heq]
      exact hname.not_beginsBlank

end

theorem ne_empty_of_mem_inlineTags {body : List Char} {tag : String} (h : tag ∈ inlineTags body) : tag ≠ "" := by
  obtain ⟨name, hname, heq⟩ := exists_isTag h
  intro hempty
  rw [hempty] at heq
  exact hname.isNormal.ne_nil heq.symm

theorem hasTagsOf_of_eq {r : Record} {body : List Char}
    (h : r.tags = mergeTags [declaredTags r.frontMatter, inlineTags body]) : HasTagsOf r body where
  listed := by
    rw [h]
    exact mergeTags_eq (nodup_distinct _) fun tag => ne_empty_of_mem_inlineTags
  written := inlineTags_eq body
  nodup := by
    rw [h]
    exact nodup_distinct _
  normal := by
    intro tag htag
    rcases tag_cases h htag with ⟨s, -, hne, heq⟩ | ⟨name, hname, heq⟩
    · rw [heq]
      exact isNormal_declaredTag hne
    · rw [heq]
      exact hname.isNormal
  unblank_iff := unblank_tags_iff h
  finds_declared := by
    intro s hs before signs name after hname
    have hne : bareText s ≠ [] := by
      rw [hname.bareText_eq]
      exact hname.ne_nil
    rw [← hname.bareText_eq]
    exact admits_of_mem_tags (declaredTag_mem_tags h hs hne)
  finds_written := by
    intro before tag after hwritten
    -- written in any letter case, the tag is listed in lower case
    have hmem : String.ofList (Text.lower tag) ∈ inlineTags body := by
      rw [hwritten.isTag.lower]
      exact mem_inlineTags.mpr ⟨before, tag, after, hwritten, rfl⟩
    exact admits_of_mem_tags ((mem_tags_iff h).mpr ⟨ne_empty_of_mem_inlineTags hmem, Or.inr hmem⟩)

theorem hasTagsOf_toRecord [Yaml.Loader] {path : String} {content : List UInt8} {r : Record}
    (h : toRecord path content = .ok r) :
    ∃ text body, Bytes.decodeUtf8 content = .ok text ∧ frontMatter text = .ok (r.frontMatter, body) ∧
      HasTagsOf r body := by
  obtain ⟨text, body, htext, hread, hrecord⟩ := exists_of_toRecord h
  exact ⟨text, body, htext, hread, hasTagsOf_of_eq (congrArg Record.tags hrecord)⟩

def workNote : List UInt8 :=
  Bytes.encodeUtf8 "---\ntags: [Work, '##Home ', ~, work]\n---\nText #home and #Idea/New.\n".toList

theorem hasTagsOf_workNote : ∃ r body, toRecord "a.md" workNote = .ok r ∧ HasTagsOf r body ∧
    r.tags = ["work", "home", "idea/new"] ∧ (Source.tag "idea").admits r = true := by
  have htags : (toRecord "a.md" workNote).toOption.map (·.tags) = some ["work", "home", "idea/new"] := by
    decide +kernel
  obtain ⟨r, hr, htags⟩ := exists_of_toOption_map htags
  obtain ⟨text, body, -, -, hbody⟩ := hasTagsOf_toRecord hr
  refine ⟨r, body, hr, hbody, htags, ?_⟩
  rw [Source.admits_tag_iff, htags]
  exact ⟨"idea/new", by simp, by decide +kernel⟩

def blankNote : List UInt8 := Bytes.encodeUtf8 "---\ntags: '# work, home'\n---\nText\n".toList

/-- A blank between the sign and the name of a declared tag is kept, and the name does not find the record. -/
theorem not_always_unblank : ¬∀ path content r, toRecord path content = .ok r →
    ∀ tag ∈ r.tags, ¬BeginsBlank tag.toList := by
  intro hall
  have htags : (toRecord "a.md" blankNote).toOption.map (·.tags) = some [" work", "home"] := by decide +kernel
  obtain ⟨r, hr, htags⟩ := exists_of_toOption_map htags
  apply hall "a.md" blankNote r hr " work"
  · simp [htags]
  · exact ⟨' ', rfl, rfl⟩

end NoteQuery.Note

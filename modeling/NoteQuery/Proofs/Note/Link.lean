import NoteQuery.Note.Link

/-!
# Written links

A link is written as its target between double brackets, its display behind a bar, and an exclamation mark in
front if it embeds. It is read back whatever follows, and where there is neither a bracket nor an exclamation
mark no link begins. So the links of a text are those that were written into it, in order.
-/

namespace NoteQuery

namespace WikiLink

structure IsPart (marks : List Char) (s : String) : Prop where
  ne_empty : s ≠ ""
  trimmed : Text.trim s.toList = s.toList
  unmarked : ∀ c ∈ s.toList, c ∉ marks

/-- A link that its text can say. An opening bracket does no harm, in the target or in the display. -/
structure IsWritable (l : WikiLink) : Prop where
  target : IsPart [']', '|'] l.target
  display : ∀ d ∈ l.display, IsPart [']'] d

-- The instance is named since another one runs through every character there is, not only those of the text.
instance (marks : List Char) (s : String) : Decidable (IsPart marks s) :=
  have : Decidable (∀ c ∈ s.toList, c ∉ marks) := List.decidableBAll _ _
  decidable_of_iff (s ≠ "" ∧ Text.trim s.toList = s.toList ∧ ∀ c ∈ s.toList, c ∉ marks)
    ⟨fun ⟨hne, htrim, hmarks⟩ => ⟨hne, htrim, hmarks⟩, fun ⟨hne, htrim, hmarks⟩ => ⟨hne, htrim, hmarks⟩⟩

instance (l : WikiLink) : Decidable l.IsWritable :=
  decidable_of_iff (IsPart [']', '|'] l.target ∧ ∀ d ∈ l.display, IsPart [']'] d)
    ⟨fun ⟨htarget, hdisplay⟩ => ⟨htarget, hdisplay⟩, fun ⟨htarget, hdisplay⟩ => ⟨htarget, hdisplay⟩⟩

def mark (l : WikiLink) : List Char := if l.isEmbed then ['!'] else []

def ending (l : WikiLink) : List Char :=
  match l.display with
  | some d => '|' :: d.toList ++ [']', ']']
  | none => [']', ']']

def written (l : WikiLink) : List Char := l.mark ++ ('[' :: '[' :: l.target.toList ++ l.ending)

theorem exists_written (l : WikiLink) : ∃ c cs, l.written = c :: cs := by
  unfold written mark
  cases l.isEmbed with
  | true => exact ⟨'!', _, rfl⟩
  | false => exact ⟨'[', _, rfl⟩

end WikiLink

namespace Note

open WikiLink (IsPart)

theorem trimmed_of_isPart {marks : List Char} {s : String} (h : IsPart marks s) : trimmed s.toList = s := by
  rw [trimmed, h.trimmed, String.ofList_toList]

theorem linksFrom_nil (steps : Nat) : linksFrom steps [] = [] := by
  cases steps <;> rfl

section
variable {l : WikiLink} (h : l.IsWritable)
include h

theorem linkEnd?_ending (rest : List Char) : linkEnd? (l.ending ++ rest) = some (l.display, rest) := by
  unfold WikiLink.ending
  cases hdisplay : l.display with
  | none =>
    unfold linkEnd?
    simp [Text.after?]
  | some d =>
    have hd := h.display d hdisplay
    have hspan : (d.toList ++ ']' :: ']' :: rest).span (· != ']') = (d.toList, ']' :: ']' :: rest) := by
      apply Text.span_append
      · intro c hc
        simpa using hd.unmarked c hc
      · simp
    have hne : d.toList.isEmpty = false := by simpa using hd.ne_empty
    have hafter : Text.after? [']', ']'] (']' :: ']' :: rest) = some rest := rfl
    have htext : '|' :: d.toList ++ [']', ']'] ++ rest = '|' :: (d.toList ++ ']' :: ']' :: rest) := by simp
    dsimp only
    rw [htext, linkEnd?, hspan]
    dsimp only
    rw [hne, hafter, trimmed_of_isPart hd]
    rfl

theorem bracketed?_written (rest : List Char) :
    bracketed? l.isEmbed ('[' :: '[' :: l.target.toList ++ l.ending ++ rest) = some (l, rest) := by
  have hspan : (l.target.toList ++ (l.ending ++ rest)).span (fun c => c != ']' && c != '|') =
      (l.target.toList, l.ending ++ rest) := by
    apply Text.span_append
    · intro c hc
      simpa using h.target.unmarked c hc
    · unfold WikiLink.ending
      cases l.display <;> simp
  have hne : l.target.toList.isEmpty = false := by simpa using h.target.ne_empty
  have hafter : Text.after? ['[', '['] ('[' :: '[' :: l.target.toList ++ l.ending ++ rest) =
      some (l.target.toList ++ (l.ending ++ rest)) := by
    simp [Text.after?]
  unfold bracketed?
  rw [hafter, Option.bind_eq_bind, Option.bind_some]
  dsimp only
  rw [hspan]
  dsimp only
  rw [hne, linkEnd?_ending h, trimmed_of_isPart h.target]
  rfl

theorem link?_written (rest : List Char) : link? (l.written ++ rest) = some (l, rest) := by
  have hmark : link? (l.written ++ rest) =
      bracketed? l.isEmbed ('[' :: '[' :: l.target.toList ++ l.ending ++ rest) := by
    unfold WikiLink.written WikiLink.mark
    cases l.isEmbed <;> rfl
  rw [hmark, bracketed?_written h]

theorem linksFrom_written (steps : Nat) (rest : List Char) :
    linksFrom (steps + 1) (l.written ++ rest) = l :: linksFrom steps rest := by
  have hread := link?_written h rest
  obtain ⟨c, cs, hcs⟩ := l.exists_written
  rw [hcs, List.cons_append] at hread ⊢
  rw [linksFrom, hread]

end

/-! ## Texts with links -/

/-- A text in which no link begins. -/
def IsGap (cs : List Char) : Prop := ∀ c ∈ cs, c ≠ '[' ∧ c ≠ '!'

instance (cs : List Char) : Decidable (IsGap cs) := List.decidableBAll (fun c => c ≠ '[' ∧ c ≠ '!') cs

theorem linksFrom_gap {gap : List Char} (h : IsGap gap) (steps : Nat) (rest : List Char) :
    linksFrom (gap.length + steps) (gap ++ rest) = linksFrom steps rest := by
  induction gap with
  | nil => rw [List.length_nil, Nat.zero_add, List.nil_append]
  | cons c gap ih =>
    obtain ⟨hc, hgap⟩ := List.forall_mem_cons.mp h
    have hnone : link? (c :: (gap ++ rest)) = none := by
      unfold link? bracketed?
      simp [Text.after?, hc.1.symm, hc.2]
    rw [List.length_cons, Nat.succ_add, List.cons_append, linksFrom, hnone]
    exact ih hgap

/-- Links with a text before each of them, and a text behind the last. -/
def linkedText (pieces : List (List Char × WikiLink)) (last : List Char) : List Char :=
  pieces.flatMap (fun piece => piece.1 ++ piece.2.written) ++ last

theorem linksFrom_linkedText {pieces : List (List Char × WikiLink)} {last : List Char} (hlast : IsGap last)
    (hpieces : ∀ piece ∈ pieces, IsGap piece.1 ∧ piece.2.IsWritable) :
    ∀ steps, (linkedText pieces last).length ≤ steps →
      linksFrom steps (linkedText pieces last) = pieces.map (·.2) := by
  induction pieces with
  | nil =>
    intro steps hsteps
    obtain ⟨more, rfl⟩ := Nat.exists_eq_add_of_le hsteps
    have hread := linksFrom_gap hlast more []
    rw [List.append_nil] at hread
    exact hread.trans (linksFrom_nil more)
  | cons piece pieces ih =>
    intro steps hsteps
    obtain ⟨⟨hgap, hlink⟩, hpieces⟩ := List.forall_mem_cons.mp hpieces
    have htext : linkedText (piece :: pieces) last = piece.1 ++ (piece.2.written ++ linkedText pieces last) := by
      simp [linkedText]
    have hne : 0 < piece.2.written.length := by
      obtain ⟨c, cs, hcs⟩ := piece.2.exists_written
      simp [hcs]
    rw [htext] at hsteps ⊢
    rw [List.length_append, List.length_append] at hsteps
    -- a link takes one step whatever its length, so there are steps to spare for the rest
    obtain ⟨more, rfl⟩ : ∃ more, steps = piece.1.length + (more + 1) := ⟨steps - piece.1.length - 1, by omega⟩
    rw [linksFrom_gap hgap, linksFrom_written hlink, ih hpieces more (by omega), List.map_cons]

theorem links_linkedText {pieces : List (List Char × WikiLink)} {last : List Char} (hlast : IsGap last)
    (hpieces : ∀ piece ∈ pieces, IsGap piece.1 ∧ piece.2.IsWritable) :
    links (linkedText pieces last) = pieces.map (·.2) :=
  linksFrom_linkedText hlast hpieces _ (Nat.le_refl _)

/-- Links that touch, a display with brackets and bars over two lines, and a closing bracket between links. -/
def touchingLinks : List (List Char × WikiLink) :=
  [("See ".toList, ⟨"notes/gamma\nray", some "[[x|y\nz", false⟩), ([], ⟨"img.png", none, true⟩),
    ("]".toList, ⟨"a[b", none, false⟩)]

theorem links_touchingLinks : IsGap ".".toList ∧ (∀ piece ∈ touchingLinks, IsGap piece.1 ∧ piece.2.IsWritable) ∧
    links "See [[notes/gamma\nray|[[x|y\nz]]![[img.png]]][[a[b]].".toList =
      [⟨"notes/gamma\nray", some "[[x|y\nz", false⟩, ⟨"img.png", none, true⟩, ⟨"a[b", none, false⟩] := by
  have hlast : IsGap ".".toList := by decide +kernel
  have hpieces : ∀ piece ∈ touchingLinks, IsGap piece.1 ∧ piece.2.IsWritable := by decide +kernel
  exact ⟨hlast, hpieces, links_linkedText hlast hpieces⟩

end Note

end NoteQuery

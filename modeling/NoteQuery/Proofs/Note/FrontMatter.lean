import NoteQuery.Note
import NoteQuery.Proofs.Fallible
import NoteQuery.Proofs.Text.Digits
import NoteQuery.Proofs.Text.Squeeze
import NoteQuery.Yaml.Content

/-!
# Where a note is split

The front matter of a note ends at the first line behind its first that is a fence, whatever line ends are used.
Behind the fence the body is left as it is, and what is read of the body is read of nothing else.
-/

namespace NoteQuery.Note

/-! ## Lines and fences -/

def firstLine (cs : List Char) : List Char := cs.takeWhile fun c => !(c == '\n')

def hyphens : List Char := ['-', '-', '-']

/-- What may stand behind the hyphens of a fence. -/
def IsPad (cs : List Char) : Prop := ∀ c ∈ cs, c = ' ' ∨ c = '\t'

instance (cs : List Char) : Decidable (IsPad cs) := inferInstanceAs (Decidable (∀ c ∈ cs, c = ' ' ∨ c = '\t'))

def IsFence (line : List Char) : Prop :=
  ∃ pad, IsPad pad ∧ (line = hyphens ++ pad ∨ line = hyphens ++ (pad ++ ['\r']))

theorem afterLineEnd?_eq_some_iff {cs rest : List Char} :
    afterLineEnd? cs = some rest ↔ cs = '\n' :: rest ∨ cs = '\r' :: '\n' :: rest := by
  unfold afterLineEnd?
  split
  · simp [eq_comm]
  · simp [eq_comm]
  · rename_i hlf hcrlf
    apply iff_of_false
    · simp
    · intro h
      rcases h with h | h
      · exact hlf rest h
      · exact hcrlf rest h

theorem isPad_takeWhile (cs : List Char) : IsPad (cs.takeWhile fun c => c == ' ' || c == '\t') := by
  intro c hc
  simpa using List.all_eq_true.mp List.all_takeWhile c hc

theorem exists_of_afterFence? {cs rest : List Char} (h : afterFence? cs = some rest) :
    ∃ pad, IsPad pad ∧ cs = hyphens ++ (pad ++ rest) := by
  unfold afterFence? at h
  obtain ⟨behind, hbehind, h⟩ := Option.map_eq_some_iff.mp h
  refine ⟨_, isPad_takeWhile behind, ?_⟩
  rw [← h, List.takeWhile_append_dropWhile]
  exact Text.after?_eq_some_iff.mp hbehind

theorem afterFence?_append {pad rest : List Char} (hpad : IsPad pad)
    (hrest : ∀ c ∈ rest.head?, c ≠ ' ' ∧ c ≠ '\t') : afterFence? (hyphens ++ (pad ++ rest)) = some rest := by
  have hafter : Text.after? ['-', '-', '-'] (hyphens ++ (pad ++ rest)) = some (pad ++ rest) :=
    Text.after?_eq_some_iff.mpr rfl
  have hpass : ∀ c ∈ pad, (c == ' ' || c == '\t') = true := by
    intro c hc
    simpa using hpad c hc
  rw [afterFence?, hafter, Option.map_some, List.dropWhile_append_of_pos hpass]
  cases rest with
  | nil => rfl
  | cons c rest =>
    have hc := hrest c rfl
    simp [hc.1, hc.2]

theorem isFence_iff {line : List Char} :
    IsFence line ↔ afterFence? line = some [] ∨ afterFence? line = some ['\r'] := by
  constructor
  · intro h
    obtain ⟨pad, hpad, heq | heq⟩ := h
    · left
      rw [heq, ← List.append_nil pad]
      exact afterFence?_append hpad (by simp)
    · right
      rw [heq]
      exact afterFence?_append hpad (by simp)
  · intro h
    rcases h with h | h
    · obtain ⟨pad, hpad, heq⟩ := exists_of_afterFence? h
      rw [List.append_nil] at heq
      exact ⟨pad, hpad, Or.inl heq⟩
    · obtain ⟨pad, hpad, heq⟩ := exists_of_afterFence? h
      exact ⟨pad, hpad, Or.inr heq⟩

instance (line : List Char) : Decidable (IsFence line) := decidable_of_iff _ isFence_iff.symm

theorem firstLine_append_of_not_mem {cs : List Char} (h : '\n' ∉ cs) (rest : List Char) :
    firstLine (cs ++ rest) = cs ++ firstLine rest := by
  apply List.takeWhile_append_of_pos
  intro c hc
  simpa using fun heq : c = '\n' => h (heq ▸ hc)

theorem firstLine_append_of_mem {cs : List Char} (h : '\n' ∈ cs) (rest : List Char) :
    firstLine (cs ++ rest) = firstLine cs := by
  induction cs with
  | nil => cases h
  | cons c cs ih =>
    unfold firstLine at ih ⊢
    by_cases hc : c = '\n'
    · simp [hc]
    · have hcs : '\n' ∈ cs := (List.mem_cons.mp h).resolve_left (Ne.symm hc)
      simp [hc, ih hcs]

theorem mem_fence {pad : List Char} (hpad : IsPad pad) {c : Char} (h : c ∈ hyphens ++ pad) :
    c = '-' ∨ c = ' ' ∨ c = '\t' := by
  rcases List.mem_append.mp h with h | h
  · left
    simpa [hyphens] using h
  · right
    exact hpad c h

/-- A fence that is read, with the end of its line or of the text behind it, is the first line. -/
theorem isFence_firstLine {cs rest : List Char} (h : afterFence? cs = some rest)
    (hend : rest = [] ∨ ∃ behind, afterLineEnd? rest = some behind) : IsFence (firstLine cs) := by
  obtain ⟨pad, hpad, heq⟩ := exists_of_afterFence? h
  have hline : '\n' ∉ hyphens ++ pad := by
    intro hmem
    exact absurd (mem_fence hpad hmem) (by decide)
  rw [heq, ← List.append_assoc, firstLine_append_of_not_mem hline]
  refine ⟨pad, hpad, ?_⟩
  rcases hend with hend | ⟨behind, hend⟩
  · left
    rw [hend]
    exact List.append_nil _
  · rcases afterLineEnd?_eq_some_iff.mp hend with hend | hend
    · left
      rw [hend]
      exact List.append_nil _
    · right
      rw [hend, List.append_assoc]
      rfl

theorem isFence_of_concat_return {line : List Char} (h : IsFence (line ++ ['\r'])) : IsFence line := by
  obtain ⟨pad, hpad, heq | heq⟩ := h
  · have hmem : '\r' ∈ hyphens ++ pad := by
      rw [← heq]
      simp
    exact absurd (mem_fence hpad hmem) (by decide)
  · rw [← List.append_assoc] at heq
    exact ⟨pad, hpad, Or.inl (List.append_cancel_right heq)⟩

/-! ## The closing fence -/

theorem afterClosingFence?_of_fence {cs line rest : List Char} (hline : afterLineEnd? cs = some line)
    (hfence : afterFence? line = some rest) :
    afterClosingFence? cs = if rest.isEmpty then some [] else afterLineEnd? rest := by
  unfold afterClosingFence?
  rw [hline]
  change (afterFence? line).bind _ = _
  rw [hfence]
  rfl

theorem exists_of_afterClosingFence? {cs body : List Char} (h : afterClosingFence? cs = some body) :
    ∃ line rest, afterLineEnd? cs = some line ∧ afterFence? line = some rest ∧
      (rest = [] ∧ body = [] ∨ afterLineEnd? rest = some body) := by
  cases hline : afterLineEnd? cs with
  | none =>
    rw [afterClosingFence?, hline] at h
    cases h
  | some line =>
    cases hfence : afterFence? line with
    | none =>
      rw [afterClosingFence?, hline] at h
      change (afterFence? line).bind _ = _ at h
      rw [hfence] at h
      cases h
    | some rest =>
      refine ⟨line, rest, rfl, hfence, ?_⟩
      rw [afterClosingFence?_of_fence hline hfence] at h
      split at h
      · rename_i hempty
        exact Or.inl ⟨List.isEmpty_iff.mp hempty, (Option.some.inj h).symm⟩
      · exact Or.inr h

theorem upToClosingFence?_append {block tail body : List Char} (htail : afterClosingFence? tail = some body)
    (hblock : ∀ before c rest, block = before ++ c :: rest → afterClosingFence? (c :: rest ++ tail) = none) :
    upToClosingFence? (block ++ tail) = some (block, body) := by
  induction block with
  | nil =>
    rw [List.nil_append]
    cases tail with
    | nil => cases htail
    | cons c tail => rw [upToClosingFence?, htail]
  | cons c block ih =>
    have hhere := hblock [] c block rfl
    rw [List.cons_append] at hhere
    rw [List.cons_append, upToClosingFence?, hhere, ih]
    · rfl
    · intro before d rest heq
      apply hblock (c :: before)
      rw [heq]
      rfl

/-! ## Texts with a block between fences -/

inductive LineEnd
  | feed
  | returnAndFeed

def LineEnd.text : LineEnd → List Char
  | .feed => ['\n']
  | .returnAndFeed => ['\r', '\n']

theorem afterLineEnd?_text (e : LineEnd) (rest : List Char) : afterLineEnd? (e.text ++ rest) = some rest := by
  cases e <;> rfl

theorem head_ne_of_lineEnd (e : LineEnd) (rest : List Char) : ∀ c ∈ (e.text ++ rest).head?, c ≠ ' ' ∧ c ≠ '\t' := by
  cases e <;> simp [LineEnd.text]

/-- A block between two fences and a body behind them. No line of the block but its first is a fence, and
the line end behind the block does not begin in it. -/
structure FencedText where
  opening : List Char
  afterOpening : LineEnd
  block : List Char
  afterBlock : LineEnd
  closing : List Char
  afterClosing : LineEnd
  body : List Char
  opening_pad : IsPad opening
  closing_pad : IsPad closing
  not_fence : ∀ line ∈ (Text.cutAt '\n' block).tail, ¬IsFence line
  last_ne : block.getLast? ≠ some '\r'

namespace FencedText

variable (t : FencedText)

def tail : List Char := t.afterBlock.text ++ (hyphens ++ (t.closing ++ (t.afterClosing.text ++ t.body)))

def text : List Char := hyphens ++ (t.opening ++ (t.afterOpening.text ++ (t.block ++ t.tail)))

theorem afterOpeningFence?_text : afterOpeningFence? t.text = some (t.block ++ t.tail) := by
  rw [afterOpeningFence?, text, afterFence?_append t.opening_pad (head_ne_of_lineEnd _ _)]
  exact afterLineEnd?_text _ _

theorem afterClosingFence?_tail : afterClosingFence? t.tail = some t.body := by
  have hfence := afterFence?_append t.closing_pad (head_ne_of_lineEnd t.afterClosing t.body)
  rw [tail, afterClosingFence?_of_fence (afterLineEnd?_text _ _) hfence, afterLineEnd?_text]
  cases t.afterClosing <;> rfl

theorem firstLine_tail : firstLine t.tail = [] ∨ firstLine t.tail = ['\r'] := by
  unfold tail
  cases t.afterBlock with
  | feed => exact Or.inl rfl
  | returnAndFeed => exact Or.inr rfl

theorem not_isFence_firstLine {before rest : List Char} (h : t.block = before ++ '\n' :: rest) :
    ¬IsFence (firstLine (rest ++ t.tail)) := by
  have hline : ¬IsFence (firstLine rest) := by
    apply t.not_fence
    have hcut : Text.cutAt '\n' t.block = Text.cutAt '\n' before ++ Text.cutAt '\n' rest := by
      rw [h]
      exact Text.cutWhere_append_cons (· == '\n') (beq_self_eq_true '\n') rest before
    have hne : Text.cutAt '\n' before ≠ [] := Text.cutWhere_ne_nil _ _
    rw [hcut, List.tail_append_of_ne_nil hne]
    apply List.mem_append_right
    exact Text.takeWhile_mem_cutWhere (· == '\n') rest
  -- what follows the block can only add a carriage return to its last line
  intro hfence
  apply hline
  by_cases hmem : '\n' ∈ rest
  · rw [firstLine_append_of_mem hmem] at hfence
    exact hfence
  · have hrest : firstLine rest = rest := by
      have hall := firstLine_append_of_not_mem hmem []
      rw [List.append_nil] at hall
      rw [hall]
      exact List.append_nil _
    rw [firstLine_append_of_not_mem hmem] at hfence
    rw [hrest]
    rcases t.firstLine_tail with htail | htail
    · rw [htail, List.append_nil] at hfence
      exact hfence
    · rw [htail] at hfence
      exact isFence_of_concat_return hfence

theorem afterClosingFence?_block {before rest : List Char} {c : Char} (h : t.block = before ++ c :: rest) :
    afterClosingFence? (c :: rest ++ t.tail) = none := by
  by_contra hsome
  obtain ⟨body, hbody⟩ := Option.ne_none_iff_exists'.mp hsome
  obtain ⟨line, behind, hline, hfence, hend⟩ := exists_of_afterClosingFence? hbody
  have hisFence : IsFence (firstLine line) := by
    apply isFence_firstLine hfence
    rcases hend with hend | hend
    · exact Or.inl hend.1
    · exact Or.inr ⟨body, hend⟩
  rcases afterLineEnd?_eq_some_iff.mp hline with heq | heq
  · obtain ⟨hc, hrest⟩ := List.cons.inj heq
    rw [hc] at h
    rw [← hrest] at hisFence
    exact t.not_isFence_firstLine h hisFence
  · obtain ⟨hc, hrest⟩ := List.cons.inj heq
    rw [hc] at h
    cases rest with
    | nil =>
      -- a carriage return that ends the block would join the line end behind it
      apply t.last_ne
      rw [h, List.getLast?_append]
      rfl
    | cons d rest =>
      obtain ⟨hd, hrest⟩ := List.cons.inj hrest
      rw [hd, List.append_cons] at h
      rw [← hrest] at hisFence
      exact t.not_isFence_firstLine h hisFence

theorem split_text : split t.text = (some t.block, t.body) := by
  have hblock := upToClosingFence?_append t.afterClosingFence?_tail fun before c rest h => t.afterClosingFence?_block h
  rw [split, t.afterOpeningFence?_text, Option.bind_some, hblock]

end FencedText

/-! ## Texts without a block -/

theorem split_of_not_isFence {text : List Char} (h : ¬IsFence (firstLine text)) : split text = (none, text) := by
  cases hopening : afterOpeningFence? text with
  | none =>
    rw [split, hopening]
    rfl
  | some rest =>
    obtain ⟨behind, hfence, hend⟩ := Option.bind_eq_some_iff.mp hopening
    exact absurd (isFence_firstLine hfence (Or.inr ⟨rest, hend⟩)) h

/-! ## Bodies -/

theorem suffix_of_afterLineEnd? {cs rest : List Char} (h : afterLineEnd? cs = some rest) : rest <:+ cs := by
  rcases afterLineEnd?_eq_some_iff.mp h with h | h
  · exact ⟨['\n'], h.symm⟩
  · exact ⟨['\r', '\n'], h.symm⟩

theorem suffix_of_afterFence? {cs rest : List Char} (h : afterFence? cs = some rest) : rest <:+ cs := by
  obtain ⟨pad, -, heq⟩ := exists_of_afterFence? h
  exact ⟨hyphens ++ pad, by rw [heq, List.append_assoc]⟩

theorem suffix_of_upToClosingFence? {cs block body : List Char} (h : upToClosingFence? cs = some (block, body)) :
    body <:+ cs := by
  induction cs generalizing block body with
  | nil => cases h
  | cons c cs ih =>
    rw [upToClosingFence?] at h
    split at h
    · rename_i found hclosing
      obtain ⟨line, rest, hline, hfence, hend⟩ := exists_of_afterClosingFence? hclosing
      obtain ⟨-, hbody⟩ := Prod.mk.inj (Option.some.inj h)
      rw [← hbody]
      rcases hend with hend | hend
      · rw [hend.2]
        exact List.nil_suffix
      · exact (suffix_of_afterLineEnd? hend).trans
          ((suffix_of_afterFence? hfence).trans (suffix_of_afterLineEnd? hline))
    · obtain ⟨found, hfound, heq⟩ := Option.map_eq_some_iff.mp h
      obtain ⟨inner, behind⟩ := found
      obtain ⟨-, hbody⟩ := Prod.mk.inj heq
      rw [← hbody]
      exact (ih hfound).trans (List.suffix_cons c cs)

theorem split_suffix (text : List Char) : (split text).2 <:+ text := by
  unfold split
  split
  · rename_i block body h
    obtain ⟨rest, hopening, hblock⟩ := Option.bind_eq_some_iff.mp h
    obtain ⟨behind, hfence, hend⟩ := Option.bind_eq_some_iff.mp hopening
    exact (suffix_of_upToClosingFence? hblock).trans
      ((suffix_of_afterLineEnd? hend).trans (suffix_of_afterFence? hfence))
  · exact List.suffix_rfl

/-! ## Entries -/

/-- The entries of a map under the plain forms of their keys. -/
def underNames (entries : List (Value × Value)) : Entries :=
  Entries.ofList (entries.map fun (key, value) => (.text key.plain, value))

theorem entriesOf_eq_ok_iff {entries : List (Value × Value)} {read : Entries} : entriesOf (.map entries) = .ok read ↔
    (∀ entry ∈ entries, entry.1.hasLong = false) ∧ read = underNames entries := by
  rw [entriesOf]
  by_cases h : entries.any (·.1.hasLong) = true
  · rw [if_pos h]
    refine iff_of_false nofun fun hshort => ?_
    obtain ⟨entry, hentry, hlong⟩ := List.any_eq_true.mp h
    rw [hshort.1 entry hentry] at hlong
    cases hlong
  · rw [if_neg h]
    have hshort : ∀ entry ∈ entries, entry.1.hasLong = false := by simpa using h
    constructor
    · intro hread
      exact ⟨hshort, (Except.ok.inj hread).symm⟩
    · intro hread
      rw [hread.2]
      rfl

theorem underNames_concat (entries : List (Value × Value)) (key value : Value) :
    underNames (entries ++ [(key, value)]) = Entries.insert (.text key.plain) value (underNames entries) := by
  simp only [underNames, Entries.ofList, List.map_append, List.foldl_append, List.map_cons, List.map_nil,
    List.foldl_cons, List.foldl_nil]

theorem get?_underNames (entries : List (Value × Value)) (name : String) :
    Entries.get? (underNames entries) name = ((entries.filter fun entry => entry.1.plain = name).getLast?).map (·.2) := by
  induction entries using List.reverseRecOn with
  | nil => rfl
  | append_singleton entries entry ih =>
    obtain ⟨key, value⟩ := entry
    rw [underNames_concat, List.filter_append]
    by_cases h : key.plain = name
    · rw [h, Entries.get?_insert_self]
      simp [h]
    · rw [Entries.get?_insert_of_ne (Ne.symm h), ih]
      simp [h]

section
variable [Yaml.Loader]

theorem frontMatter_eq (text : List Char) :
    frontMatter text = (blockEntries (split text).1).map fun entries => (entries, (split text).2) := by
  unfold frontMatter
  obtain ⟨block, body⟩ := split text
  cases hblock : blockEntries block <;> simp only [hblock] <;> rfl

theorem FencedText.frontMatter_text (t : FencedText) : frontMatter t.text =
    match Yaml.load t.block with
    | .error fault => .error (.yaml fault)
    | .ok v => (entriesOf v).map fun entries => (entries, t.body) := by
  rw [frontMatter_eq, t.split_text, blockEntries]
  cases Yaml.load t.block <;> rfl

theorem FencedText.body_eq (t : FencedText) {entries : Entries} {body : List Char}
    (h : frontMatter t.text = .ok (entries, body)) : body = t.body := by
  rw [frontMatter_eq, t.split_text] at h
  obtain ⟨_, -, heq⟩ := map_eq_ok h
  exact (Prod.mk.inj heq).2.symm

/-! ## Records -/

theorem exists_of_toRecord {path : String} {content : List UInt8} {r : Record} (h : toRecord path content = .ok r) :
    ∃ text body, Bytes.decodeUtf8 content = .ok text ∧ frontMatter text = .ok (r.frontMatter, body) ∧
      r = recordOf path content text body r.frontMatter := by
  obtain ⟨text, htext, h⟩ := bind_eq_ok h
  obtain ⟨entries, hentries, h⟩ := bind_eq_ok h
  have hentries : blockEntries (split text).1 = .ok entries := mapError_eq_ok hentries
  dsimp only at h
  split at h
  · cases h
  · refine ⟨text, (split text).2, mapError_eq_ok htext, ?_, ?_⟩
    · rw [frontMatter_eq, hentries, ← Except.ok.inj h]
      rfl
    · rw [← Except.ok.inj h]
      rfl

theorem frontMatter_fenced :
    (∀ t : FencedText, frontMatter t.text =
      match Yaml.load t.block with
      | .error fault => .error (.yaml fault)
      | .ok v => (entriesOf v).map fun entries => (entries, t.body)) ∧
    (∀ entries, (∃ read, entriesOf (.map entries) = .ok read) ↔ ∀ entry ∈ entries, entry.1.hasLong = false) ∧
    (∀ entries read, entriesOf (.map entries) = .ok read → ∀ name,
      Entries.get? read name = ((entries.filter fun entry => entry.1.plain = name).getLast?).map (·.2)) ∧
    (∀ v, (∀ entries, v ≠ .map entries) → entriesOf v = .ok []) ∧
    (∀ text, ¬IsFence (firstLine text) → frontMatter text = .ok ([], text)) ∧
    (∀ text entries body, frontMatter text = .ok (entries, body) → body <:+ text) ∧
    ∀ (t : FencedText) path content r, Bytes.decodeUtf8 content = .ok t.text → toRecord path content = .ok r →
      r.tags = mergeTags [declaredTags r.frontMatter, inlineTags t.body] ∧
      r.isPrivate = isPrivateContent r.frontMatter t.body := by
  refine ⟨FencedText.frontMatter_text, fun entries => ?_, fun entries read h name => ?_, fun v h => ?_, ?_, ?_, ?_⟩
  · constructor
    · rintro ⟨read, h⟩
      exact (entriesOf_eq_ok_iff.mp h).1
    · intro h
      exact ⟨_, entriesOf_eq_ok_iff.mpr ⟨h, rfl⟩⟩
  · rw [(entriesOf_eq_ok_iff.mp h).2, get?_underNames]
  -- front matter that is no map has no entries
  · unfold entriesOf
    split
    · rename_i entries
      exact absurd rfl (h entries)
    · rfl
  · intro text h
    rw [frontMatter_eq, split_of_not_isFence h]
    rfl
  · intro text entries body h
    rw [frontMatter_eq] at h
    obtain ⟨found, -, heq⟩ := map_eq_ok h
    rw [← (Prod.mk.inj heq).2]
    exact split_suffix text
  · intro t path content r htext h
    obtain ⟨text, body, hdecoded, hread, hr⟩ := exists_of_toRecord h
    rw [htext] at hdecoded
    rw [← Except.ok.inj hdecoded] at hread
    rw [t.body_eq hread] at hr
    rw [hr]
    exact ⟨rfl, rfl⟩

end

/-- Hyphens within the block and a line of hyphens in the body are no fences. -/
def fenced : FencedText where
  opening := [' ', '\t']
  afterOpening := .returnAndFeed
  block := "tags: [Work]\nrule: |\n  ---\n----: 2".toList
  afterBlock := .feed
  closing := ['\t']
  afterClosing := .returnAndFeed
  body := "#home\n---\n#private".toList
  opening_pad := by decide
  closing_pad := by decide
  not_fence := by decide +kernel
  last_ne := by decide +kernel

theorem frontMatter_fenced_hyphens : ∃ r, toRecord "a.md" (Bytes.encodeUtf8 fenced.text) = .ok r ∧
    frontMatter fenced.text = .ok (r.frontMatter, fenced.body) ∧ declaredTags r.frontMatter = ["work"] ∧
    r.tags = ["work", "home", "private"] ∧ r.isPrivate = true ∧
    ¬IsFence (firstLine fenced.body) ∧ frontMatter fenced.body = .ok ([], fenced.body) := by
  obtain ⟨-, -, -, -, hplain, -, hrecord⟩ := frontMatter_fenced
  have htext : Bytes.decodeUtf8 (Bytes.encodeUtf8 fenced.text) = .ok fenced.text := by decide +kernel
  have hdeclared : ((toRecord "a.md" (Bytes.encodeUtf8 fenced.text)).toOption.map fun r =>
      declaredTags r.frontMatter) = some ["work"] := by decide +kernel
  have hinline : inlineTags fenced.body = ["home", "private"] := by decide +kernel
  have hmarker : hasMarker true (withoutCode fenced.body) = true := by decide +kernel
  have hfirst : ¬IsFence (firstLine fenced.body) := by decide +kernel
  obtain ⟨r, hr, hdeclared⟩ := exists_of_toOption_map hdeclared
  obtain ⟨htags, hprivate⟩ := hrecord fenced "a.md" _ r htext hr
  refine ⟨r, hr, ?_, hdeclared, ?_, ?_, hfirst, hplain _ hfirst⟩
  · obtain ⟨text, body, hdecoded, hread, -⟩ := exists_of_toRecord hr
    rw [htext] at hdecoded
    rw [← Except.ok.inj hdecoded] at hread
    rw [hread, fenced.body_eq hread]
  · rw [htags, hdeclared, hinline]
    rfl
  · rw [hprivate, isPrivateContent, hmarker, Bool.or_true]

theorem not_always_frontMatter : ¬∀ (_ : Yaml.Loader) (t : FencedText) (v : Value), Yaml.load t.block = .ok v →
    ∃ entries, frontMatter t.text = .ok (entries, t.body) := by
  intro h
  obtain ⟨n, hn⟩ := Text.exists_isLong
  let loader : Yaml.Loader := ⟨fun _ => .ok (.map [(.int n, .text "v")])⟩
  obtain ⟨entries, hread⟩ := h loader fenced _ rfl
  have hlong : entriesOf (.map [(.int n, .text "v")]) = .error .digits := by
    simp [entriesOf, Value.hasLong, hn]
  rw [FencedText.frontMatter_text] at hread
  change (entriesOf (.map [(.int n, .text "v")])).map _ = _ at hread
  rw [hlong] at hread
  cases hread

end NoteQuery.Note

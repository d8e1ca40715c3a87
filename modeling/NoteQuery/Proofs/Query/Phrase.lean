import NoteQuery.Proofs.Query.Reading

/-!
# Phrases read as clauses

A search knows no quotes: it reads a clause wherever a word may begin and a phrase of the clause's
form stands. These phrases are said here outright, one for each kind of clause, and a quote that
closes a text changes nothing about the phrases before it.
-/

namespace NoteQuery.Query

open NoteQuery.Text (isWord isFieldChar isDecimalDigit afterKeyword?)

/-! ## Where a search looks -/

/-- The ends of a text at which a word may begin, where a character may stand before the text. -/
inductive WordStart : Option Char → List Char → List Char → Prop
  | here {before : Option Char} {cs : List Char} : (∀ b ∈ before, isWord b = false) → WordStart before cs cs
  | later {before : Option Char} {c : Char} {cs after : List Char} :
      WordStart (some c) cs after → WordStart before (c :: cs) after

theorem WordStart.suffix {before : Option Char} {cs after : List Char} (h : WordStart before cs after) : after <:+ cs := by
  induction h with
  | here _ => exact List.suffix_rfl
  | later _ ih => exact ih.trans (List.suffix_cons _ _)

section
variable {α : Type} {f : List Char → Option α}

theorem tried_eq_none_iff {before : Option Char} {cs : List Char} :
    (if (before.map isWord).getD false then none else f cs) = none ↔
      ((∀ b ∈ before, isWord b = false) → f cs = none) := by
  cases before with
  | none => simp
  | some b => cases hb : isWord b <;> simp [hb]

theorem searchFrom_eq_none_iff : ∀ {cs : List Char} {before : Option Char},
    searchFrom f before cs = none ↔ ∀ after, WordStart before cs after → f after = none
  | [], before => by
    rw [searchFrom_nil, tried_eq_none_iff]
    constructor
    · intro h after hstart
      cases hstart with
      | here hword => exact h hword
    · intro h hword
      exact h [] (.here hword)
  | c :: cs, before => by
    rw [searchFrom_cons, Option.or_eq_none_iff, tried_eq_none_iff, searchFrom_eq_none_iff]
    constructor
    · rintro ⟨hhere, hlater⟩ after hstart
      cases hstart with
      | here hword => exact hhere hword
      | later hstart => exact hlater after hstart
    · intro h
      exact ⟨fun hword => h _ (.here hword), fun after hstart => h after (.later hstart)⟩

theorem tried_eq_some_iff {before : Option Char} {cs : List Char} {a : α} :
    (if (before.map isWord).getD false then none else f cs) = some a ↔
      (∀ b ∈ before, isWord b = false) ∧ f cs = some a := by
  cases before with
  | none => simp
  | some b => cases hb : isWord b <;> simp [hb]

theorem first_of_tried {before : Option Char} {cs : List Char} {a : α}
    (h : (if (before.map isWord).getD false then none else f cs) = some a) :
    ∃ after, WordStart before cs after ∧ f after = some a ∧
      ∀ earlier, WordStart before cs earlier → after.length < earlier.length → f earlier = none := by
  obtain ⟨hword, hfound⟩ := tried_eq_some_iff.mp h
  refine ⟨cs, .here hword, hfound, fun earlier hearlier hlonger => ?_⟩
  exact absurd hearlier.suffix.length_le (Nat.not_le_of_lt hlonger)

/-- What a search finds stands at the first place at which there is something to find. -/
theorem exists_first_of_searchFrom {a : α} : ∀ {cs : List Char} {before : Option Char}, searchFrom f before cs = some a →
    ∃ after, WordStart before cs after ∧ f after = some a ∧
      ∀ earlier, WordStart before cs earlier → after.length < earlier.length → f earlier = none
  | [], before, h => by
    rw [searchFrom_nil] at h
    exact first_of_tried h
  | c :: cs, before, h => by
    rw [searchFrom_cons] at h
    cases htried : (if (before.map isWord).getD false then none else f (c :: cs)) with
    | some found =>
      rw [htried, Option.some_or] at h
      obtain rfl := Option.some.inj h
      exact first_of_tried htried
    | none =>
      rw [htried, Option.none_or] at h
      obtain ⟨after, hstart, hfound, hfirst⟩ := exists_first_of_searchFrom h
      refine ⟨after, .later hstart, hfound, fun earlier hearlier hlonger => ?_⟩
      cases hearlier with
      | here hword => exact tried_eq_none_iff.mp htried hword
      | later hearlier => exact hfirst earlier hearlier hlonger

theorem WordStart.eq_of_length {before : Option Char} {cs after other : List Char} (h : WordStart before cs after)
    (hother : WordStart before cs other) (hlength : after.length = other.length) : after = other :=
  (List.suffix_of_suffix_length_le h.suffix hother.suffix hlength.le).eq_of_length hlength

theorem searchFrom_eq_some_iff {before : Option Char} {cs : List Char} {a : α} : searchFrom f before cs = some a ↔
    ∃ after, WordStart before cs after ∧ f after = some a ∧
      ∀ earlier, WordStart before cs earlier → after.length < earlier.length → f earlier = none := by
  constructor
  · exact exists_first_of_searchFrom
  · rintro ⟨after, hstart, hfound, hnone⟩
    cases hsearch : searchFrom f before cs with
    | none =>
      rw [searchFrom_eq_none_iff.mp hsearch after hstart] at hfound
      cases hfound
    | some b =>
      obtain ⟨first, hfirst, hb, hbefore⟩ := exists_first_of_searchFrom hsearch
      rcases Nat.lt_trichotomy after.length first.length with hlt | heq | hgt
      · rw [hnone first hfirst hlt] at hb
        cases hb
      · obtain rfl := hstart.eq_of_length hfirst heq
        exact hb.symm.trans hfound
      · rw [hbefore after hstart hgt] at hfound
        cases hfound

end

/-! ## A quote behind the text -/

theorem not_readsAs_quote {letter : Char} (h : letter.isLower = true) : Text.readsAs letter '"' = false := by
  cases hread : Text.readsAs letter '"' with
  | false => rfl
  | true => exact absurd (Text.isWord_of_readsAs h hread) (by decide)

theorem afterKeyword?_quote : ∀ {keyword : List Char}, (∀ letter ∈ keyword, letter.isLower = true) → ∀ cs,
    afterKeyword? keyword (cs ++ ['"']) = (afterKeyword? keyword cs).map (· ++ ['"'])
  | [], _, _ => rfl
  | k :: keyword, h, [] => by
    have hread := not_readsAs_quote (h k List.mem_cons_self)
    simp [afterKeyword?, hread]
  | k :: keyword, h, c :: cs => by
    rw [List.cons_append, afterKeyword?, afterKeyword?]
    split
    · exact afterKeyword?_quote (fun letter hletter => h letter (List.mem_cons_of_mem _ hletter)) cs
    · rfl

section
variable {keyword : List Char} (hk : IsKeyword keyword)
include hk

theorem afterWord?_quote (cs : List Char) :
    afterWord? keyword (cs ++ ['"']) = (afterWord? keyword cs).map (· ++ ['"']) := by
  rw [afterWord?, afterWord?, afterKeyword?_quote hk.2]
  cases afterKeyword? keyword cs with
  | none => rfl
  | some rest =>
    cases rest with
    | nil => rfl
    | cons c rest =>
      by_cases hc : c = ' '
      · subst hc
        rfl
      · simp [hc]

theorem afterSpacedWord?_quote (cs : List Char) :
    afterSpacedWord? keyword (cs ++ ['"']) = (afterSpacedWord? keyword cs).map (· ++ ['"']) := by
  cases cs with
  | nil => rfl
  | cons c cs =>
    by_cases hc : c = ' '
    · subst hc
      exact afterWord?_quote hk cs
    · simp [afterSpacedWord?, hc]

end

theorem run?_quote {p : Char → Bool} (hp : p '"' = false) (cs : List Char) :
    run? p (cs ++ ['"']) = (run? p cs).map fun (run, rest) => (run, rest ++ ['"']) := by
  have hspan : (cs ++ ['"']).takeWhile p = cs.takeWhile p ∧ (cs ++ ['"']).dropWhile p = cs.dropWhile p ++ ['"'] := by
    induction cs with
    | nil => simp [hp]
    | cons c cs ih => cases hc : p c <;> simp [hc, ih]
  rw [run?, run?, Text.span_eq, Text.span_eq, hspan.1, hspan.2]
  cases cs.takeWhile p <;> rfl

theorem wordEnds_quote (cs : List Char) : wordEnds (cs ++ ['"']) = wordEnds cs := by
  cases cs <;> rfl

theorem tagClause?_quote (cs : List Char) : tagClause? (cs ++ ['"']) = tagClause? cs := by
  rw [tagClause?, tagClause?, afterWord?_quote (by decide)]
  cases afterWord? "from".toList cs with
  | none => rfl
  | some rest =>
    cases rest with
    | nil => rfl
    | cons c rest =>
      by_cases hc : c = '#'
      · subst hc
        simp only [Option.map_some, List.cons_append]
        rw [run?_quote (by decide), Option.map_map]
        rfl
      · simp [hc]

theorem flattenClause?_quote (cs : List Char) : flattenClause? (cs ++ ['"']) = flattenClause? cs := by
  rw [flattenClause?, flattenClause?, afterWord?_quote (by decide)]
  cases afterWord? "flatten".toList cs with
  | none => rfl
  | some rest =>
    rw [Option.map_some, Option.bind_some, Option.bind_some, run?_quote rfl]
    cases run? isFieldChar rest with
    | none => rfl
    | some found =>
      rw [Option.map_some]
      dsimp only
      rw [afterSpacedWord?_quote (by decide)]
      cases afterSpacedWord? "as".toList found.2 with
      | none => rfl
      | some rest =>
        rw [Option.map_some, Option.bind_some, Option.bind_some, run?_quote rfl, Option.map_map]
        rfl

theorem groupClause?_quote (cs : List Char) : groupClause? (cs ++ ['"']) = groupClause? cs := by
  rw [groupClause?, groupClause?, afterWord?_quote (by decide)]
  cases afterWord? "group".toList cs with
  | none => rfl
  | some rest =>
    rw [Option.map_some, Option.bind_some, Option.bind_some, afterWord?_quote (by decide)]
    cases afterWord? "by".toList rest with
    | none => rfl
    | some rest =>
      rw [Option.map_some, Option.bind_some, Option.bind_some, run?_quote rfl, Option.map_map]
      rfl

theorem direction_quote (cs : List Char) : direction (cs ++ ['"']) = direction cs := by
  cases cs with
  | nil => rfl
  | cons c cs =>
    by_cases hc : c = ' '
    · subst hc
      have hdesc : ∀ letter ∈ "desc".toList, letter.isLower = true := by decide
      simp only [List.cons_append, direction, afterKeyword?_quote hdesc]
      cases afterKeyword? "desc".toList cs with
      | none => rfl
      | some rest => simp only [Option.map_some, wordEnds_quote]
    · simp [direction, hc]

theorem sortClause?_quote (cs : List Char) : sortClause? (cs ++ ['"']) = sortClause? cs := by
  rw [sortClause?, sortClause?, afterWord?_quote (by decide)]
  cases afterWord? "sort".toList cs with
  | none => rfl
  | some rest =>
    rw [Option.map_some, Option.bind_some, Option.bind_some, run?_quote rfl, Option.map_map]
    refine Option.map_congr fun found _ => ?_
    rw [Function.comp_apply]
    dsimp only
    rw [direction_quote]

theorem limitDigits?_quote (cs : List Char) : limitDigits? (cs ++ ['"']) = limitDigits? cs := by
  rw [limitDigits?, limitDigits?, afterWord?_quote (by decide)]
  cases afterWord? "limit".toList cs with
  | none => rfl
  | some rest =>
    rw [Option.map_some, Option.bind_some, Option.bind_some, run?_quote rfl, Option.map_map]
    rfl

theorem search_quote {α : Type} {f : List Char → Option α} {keyword : List Char} (hf : LedBy keyword f)
    (hk : IsKeyword keyword) (hquote : ∀ cs, f (cs ++ ['"']) = f cs) : ∀ (cs : List Char) (before : Option Char),
      searchFrom f before (cs ++ ['"']) = searchFrom f before cs
  | [], before => by
    have hnil : f [] = none := hf.eq_none_of_not_isWord hk fun c hc => by cases hc
    have hend := hquote []
    rw [List.nil_append] at hend
    rw [List.nil_append, searchFrom_cons, searchFrom_nil, searchFrom_nil, hend, hnil]
    simp
  | c :: cs, before => by
    have hhere := hquote (c :: cs)
    rw [List.cons_append] at hhere
    rw [List.cons_append, searchFrom_cons, searchFrom_cons, hhere, search_quote hf hk hquote cs (some c)]

/-! ## Phrases -/

/-- What is read as a clause, though it stands in the middle of other text. -/
inductive Phrase : List Char → Prop
  | tag {word rest : List Char} {c : Char} :
      Reads "from".toList word → isTagChar c = true → Phrase (word ++ ' ' :: '#' :: c :: rest)
  | flatten {word field as rest : List Char} {c : Char} :
      Reads "flatten".toList word → field ≠ [] → (∀ d ∈ field, isFieldChar d = true) → Reads "as".toList as →
      isWord c = true → Phrase (word ++ ' ' :: (field ++ ' ' :: (as ++ ' ' :: c :: rest)))
  | group {word by_ rest : List Char} {c : Char} :
      Reads "group".toList word → Reads "by".toList by_ → isFieldChar c = true →
      Phrase (word ++ ' ' :: (by_ ++ ' ' :: c :: rest))
  | sort {word rest : List Char} {c : Char} :
      Reads "sort".toList word → isSortChar c = true → Phrase (word ++ ' ' :: c :: rest)

def LimitsWith (digits cs : List Char) : Prop :=
  ∃ word rest, cs = word ++ ' ' :: (digits ++ rest) ∧ Reads "limit".toList word ∧ digits ≠ [] ∧
    (∀ c ∈ digits, isDecimalDigit c = true) ∧ (∀ c ∈ rest.head?, isDecimalDigit c = false)

def LimitsTo (n : Nat) (cs : List Char) : Prop := ∃ digits, LimitsWith digits cs ∧ Text.digitsValue digits = n

theorem exists_reads_of_afterWord? {keyword cs rest : List Char} (h : afterWord? keyword cs = some rest) :
    ∃ word, cs = word ++ ' ' :: rest ∧ Reads keyword word :=
  exists_reads (afterWord?_eq_some_iff.mp h)

theorem exists_reads_of_afterSpacedWord? {keyword cs rest : List Char} (h : afterSpacedWord? keyword cs = some rest) :
    ∃ word, cs = ' ' :: (word ++ ' ' :: rest) ∧ Reads keyword word := by
  unfold afterSpacedWord? at h
  split at h
  · obtain ⟨word, rfl, hread⟩ := exists_reads_of_afterWord? h
    exact ⟨word, rfl, hread⟩
  · cases h

theorem exists_cons_of_run? {p : Char → Bool} {cs : List Char} {found : List Char × List Char}
    (h : run? p cs = some found) : ∃ c rest, cs = c :: rest ∧ p c = true := by
  obtain ⟨run, rest⟩ := found
  obtain ⟨rfl, rfl, hne⟩ := run?_eq_some_iff.mp h
  cases cs with
  | nil => exact absurd rfl hne
  | cons c cs =>
    refine ⟨c, cs, rfl, ?_⟩
    cases hc : p c with
    | true => rfl
    | false => simp [hc] at hne

theorem exists_run?_cons {p : Char → Bool} {c : Char} (hc : p c = true) (rest : List Char) :
    ∃ found, run? p (c :: rest) = some found :=
  ⟨(_, _), run?_eq_some_iff.mpr ⟨rfl, rfl, by simp [hc]⟩⟩

theorem exists_append_of_run? {p : Char → Bool} {cs run rest : List Char} (h : run? p cs = some (run, rest)) :
    cs = run ++ rest ∧ run ≠ [] ∧ (∀ c ∈ run, p c = true) ∧ ∀ c ∈ rest.head?, p c = false := by
  have hrun := fun c => @of_mem_run? p cs run rest h c
  obtain ⟨rfl, rfl, hne⟩ := run?_eq_some_iff.mp h
  refine ⟨List.takeWhile_append_dropWhile.symm, hne, hrun, fun c hc => ?_⟩
  have hhead := List.head?_dropWhile_not p cs
  rw [Option.mem_def.mp hc] at hhead
  simpa using hhead

theorem phrase_of_tagClause? {cs : List Char} {a : Source} (h : tagClause? cs = some a) : Phrase cs := by
  unfold tagClause? at h
  split at h
  · rename_i inside hafter
    obtain ⟨word, rfl, hread⟩ := exists_reads_of_afterWord? hafter
    obtain ⟨found, hrun, -⟩ := Option.map_eq_some_iff.mp h
    obtain ⟨c, rest, rfl, hc⟩ := exists_cons_of_run? hrun
    exact .tag hread hc
  · cases h

theorem phrase_of_flattenClause? {cs : List Char} {a : Flatten} (h : flattenClause? cs = some a) : Phrase cs := by
  unfold flattenClause? at h
  split at h
  · rename_i field rest hfield
    obtain ⟨after, hafter, hrun⟩ := Option.bind_eq_some_iff.mp hfield
    obtain ⟨word, rfl, hread⟩ := exists_reads_of_afterWord? hafter
    obtain ⟨rfl, hne, hchars, -⟩ := exists_append_of_run? hrun
    obtain ⟨found, hname, -⟩ := Option.map_eq_some_iff.mp h
    obtain ⟨name, has, hlast⟩ := Option.bind_eq_some_iff.mp hname
    obtain ⟨as, rfl, hreadAs⟩ := exists_reads_of_afterSpacedWord? has
    obtain ⟨c, rest, rfl, hc⟩ := exists_cons_of_run? hlast
    exact .flatten hread hne hchars hreadAs hc
  · cases h

theorem phrase_of_groupClause? {cs : List Char} {a : String} (h : groupClause? cs = some a) : Phrase cs := by
  obtain ⟨found, hfound, -⟩ := Option.map_eq_some_iff.mp h
  obtain ⟨after, hwords, hrun⟩ := Option.bind_eq_some_iff.mp hfound
  obtain ⟨first, hgroup, hby⟩ := Option.bind_eq_some_iff.mp hwords
  obtain ⟨word, rfl, hread⟩ := exists_reads_of_afterWord? hgroup
  obtain ⟨by_, rfl, hreadBy⟩ := exists_reads_of_afterWord? hby
  obtain ⟨c, rest, rfl, hc⟩ := exists_cons_of_run? hrun
  exact .group hread hreadBy hc

theorem phrase_of_sortClause? {cs : List Char} {a : List Char × Direction} (h : sortClause? cs = some a) :
    Phrase cs := by
  obtain ⟨found, hfound, -⟩ := Option.map_eq_some_iff.mp h
  obtain ⟨after, hsort, hrun⟩ := Option.bind_eq_some_iff.mp hfound
  obtain ⟨word, rfl, hread⟩ := exists_reads_of_afterWord? hsort
  obtain ⟨c, rest, rfl, hc⟩ := exists_cons_of_run? hrun
  exact .sort hread hc

theorem read_of_phrase {cs : List Char} (h : Phrase cs) : tagClause? cs ≠ none ∨ flattenClause? cs ≠ none ∨
    groupClause? cs ≠ none ∨ sortClause? cs ≠ none := by
  cases h with
  | @tag word rest c hread hc =>
    obtain ⟨found, hfound⟩ := exists_run?_cons hc rest
    left
    rw [tagClause?, afterWord?_of_reads hread]
    change (run? isTagChar (c :: rest)).map _ ≠ none
    rw [hfound]
    exact Option.some_ne_none _
  | @flatten word field as rest c hread hne hchars hreadAs hc =>
    obtain ⟨found, hfound⟩ := exists_run?_cons hc rest
    -- the field ends at the space before `AS`
    have hrun := run?_append hne hchars
      ((atBreak_space (as ++ ' ' :: c :: rest)).not_of_space (p := isFieldChar) rfl)
    right; left
    rw [flattenClause?, afterWord?_of_reads hread, Option.bind_some, hrun]
    dsimp only
    rw [afterSpacedWord?, afterWord?_of_reads hreadAs, Option.bind_some, hfound]
    exact Option.some_ne_none _
  | @group word by_ rest c hread hreadBy hc =>
    obtain ⟨found, hfound⟩ := exists_run?_cons hc rest
    right; right; left
    rw [groupClause?, afterWord?_of_reads hread, Option.bind_some, afterWord?_of_reads hreadBy, Option.bind_some, hfound]
    exact Option.some_ne_none _
  | @sort word rest c hread hc =>
    obtain ⟨found, hfound⟩ := exists_run?_cons hc rest
    right; right; right
    rw [sortClause?, afterWord?_of_reads hread, Option.bind_some, hfound]
    exact Option.some_ne_none _

theorem limitDigits?_eq_some_iff {cs digits : List Char} : limitDigits? cs = some digits ↔ LimitsWith digits cs := by
  constructor
  · intro h
    obtain ⟨⟨run, rest⟩, hfound, rfl⟩ := Option.map_eq_some_iff.mp h
    obtain ⟨after, hlimit, hrun⟩ := Option.bind_eq_some_iff.mp hfound
    obtain ⟨word, rfl, hread⟩ := exists_reads_of_afterWord? hlimit
    obtain ⟨rfl, hne, hdigits, hrest⟩ := exists_append_of_run? hrun
    exact ⟨word, rest, rfl, hread, hne, hdigits, hrest⟩
  · rintro ⟨word, rest, rfl, hread, hne, hdigits, hrest⟩
    rw [limitDigits?, afterWord?_of_reads hread, Option.bind_some, run?_append hne hdigits hrest]
    rfl

theorem limitClause?_eq_some_iff {cs : List Char} {n : Nat} : limitClause? cs = some n ↔ LimitsTo n cs := by
  unfold limitClause? LimitsTo
  simp only [Option.map_eq_some_iff, limitDigits?_eq_some_iff]

/-! ## Limits that are too long -/

def HasLongLimit (cs : List Char) : Prop :=
  ∃ after digits, WordStart none cs after ∧ LimitsWith digits after ∧ Text.maxDigits < digits.length ∧
    ∀ earlier other, WordStart none cs earlier → after.length < earlier.length → ¬LimitsWith other earlier

theorem search_limitDigits?_eq_some_iff {cs digits : List Char} : search limitDigits? cs = some digits ↔
    ∃ after, WordStart none cs after ∧ LimitsWith digits after ∧
      ∀ earlier other, WordStart none cs earlier → after.length < earlier.length → ¬LimitsWith other earlier := by
  unfold search
  rw [searchFrom_eq_some_iff]
  simp only [limitDigits?_eq_some_iff, Option.eq_none_iff_forall_ne_some, ne_eq]
  constructor
  · rintro ⟨after, hstart, hlimit, hnone⟩
    exact ⟨after, hstart, hlimit, fun earlier other hearlier hlonger => hnone earlier hearlier hlonger other⟩
  · rintro ⟨after, hstart, hlimit, hnone⟩
    exact ⟨after, hstart, hlimit, fun earlier hearlier hlonger other => hnone earlier other hearlier hlonger⟩

theorem hasLongLimit_iff {cs : List Char} :
    HasLongLimit cs ↔ ∃ digits, search limitDigits? cs = some digits ∧ Text.maxDigits < digits.length := by
  simp only [search_limitDigits?_eq_some_iff]
  constructor
  · intro ⟨after, digits, hstart, hlimit, hlong, hfirst⟩
    exact ⟨digits, ⟨after, hstart, hlimit, hfirst⟩, hlong⟩
  · intro ⟨digits, ⟨after, hstart, hlimit, hfirst⟩, hlong⟩
    exact ⟨after, digits, hstart, hlimit, hlong, hfirst⟩

theorem checkDigits_limit (cs : List Char) :
    HasLongLimit cs ∧ (∃ n, checkDigits ((search limitDigits? cs).getD []) = .error (.digits n)) ∨
      ¬HasLongLimit cs ∧ checkDigits ((search limitDigits? cs).getD []) = .ok () := by
  rw [hasLongLimit_iff]
  unfold checkDigits
  cases search limitDigits? cs with
  | none => exact Or.inr ⟨fun ⟨_, hsome, _⟩ => (nomatch hsome), if_neg (Nat.not_lt_zero _)⟩
  | some digits =>
    by_cases hlong : Text.maxDigits < digits.length
    · exact Or.inl ⟨⟨digits, rfl, hlong⟩, digits.length, if_pos hlong⟩
    · refine Or.inr ⟨fun ⟨other, hsome, hother⟩ => hlong ?_, if_neg hlong⟩
      rwa [Option.some.inj hsome]

/-! ## Texts without phrases -/

theorem forall_not_phrase_iff {cs : List Char} : (∀ after, WordStart none cs after → ¬Phrase after) ↔
    search tagClause? cs = none ∧ search flattenClause? cs = none ∧ search groupClause? cs = none ∧
      search sortClause? cs = none := by
  simp only [search, searchFrom_eq_none_iff]
  constructor
  · intro h
    refine ⟨fun after hstart => ?_, fun after hstart => ?_, fun after hstart => ?_, fun after hstart => ?_⟩
    · exact Option.eq_none_iff_forall_ne_some.mpr fun a ha => h after hstart (phrase_of_tagClause? ha)
    · exact Option.eq_none_iff_forall_ne_some.mpr fun a ha => h after hstart (phrase_of_flattenClause? ha)
    · exact Option.eq_none_iff_forall_ne_some.mpr fun a ha => h after hstart (phrase_of_groupClause? ha)
    · exact Option.eq_none_iff_forall_ne_some.mpr fun a ha => h after hstart (phrase_of_sortClause? ha)
  · rintro ⟨htag, hflatten, hgroup, hsort⟩ after hstart hphrase
    rcases read_of_phrase hphrase with h | h | h | h
    · exact h (htag after hstart)
    · exact h (hflatten after hstart)
    · exact h (hgroup after hstart)
    · exact h (hsort after hstart)

/-- A limit of zero is none, and it hides every limit after it. -/
theorem filter_search_limit_eq_none_iff {cs : List Char} : (search limitClause? cs).filter (0 < ·) = none ↔
    ∀ after n, WordStart none cs after → LimitsTo n after → 0 < n →
      ∃ earlier, WordStart none cs earlier ∧ after.length < earlier.length ∧ LimitsTo 0 earlier := by
  simp only [← limitClause?_eq_some_iff]
  cases hsearch : search limitClause? cs with
  | none =>
    refine iff_of_true rfl fun after n hstart hlimit _ => ?_
    rw [searchFrom_eq_none_iff.mp hsearch after hstart] at hlimit
    cases hlimit
  | some m =>
    -- only the first limit of the text counts
    obtain ⟨first, hfirst, hfound, hnone⟩ := exists_first_of_searchFrom hsearch
    rw [Option.filter_some]
    constructor
    · intro h after n hstart hlimit hn
      have hm : m = 0 := by
        by_contra hne
        rw [if_pos (by simpa using Nat.pos_of_ne_zero hne)] at h
        cases h
      subst hm
      refine ⟨first, hfirst, ?_, hfound⟩
      by_contra hle
      rcases Nat.lt_or_eq_of_le (Nat.le_of_not_lt hle) with hlt | heq
      · rw [hnone after hstart hlt] at hlimit
        cases hlimit
      · obtain rfl := hfirst.eq_of_length hstart heq
        rw [hfound] at hlimit
        cases hlimit
        cases hn
    · intro h
      refine if_neg fun hm => ?_
      obtain ⟨earlier, hearlier, hlonger, hzero⟩ := h first m hfirst hfound (by simpa using hm)
      rw [hnone earlier hearlier hlonger] at hzero
      cases hzero

end NoteQuery.Query

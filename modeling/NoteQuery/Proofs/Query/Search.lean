import NoteQuery.Proofs.Query.Keyword
import NoteQuery.Query.Parser

/-!
# Searching a text of several parts

A search looks at the start of each run. So over a text that is put together from parts, each
a keyword and a body free of the keyword that is searched for, it tries the recogniser once
for each part. The texts of `WHERE` clauses are found in the same way, all of them.
-/

namespace NoteQuery.Query

open NoteQuery.Text (isWord afterKeyword?)

section
variable {α : Type} {f : List Char → Option α} {keyword : List Char}
variable (hf : LedBy keyword f) (hk : IsKeyword keyword)

theorem searchFrom_nil (before : Option Char) :
    searchFrom f before [] = if (before.map isWord).getD false then none else f [] := by
  unfold searchFrom
  split <;> simp_all

theorem searchFrom_cons (before : Option Char) (c : Char) (cs : List Char) :
    searchFrom f before (c :: cs) =
      (if (before.map isWord).getD false then none else f (c :: cs)).or (searchFrom f (some c) cs) := by
  conv => lhs; unfold searchFrom
  split <;> simp_all

theorem searchFrom_map {β : Type} (g : α → β) :
    ∀ (before : Option Char) (cs : List Char), searchFrom (fun cs => (f cs).map g) before cs = (searchFrom f before cs).map g
  | before, [] => by
    rw [searchFrom_nil, searchFrom_nil]
    split <;> rfl
  | before, c :: cs => by
    rw [searchFrom_cons, searchFrom_cons, searchFrom_map g, Option.map_or]
    split <;> rfl

theorem search_of_some {cs : List Char} {a : α} (h : f cs = some a) : search f cs = some a := by
  unfold search
  cases cs with
  | nil => simp [searchFrom_nil, h]
  | cons c cs => simp [searchFrom_cons, h]

theorem searchFrom_of_isWord {b : Char} (hb : isWord b = true) (c : Char) (cs : List Char) :
    searchFrom f (some b) (c :: cs) = searchFrom f (some c) cs := by
  simp [searchFrom_cons, hb]

theorem searchFrom_of_none (before : Option Char) {c : Char} {cs : List Char} (h : f (c :: cs) = none) :
    searchFrom f before (c :: cs) = searchFrom f (some c) cs := by
  simp [searchFrom_cons, h]

theorem searchFrom_of_not_isWord {b : Char} (hb : isWord b = false) (cs : List Char) :
    searchFrom f (some b) cs = search f cs := by
  unfold search
  cases cs with
  | nil => simp [searchFrom_nil, hb]
  | cons c cs => simp [searchFrom_cons, hb]

theorem searchFrom_word : ∀ {word : List Char}, (∀ c ∈ word, isWord c = true) → ∀ {b : Char},
    isWord b = true → ∀ cs, searchFrom f (some b) (word ++ ' ' :: cs) = search f cs
  | [], _, b, hb, cs => by rw [List.nil_append, searchFrom_of_isWord hb, searchFrom_of_not_isWord isWord_space]
  | c :: word, hword, b, hb, cs => by
    rw [List.cons_append, searchFrom_of_isWord hb]
    exact searchFrom_word (fun d hd => hword d (List.mem_cons_of_mem _ hd)) (hword c (List.mem_cons_self ..)) cs

include hf hk

theorem LedBy.eq_none_of_not_isWord {cs : List Char} (hcs : ∀ c ∈ cs.head?, isWord c = false) : f cs = none := by
  refine hf cs ?_
  rw [afterWord?, afterKeyword?_of_not_isWord hk hcs]

theorem search_nil : search f [] = none := by
  rw [search, searchFrom_nil, hf.eq_none_of_not_isWord hk fun c hc => by cases hc]
  rfl

theorem searchFrom_of_atBreak (before : Option Char) {rest : List Char} (hrest : AtBreak rest) :
    searchFrom f before rest = search f rest := by
  have hnone : f rest = none := hf.eq_none_of_not_isWord hk fun c hc => by rw [hrest c hc]; rfl
  cases rest with
  | nil => simp [search, searchFrom_nil, hnone]
  | cons c rest => rw [search, searchFrom_of_none before hnone, searchFrom_of_none none hnone]

-- the text stays free as a whole: what stands before may be the start of a run that goes on
theorem searchFrom_append_of_free {rest : List Char} (hrest : AtBreak rest) :
    ∀ (cs before : List Char), Free [keyword] (before ++ cs) →
      searchFrom f before.getLast? (cs ++ rest) = search f rest
  | [], before, _ => searchFrom_of_atBreak hf hk before.getLast? hrest
  | c :: cs, before, hfree => by
    have hstep : searchFrom f before.getLast? (c :: (cs ++ rest)) = searchFrom f (some c) (cs ++ rest) := by
      rcases List.eq_nil_or_concat before with rfl | ⟨before, b, rfl⟩
      · exact searchFrom_of_none none (hf _ (afterWord?_of_free hfree (List.mem_singleton_self _) hk hrest))
      · rw [List.concat_eq_append, List.getLast?_concat]
        rw [List.concat_eq_append, List.append_assoc] at hfree
        cases hb : isWord b with
        | true => exact searchFrom_of_isWord hb c _
        | false =>
          have hrun : Free [keyword] (c :: cs) := ((free_append_cons hb before (c :: cs)).mp hfree).2
          exact searchFrom_of_none _ (hf _ (afterWord?_of_free hrun (List.mem_singleton_self _) hk hrest))
    have ih := searchFrom_append_of_free hrest cs (before ++ [c]) (by simpa using hfree)
    rw [List.getLast?_concat] at ih
    rw [List.cons_append, hstep, ih]

theorem search_append_of_free {cs rest : List Char} (hfree : Free [keyword] cs) (hrest : AtBreak rest) :
    search f (cs ++ rest) = search f rest :=
  searchFrom_append_of_free hf hk hrest cs [] hfree

theorem search_of_free {cs : List Char} (hfree : Free [keyword] cs) : search f cs = none := by
  have hpass := search_append_of_free hf hk hfree atBreak_nil
  rwa [List.append_nil, search_nil hf hk] at hpass

theorem search_space (cs : List Char) : search f (' ' :: cs) = search f cs := by
  have hnone : f (' ' :: cs) = none := hf.eq_none_of_not_isWord hk fun c hc => by
    rw [Option.mem_some.mp hc.symm]
    rfl
  rw [search, searchFrom_of_none none hnone, searchFrom_of_not_isWord isWord_space]

/-- A part is tried where its first word stands, and nowhere else. -/
theorem search_part {word body rest : List Char} (hword : ∀ c ∈ word, isWord c = true) (hne : word ≠ [])
    (hbody : Free [keyword] body) (hrest : AtBreak rest) :
    search f (word ++ ' ' :: body ++ rest) = (f (word ++ ' ' :: body ++ rest)).or (search f rest) := by
  obtain ⟨c, word, rfl⟩ := List.exists_cons_of_ne_nil hne
  cases h : f (c :: word ++ ' ' :: body ++ rest) with
  | some a =>
    rw [List.cons_append, List.cons_append] at h ⊢
    rw [search, searchFrom_cons, h]
    rfl
  | none =>
    have hc : isWord c = true := hword c (List.mem_cons_self ..)
    have hrun : ∀ d ∈ word, isWord d = true := fun d hd => hword d (List.mem_cons_of_mem _ hd)
    have hinside := searchFrom_word (f := f) hrun hc (body ++ rest)
    simp only [List.cons_append] at h
    rw [search, List.cons_append, List.cons_append, searchFrom_of_none none h, List.append_assoc,
      List.cons_append, hinside, search_append_of_free hf hk hbody hrest, Option.none_or]

end

/-! ## Free clauses -/

theorem isKeyword_of_clauseKeywords : ∀ keyword ∈ clauseKeywords, IsKeyword keyword := by decide

theorem atBreak_of_clauseEnds {rest : List Char} (h : clauseEnds rest = true) : AtBreak rest := by
  cases rest with
  | nil => exact atBreak_nil
  | cons c rest =>
    simp only [clauseEnds, Bool.and_eq_true, beq_iff_eq] at h
    rw [h.1]
    exact atBreak_space rest

theorem clauseEnds_of_free {c : Char} {cs rest : List Char} (hfree : c = ' ' → Free clauseKeywords cs)
    (hrest : AtBreak rest) : clauseEnds (c :: (cs ++ rest)) = false := by
  rw [clauseEnds, Bool.and_eq_false_iff]
  by_cases hc : c = ' '
  · refine Or.inr (List.any_eq_false.mpr fun keyword hmem => ?_)
    split
    · rename_i after h
      rw [wordEnds_of_free (hfree hc) hmem (isKeyword_of_clauseKeywords keyword hmem) hrest h]
      exact Bool.false_ne_true
    · exact Bool.false_ne_true
  · exact Or.inl (by simpa using hc)

theorem untilClause_append_of_free {rest : List Char} (hrest : AtBreak rest) : ∀ (cs before : List Char),
    Free clauseKeywords (before ++ cs) → untilClause (cs ++ rest) = (cs ++ (untilClause rest).1, (untilClause rest).2)
  | [], _, _ => rfl
  | c :: cs, before, hfree => by
    have hon : clauseEnds (c :: (cs ++ rest)) = false := by
      refine clauseEnds_of_free (fun hc => ?_) hrest
      subst hc
      exact ((free_append_cons isWord_space before cs).mp hfree).2
    have ih := untilClause_append_of_free hrest cs (before ++ [c]) (by simpa using hfree)
    rw [List.cons_append, untilClause, hon, ih]
    rfl

theorem untilClause_of_free {rest : List Char} (hrest : clauseEnds rest = true) {cs : List Char} (before : List Char)
    (hfree : Free clauseKeywords (before ++ cs)) : untilClause (cs ++ rest) = (cs, rest) := by
  have hstop : untilClause rest = ([], rest) := by
    cases rest with
    | nil => rfl
    | cons c rest => rw [untilClause, if_pos hrest]
  rw [untilClause_append_of_free (atBreak_of_clauseEnds hrest) cs before hfree, hstop, List.append_nil]

theorem freeClause?_append {cs rest : List Char} (hne : cs ≠ []) (hfree : Free clauseKeywords cs)
    (hrest : clauseEnds rest = true) : freeClause? (cs ++ rest) = some (cs, rest) := by
  obtain ⟨c, cs, rfl⟩ := List.exists_cons_of_ne_nil hne
  rw [List.cons_append, freeClause?, untilClause_of_free hrest [c] hfree]

/-! ## All `WHERE` clauses -/

def whereClause? (cs : List Char) : Option (List Char × List Char) :=
  (afterWord? "where".toList cs).bind freeClause?

theorem whereClause?_ledBy : LedBy "where".toList whereClause? := fun cs h => by
  rw [whereClause?, h, Option.bind_none]

theorem length_of_whereClause? {cs inside rest : List Char} (h : whereClause? cs = some (inside, rest)) :
    rest.length < cs.length := by
  obtain ⟨after, hafter, hfree⟩ := Option.bind_eq_some_iff.mp h
  obtain ⟨run, rfl, -⟩ := exists_reads (afterWord?_eq_some_iff.mp hafter)
  cases after with
  | nil => cases hfree
  | cons c after =>
    simp only [freeClause?, Option.some.injEq, Prod.mk.injEq] at hfree
    have hsplit := congrArg List.length (untilClause_append after)
    simp only [List.length_append, List.length_cons, ← hfree.2] at hsplit ⊢
    omega

def whereTexts (cs : List Char) : List (List Char) := whereClauses (cs.length + 1) none cs

theorem whereClauses_eq (steps : Nat) : ∀ (before : Option Char) (cs : List Char), cs.length < steps →
    whereClauses steps before cs =
      match searchFrom whereClause? before cs with
      | some (inside, rest) => inside :: whereTexts rest
      | none => [] := by
  induction steps using Nat.strong_induction_on with
  | _ steps ih =>
    intro before cs hsteps
    cases steps with
    | zero => cases hsteps
    | succ steps =>
      cases cs with
      | nil =>
        have hnone : whereClause? [] = none := rfl
        simp [whereClauses, searchFrom_nil, hnone]
      | cons c cs =>
        have hlen : cs.length < steps := by simpa using hsteps
        rw [searchFrom_cons]
        by_cases hb : (before.map isWord).getD false = true
        · simp only [whereClauses, hb, if_true, Option.none_or]
          exact ih steps (Nat.lt_succ_self _) (some c) cs hlen
        · simp only [whereClauses, hb, if_false, Bool.false_eq_true]
          rw [← whereClause?]
          cases hclause : whereClause? (c :: cs) with
          | none => exact ih steps (Nat.lt_succ_self _) (some c) cs hlen
          | some found =>
            -- the search goes on behind the clause, with more steps than it needs
            obtain ⟨inside, rest⟩ := found
            have hrest : rest.length < cs.length + 1 := length_of_whereClause? hclause
            have hmore := ih steps (Nat.lt_succ_self _) none rest (by omega)
            have hexact := ih (rest.length + 1) (by omega) none rest (Nat.lt_succ_self _)
            simp only [Option.some_or, whereTexts, hmore, hexact]

theorem whereTexts_eq (cs : List Char) :
    whereTexts cs =
      match search whereClause? cs with
      | some (inside, rest) => inside :: whereTexts rest
      | none => [] :=
  whereClauses_eq (cs.length + 1) none cs (Nat.lt_succ_self _)

end NoteQuery.Query

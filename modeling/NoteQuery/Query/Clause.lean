import NoteQuery.Text.Blank
import NoteQuery.Text.Case
import NoteQuery.Text.Word

/-!
# Clauses of a query text

Recognisers on the squeezed text of a query, in which words are separated by single spaces.
A clause begins at a keyword, in any letter case, that no word character precedes; where a
clause is free text it ends before a space and a clause keyword, or at the end of the text.
-/

namespace NoteQuery.Query

def wordEnds : List Char → Bool
  | [] => true
  | c :: _ => !Text.isWord c

def clauseKeywords : List (List Char) :=
  ["from", "where", "flatten", "group", "sort", "limit"].map String.toList

def afterWord? (keyword cs : List Char) : Option (List Char) :=
  match Text.afterKeyword? keyword cs with
  | some (' ' :: rest) => some rest
  | _ => none

def afterSpacedWord? (keyword : List Char) : List Char → Option (List Char)
  | ' ' :: rest => afterWord? keyword rest
  | _ => none

def clauseEnds : List Char → Bool
  | [] => true
  | c :: cs =>
    c == ' ' && clauseKeywords.any fun keyword =>
      match Text.afterKeyword? keyword cs with
      | some rest => wordEnds rest
      | none => false

def untilClause : List Char → List Char × List Char
  | [] => ([], [])
  | c :: cs =>
    if clauseEnds (c :: cs) then ([], c :: cs)
    else
      let (inside, rest) := untilClause cs
      (c :: inside, rest)

def freeClause? : List Char → Option (List Char × List Char)
  | [] => none
  | c :: cs =>
    let (inside, rest) := untilClause cs
    some (c :: inside, rest)

def run? (p : Char → Bool) (cs : List Char) : Option (List Char × List Char) :=
  match cs.span p with
  | ([], _) => none
  | (run, rest) => some (run, rest)

/-- The first place where `f` succeeds and no word character stands before it. -/
def searchFrom {α : Type} (f : List Char → Option α) : (before : Option Char) → List Char → Option α
  | before, cs =>
    match (if (before.map Text.isWord).getD false then none else f cs), cs with
    | some a, _ => some a
    | none, [] => none
    | none, c :: rest => searchFrom f (some c) rest

def search {α : Type} (f : List Char → Option α) (cs : List Char) : Option α := searchFrom f none cs

/-! ## Runs and free clauses -/

theorem untilClause_append : ∀ cs, (untilClause cs).1 ++ (untilClause cs).2 = cs
  | [] => rfl
  | c :: cs => by
    unfold untilClause
    split
    · rfl
    · simp [untilClause_append cs]

theorem run?_eq_some_iff {p : Char → Bool} {cs run rest : List Char} :
    run? p cs = some (run, rest) ↔ run = cs.takeWhile p ∧ rest = cs.dropWhile p ∧ run ≠ [] := by
  rw [run?, Text.span_eq]
  split
  · rename_i heq
    have hnil := (Prod.mk.inj heq).1
    simp [hnil]
    intro h _
    exact h
  · rename_i a b hne heq
    obtain ⟨h1, h2⟩ := Prod.mk.inj heq
    constructor
    · intro h
      cases h
      exact ⟨h1.symm, h2.symm, fun h => hne (by rw [h])⟩
    · rintro ⟨rfl, rfl, _⟩
      rw [h1, h2]

theorem of_mem_run? {p : Char → Bool} {cs run rest : List Char} (h : run? p cs = some (run, rest))
    {c : Char} (hc : c ∈ run) : p c = true := by
  rw [(run?_eq_some_iff.mp h).1] at hc
  exact List.all_eq_true.mp (List.all_takeWhile) c hc

end NoteQuery.Query

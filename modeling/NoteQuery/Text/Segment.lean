import NoteQuery.Text.Blank

/-!
# Segments of paths, tags and field names

Texts cut at one character, and tests and trims at their ends.
-/

namespace NoteQuery.Text

def segments (sep : Char) (s : String) : List String := (cutAt sep s.toList).map String.ofList

def after? : (head cs : List Char) → Option (List Char)
  | [], cs => some cs
  | _ :: _, [] => none
  | h :: head, c :: cs => if h == c then after? head cs else none

def startsWith (head cs : List Char) : Bool := (after? head cs).isSome

def occursIn (needle : List Char) : List Char → Bool
  | [] => needle.isEmpty
  | c :: cs => startsWith needle (c :: cs) || occursIn needle cs

def dropAll (c : Char) (cs : List Char) : List Char := cs.dropWhile (· == c)

def stripAll (c : Char) (cs : List Char) : List Char :=
  (dropAll c (dropAll c cs).reverse).reverse

def dropOne (c : Char) : List Char → List Char
  | [] => []
  | d :: cs => if d == c then cs else d :: cs

def dropTail (tail cs : List Char) : List Char :=
  match after? tail.reverse cs.reverse with
  | some rest => rest.reverse
  | none => cs

def splitLast? (sep : Char) (cs : List Char) : Option (List Char × List Char) :=
  let tail := (cs.reverse.takeWhile (· != sep)).reverse
  match cs.reverse.dropWhile (· != sep) with
  | [] => none
  | _ :: head => some (head.reverse, tail)

/-! ## What the tests say -/

theorem after?_eq_some_iff : ∀ {head cs rest : List Char},
    after? head cs = some rest ↔ cs = head ++ rest
  | [], cs, rest => by simp [after?]
  | h :: head, [], rest => by simp [after?]
  | h :: head, c :: cs, rest => by
    by_cases hc : h = c
    · simp [after?, hc, after?_eq_some_iff]
    · simp [after?, hc, Ne.symm hc]

theorem startsWith_iff {head cs : List Char} : startsWith head cs = true ↔ head <+: cs := by
  rw [startsWith, Option.isSome_iff_exists]
  constructor
  · rintro ⟨rest, h⟩
    exact ⟨rest, (after?_eq_some_iff.mp h).symm⟩
  · rintro ⟨rest, h⟩
    exact ⟨rest, after?_eq_some_iff.mpr h.symm⟩

theorem occursIn_iff {needle : List Char} : ∀ {cs : List Char}, occursIn needle cs = true ↔ needle <:+: cs
  | [] => by simp [occursIn]
  | c :: cs => by
    rw [occursIn, Bool.or_eq_true, startsWith_iff, occursIn_iff, List.infix_cons_iff]

theorem dropTail_append (tail cs : List Char) : dropTail tail (cs ++ tail) = cs := by
  have h : after? tail.reverse (cs ++ tail).reverse = some cs.reverse := by
    rw [after?_eq_some_iff, List.reverse_append]
  rw [dropTail, h]
  exact List.reverse_reverse cs

end NoteQuery.Text

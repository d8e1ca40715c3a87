/-!
# Blanks

Which characters separate words, and trimming and splitting at them.
-/

namespace NoteQuery.Text

/-- Blanks: tab to carriage return, the four information separators, the space, and the
spaces and separators of Unicode. -/
def isBlank (c : Char) : Bool :=
  let n := c.toNat
  (9 ≤ n && n ≤ 13) || (28 ≤ n && n ≤ 32) || n == 0x85 || n == 0xa0 || n == 0x1680 ||
    (0x2000 ≤ n && n ≤ 0x200a) || n == 0x2028 || n == 0x2029 || n == 0x202f || n == 0x205f ||
    n == 0x3000

def dropBlanks (cs : List Char) : List Char := cs.dropWhile isBlank

def dropFinalBlanks (cs : List Char) : List Char := (cs.reverse.dropWhile isBlank).reverse

def trim (cs : List Char) : List Char := dropFinalBlanks (dropBlanks cs)

/-- Cuts a text at every character that satisfies `p`, which is dropped. There is always one
piece more than there are cuts. -/
def cutWhere (p : Char → Bool) : List Char → List (List Char)
  | [] => [[]]
  | c :: cs =>
    if p c then [] :: cutWhere p cs
    else
      match cutWhere p cs with
      | [] => [[c]]
      | piece :: pieces => (c :: piece) :: pieces

def cutAt (sep : Char) (cs : List Char) : List (List Char) := cutWhere (· == sep) cs

def words (cs : List Char) : List (List Char) := (cutWhere isBlank cs).filter (· ≠ [])

def joinWith (sep : List Char) : List (List Char) → List Char
  | [] => []
  | [piece] => piece
  | piece :: pieces => piece ++ sep ++ joinWith sep pieces

/-- One space between words, none at the ends. -/
def squeeze (cs : List Char) : List Char := joinWith [' '] (words cs)

/-! ## Cutting and joining -/

theorem spanLoop_eq (p : Char → Bool) : ∀ cs taken : List Char,
    List.span.loop p cs taken = (taken.reverse ++ cs.takeWhile p, cs.dropWhile p)
  | [], taken => by
    show (taken.reverse, []) = _
    simp
  | c :: cs, taken => by
    show (match p c with
      | true => List.span.loop p cs (c :: taken)
      | false => (taken.reverse, c :: cs)) = _
    cases h : p c with
    | true => simp [h, spanLoop_eq p cs]
    | false => simp [h]

theorem span_eq (p : Char → Bool) (cs : List Char) : cs.span p = (cs.takeWhile p, cs.dropWhile p) :=
  spanLoop_eq p cs []

theorem span_append {p : Char → Bool} {cs rest : List Char} (hcs : ∀ c ∈ cs, p c = true)
    (hrest : ∀ c ∈ rest.head?, p c = false) : (cs ++ rest).span p = (cs, rest) := by
  rw [span_eq, List.takeWhile_append_of_pos hcs, List.dropWhile_append_of_pos hcs]
  cases rest with
  | nil => simp
  | cons c rest => simp [hrest c rfl]

theorem joinWith_cons (sep piece : List Char) {pieces : List (List Char)} (h : pieces ≠ []) :
    joinWith sep (piece :: pieces) = piece ++ sep ++ joinWith sep pieces := by
  cases pieces with
  | nil => exact absurd rfl h
  | cons _ _ => rfl

theorem cutWhere_ne_nil (p : Char → Bool) : ∀ cs, cutWhere p cs ≠ []
  | [] => by simp [cutWhere]
  | c :: cs => by
    unfold cutWhere
    split
    · simp
    · split <;> simp

theorem joinWith_cutAt (sep : Char) : ∀ cs, joinWith [sep] (cutAt sep cs) = cs
  | [] => rfl
  | c :: cs => by
    have ih := joinWith_cutAt sep cs
    have hne := cutWhere_ne_nil (· == sep) cs
    unfold cutAt at ih ⊢
    unfold cutWhere
    by_cases h : c = sep
    · simp [h, joinWith_cons _ _ hne, ih]
    · cases hp : cutWhere (· == sep) cs with
      | nil => exact absurd hp hne
      | cons piece pieces =>
        rw [hp] at ih
        cases pieces with
        | nil => simp_all [joinWith]
        | cons _ _ => simp_all [joinWith]

theorem not_of_mem_cutWhere (p : Char → Bool) :
    ∀ cs, ∀ piece ∈ cutWhere p cs, ∀ c ∈ piece, p c = false
  | [], piece, h, c, hc => by simp [cutWhere] at h; simp [h] at hc
  | d :: cs, piece, h, c, hc => by
    have ih := not_of_mem_cutWhere p cs
    unfold cutWhere at h
    split at h
    · rcases List.mem_cons.mp h with rfl | h
      · cases hc
      · exact ih piece h c hc
    · rename_i hd
      split at h
      · simp at h; simp_all
      · rename_i first rest hcut
        rcases List.mem_cons.mp h with rfl | h
        · rcases List.mem_cons.mp hc with rfl | hc
          · simpa using hd
          · exact ih first (by simp [hcut]) c hc
        · exact ih piece (by simp [hcut, h]) c hc

end NoteQuery.Text

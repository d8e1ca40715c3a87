import NoteQuery.Note.Privacy
import NoteQuery.Note.Tag

/-!
# Code among plain text

Blocks of code are taken out of a body first, and inline code out of what is left. Where plain text stands
between the pieces of code the first pass leaves inline code as it is, since nowhere else three backticks touch,
and the second pass finds every piece that is left. So only the plain text is left in the end, and tags and
markers are read from nothing else.
-/

namespace NoteQuery.Note

/-! ## Passes -/

/-- One pass leaves `kept` of a text, whatever it does to the rest. The bounds on the number of steps stay large
enough. -/
def Leaves (after? : List Char → Option (List Char)) (text kept rest : List Char) : Prop :=
  ∃ n ≤ text.length, ∀ steps, dropPieces after? (n + steps) (text ++ rest) = kept ++ dropPieces after? steps rest

theorem dropPieces_nil (after? : List Char → Option (List Char)) (steps : Nat) : dropPieces after? steps [] = [] := by
  cases steps <;> rfl

namespace Leaves

variable {after? : List Char → Option (List Char)} {text kept rest : List Char}

theorem nil : Leaves after? [] [] rest := ⟨0, Nat.le_refl _, fun steps => by rw [Nat.zero_add]; rfl⟩

theorem append {more keptMore : List Char} (hfirst : Leaves after? text kept (more ++ rest))
    (hmore : Leaves after? more keptMore rest) : Leaves after? (text ++ more) (kept ++ keptMore) rest := by
  obtain ⟨m, hm, hfirst⟩ := hfirst
  obtain ⟨n, hn, hmore⟩ := hmore
  refine ⟨m + n, ?_, fun steps => ?_⟩
  · rw [List.length_append]
    omega
  · rw [Nat.add_assoc, List.append_assoc, hfirst, hmore, List.append_assoc]

theorem cons {c : Char} (hnone : after? (c :: (text ++ rest)) = none) (h : Leaves after? text kept rest) :
    Leaves after? (c :: text) (c :: kept) rest := by
  obtain ⟨n, hn, h⟩ := h
  refine ⟨n + 1, Nat.succ_le_succ hn, fun steps => ?_⟩
  rw [Nat.add_right_comm, List.cons_append, dropPieces, hnone]
  simp only [h, List.cons_append]

theorem of_some (hne : text ≠ []) (hsome : after? (text ++ rest) = some rest) : Leaves after? text [] rest := by
  obtain ⟨c, cs, rfl⟩ := List.exists_cons_of_ne_nil hne
  refine ⟨1, Nat.succ_le_succ (Nat.zero_le _), fun steps => ?_⟩
  rw [Nat.add_comm, List.cons_append, dropPieces, ← List.cons_append, hsome]
  rfl

theorem dropPieces_eq (h : Leaves after? text kept []) : dropPieces after? text.length text = kept := by
  obtain ⟨n, hn, h⟩ := h
  obtain ⟨more, hmore⟩ := Nat.exists_eq_add_of_le hn
  have hleft := h more
  rw [List.append_nil, dropPieces_nil, List.append_nil] at hleft
  rw [hmore, hleft]

end Leaves

/-! ## Plain text -/

def IsPlain (cs : List Char) : Prop := '\x60' ∉ cs

instance (cs : List Char) : Decidable (IsPlain cs) := inferInstanceAs (Decidable ('\x60' ∉ cs))

/-- A pass that takes out nothing that begins elsewhere than at a backtick leaves plain text as it is. -/
theorem leaves_plain {after? : List Char → Option (List Char)} (hnone : ∀ c cs, c ≠ '\x60' → after? (c :: cs) = none)
    {text : List Char} (h : IsPlain text) (rest : List Char) : Leaves after? text text rest := by
  induction text with
  | nil => exact .nil
  | cons c text ih =>
    obtain ⟨hc, htext⟩ := not_or.mp (mt List.mem_cons.mpr h)
    exact (ih htext).cons (hnone c _ (Ne.symm hc))

theorem afterBlock?_of_ne (c : Char) (cs : List Char) (h : c ≠ '\x60') : afterBlock? (c :: cs) = none := by
  unfold afterBlock? fence
  simp [Text.after?, h.symm]

theorem afterInline?_of_ne (c : Char) (cs : List Char) (h : c ≠ '\x60') : afterInline? (c :: cs) = none := by
  unfold afterInline?
  split
  · rename_i heq
    exact absurd (List.cons.inj heq).1 h
  · rfl

/-! ## Pieces of code -/

inductive CodePiece
  | block (text : List Char)
  | inline (text : List Char)

namespace CodePiece

def written : CodePiece → List Char
  | .block text => fence ++ text ++ fence
  | .inline text => '\x60' :: text ++ ['\x60']

def withoutBlock : CodePiece → List Char
  | .block _ => []
  | .inline text => '\x60' :: text ++ ['\x60']

/-- No backtick stands inside, and inline code is not empty. -/
def IsCode : CodePiece → Prop
  | .block text => IsPlain text
  | .inline text => text ≠ [] ∧ IsPlain text

instance : (piece : CodePiece) → Decidable piece.IsCode
  | .block text => inferInstanceAs (Decidable (IsPlain text))
  | .inline text => inferInstanceAs (Decidable (text ≠ [] ∧ IsPlain text))

end CodePiece

theorem afterBlock?_block {text : List Char} (h : IsPlain text) (rest : List Char) :
    afterBlock? (fence ++ text ++ fence ++ rest) = some rest := by
  have hfirst : afterFirst? fence (text ++ (fence ++ rest)) = some rest := by
    induction text with
    | nil => simp [fence, afterFirst?, Text.after?]
    | cons c text ih =>
      obtain ⟨hc, htext⟩ := not_or.mp (mt List.mem_cons.mpr h)
      have hnone : Text.after? fence (c :: (text ++ (fence ++ rest))) = none := by simp [fence, Text.after?, hc]
      rw [List.cons_append, afterFirst?, hnone, Option.orElse_none]
      exact ih htext
  have hopening : Text.after? fence (fence ++ (text ++ (fence ++ rest))) = some (text ++ (fence ++ rest)) :=
    Text.after?_eq_some_iff.mpr rfl
  rw [List.append_assoc, List.append_assoc, afterBlock?, hopening, Option.bind_some, hfirst]

theorem afterBlock?_of_single {cs : List Char} (h : ∀ c ∈ cs.head?, c ≠ '\x60') : afterBlock? ('\x60' :: cs) = none := by
  unfold afterBlock? fence
  cases cs with
  | nil => simp [Text.after?]
  | cons c cs =>
    have hc := h c rfl
    simp [Text.after?, hc.symm]

theorem afterInline?_inline {text : List Char} (hne : text ≠ []) (h : IsPlain text) (rest : List Char) :
    afterInline? ('\x60' :: text ++ ['\x60'] ++ rest) = some rest := by
  have hspan : (text ++ '\x60' :: rest).span (· != '\x60') = (text, '\x60' :: rest) := by
    apply Text.span_append
    · intro c hc
      simpa using fun heq : c = '\x60' => h (heq ▸ hc)
    · simp
  obtain ⟨c, cs, rfl⟩ := List.exists_cons_of_ne_nil hne
  rw [List.append_assoc, List.singleton_append, List.cons_append, afterInline?, hspan]

theorem leaves_withoutBlock {piece : CodePiece} (h : piece.IsCode) {rest : List Char}
    (hrest : ∀ c ∈ rest.head?, c ≠ '\x60') : Leaves afterBlock? piece.written piece.withoutBlock rest := by
  cases piece with
  | block text => exact .of_some (by simp [CodePiece.written, fence]) (afterBlock?_block h rest)
  | inline text =>
    obtain ⟨hne, hplain⟩ := h
    have hclosing : Leaves afterBlock? ['\x60'] ['\x60'] rest := .cons (afterBlock?_of_single hrest) .nil
    have hinside := (leaves_plain afterBlock?_of_ne hplain ('\x60' :: rest)).append hclosing
    refine hinside.cons (afterBlock?_of_single ?_)
    obtain ⟨c, cs, rfl⟩ := List.exists_cons_of_ne_nil hne
    intro d hd
    obtain rfl := Option.some.inj hd
    exact fun heq => hplain (heq ▸ List.mem_cons_self)

theorem leaves_nothing {piece : CodePiece} (h : piece.IsCode) (rest : List Char) :
    Leaves afterInline? piece.withoutBlock [] rest := by
  cases piece with
  | block text => exact .nil
  | inline text => exact .of_some (by simp [CodePiece.withoutBlock]) (afterInline?_inline h.1 h.2 rest)

/-! ## Texts with code -/

/-- Pieces of code as they are written by `write`, each with the plain text behind it. -/
def spread (write : CodePiece → List Char) (pieces : List (CodePiece × List Char)) : List Char :=
  pieces.flatMap fun piece => write piece.1 ++ piece.2

structure CodedText where
  first : List Char
  pieces : List (CodePiece × List Char)

namespace CodedText

def text (t : CodedText) : List Char := t.first ++ spread (·.written) t.pieces

def plain (t : CodedText) : List Char := t.first ++ t.pieces.flatMap (·.2)

structure IsSound (t : CodedText) : Prop where
  first : IsPlain t.first
  pieces : ∀ piece ∈ t.pieces, piece.1.IsCode ∧ IsPlain piece.2
  apart : ∀ piece ∈ t.pieces.dropLast, piece.2 ≠ []

instance (t : CodedText) : Decidable t.IsSound :=
  decidable_of_iff (IsPlain t.first ∧ (∀ piece ∈ t.pieces, piece.1.IsCode ∧ IsPlain piece.2) ∧
      ∀ piece ∈ t.pieces.dropLast, piece.2 ≠ [])
    ⟨fun ⟨hfirst, hpieces, hapart⟩ => ⟨hfirst, hpieces, hapart⟩, fun h => ⟨h.first, h.pieces, h.apart⟩⟩

end CodedText

theorem head_ne_of_apart (write : CodePiece → List Char) {piece : CodePiece × List Char}
    {pieces : List (CodePiece × List Char)} (hplain : IsPlain piece.2)
    (hapart : ∀ p ∈ (piece :: pieces).dropLast, p.2 ≠ []) :
    ∀ c ∈ (piece.2 ++ (spread write pieces ++ [])).head?, c ≠ '\x60' := by
  intro c hc
  cases htext : piece.2 with
  | cons d cs =>
    rw [htext] at hplain hc
    obtain rfl := Option.some.inj hc
    exact fun heq => hplain (heq ▸ List.mem_cons_self)
  | nil =>
    cases pieces with
    | nil =>
      rw [htext] at hc
      cases hc
    | cons next pieces => exact absurd htext (hapart piece List.mem_cons_self)

section
variable {after? : List Char → Option (List Char)} (hnone : ∀ c cs, c ≠ '\x60' → after? (c :: cs) = none)
variable {write kept : CodePiece → List Char}
variable (hcode : ∀ {piece : CodePiece}, piece.IsCode → ∀ {rest : List Char}, (∀ c ∈ rest.head?, c ≠ '\x60') →
  Leaves after? (write piece) (kept piece) rest)
include hnone hcode

theorem leaves_spread {pieces : List (CodePiece × List Char)} (hpieces : ∀ piece ∈ pieces, piece.1.IsCode ∧ IsPlain piece.2)
    (hapart : ∀ piece ∈ pieces.dropLast, piece.2 ≠ []) :
    Leaves after? (spread write pieces) (spread kept pieces) [] := by
  induction pieces with
  | nil => exact .nil
  | cons piece pieces ih =>
    obtain ⟨⟨hpiece, hplain⟩, hpieces⟩ := List.forall_mem_cons.mp hpieces
    have hmore : ∀ p ∈ pieces.dropLast, p.2 ≠ [] := by
      intro p hp
      apply hapart p
      cases pieces with
      | nil => cases hp
      | cons next pieces => exact List.mem_cons_of_mem _ hp
    have hfirst := hcode hpiece (head_ne_of_apart write hplain hapart)
    exact (hfirst.append (leaves_plain hnone hplain _)).append (ih hpieces hmore)

theorem dropPieces_coded {t : CodedText} (h : t.IsSound) :
    dropPieces after? (t.first ++ spread write t.pieces).length (t.first ++ spread write t.pieces) =
      t.first ++ spread kept t.pieces :=
  ((leaves_plain hnone h.first _).append (leaves_spread hnone hcode h.pieces h.apart)).dropPieces_eq

end

theorem withoutCode_text {t : CodedText} (h : t.IsSound) : withoutCode t.text = t.plain := by
  have hblocks : withoutBlocks t.text = t.first ++ spread (·.withoutBlock) t.pieces :=
    dropPieces_coded afterBlock?_of_ne leaves_withoutBlock h
  have hinline : withoutInline (t.first ++ spread (·.withoutBlock) t.pieces) = t.first ++ spread (fun _ => []) t.pieces :=
    dropPieces_coded afterInline?_of_ne (fun hpiece _ _ => leaves_nothing hpiece _) h
  rw [withoutCode, hblocks, hinline]
  rfl

/-- What is read of a text does not depend on its code. -/
theorem coded_alike {t : CodedText} (ht : t.IsSound) : withoutCode t.text = t.plain ∧
    ∀ u : CodedText, u.IsSound → u.plain = t.plain → inlineTags u.text = inlineTags t.text ∧
      ∀ frontMatter, isPrivateContent frontMatter u.text = isPrivateContent frontMatter t.text := by
  refine ⟨withoutCode_text ht, ?_⟩
  intro u hu hplain
  have hcode : withoutCode u.text = withoutCode t.text := by rw [withoutCode_text hu, withoutCode_text ht, hplain]
  constructor
  · unfold inlineTags
    rw [hcode]
  · intro frontMatter
    unfold isPrivateContent
    rw [hcode]

/-- A block with nothing in it, a marker and a tag in code, and no plain text at either end. -/
def markerInCode : CodedText where
  first := []
  pieces := [(.block [], "Text #one".toList), (.inline " #private ".toList, "\n".toList), (.block "\n#two\n".toList, [])]

def signInCode : CodedText where
  first := "Text".toList
  pieces := [(.inline ['#'], " #one\n".toList)]

theorem coded_alike_markerInCode : markerInCode.IsSound ∧ signInCode.IsSound ∧
    markerInCode.text = "\x60\x60\x60\x60\x60\x60Text #one\x60 #private \x60\n\x60\x60\x60\n#two\n\x60\x60\x60".toList ∧
    withoutCode markerInCode.text = "Text #one\n".toList ∧ inlineTags markerInCode.text = ["one"] ∧
    isPrivateContent [] markerInCode.text = false := by
  have hmarker : markerInCode.IsSound := by decide +kernel
  have hsign : signInCode.IsSound := by decide +kernel
  have htags : inlineTags signInCode.text = ["one"] := by decide +kernel
  have hpublic : isPrivateContent [] signInCode.text = false := by decide +kernel
  obtain ⟨-, halike⟩ := coded_alike hsign
  obtain ⟨hleft, -⟩ := coded_alike hmarker
  obtain ⟨hsame, hprivate⟩ := halike markerInCode hmarker (by decide +kernel)
  exact ⟨hmarker, hsign, by decide +kernel, hleft, hsame.trans htags, (hprivate []).trans hpublic⟩

end NoteQuery.Note

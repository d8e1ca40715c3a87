import NoteQuery.Proofs.Result.AnyItem
import NoteQuery.Proofs.Value.Coercion

/-!
# Containment

A text is contained in a value if it stands in the text of the value, or of one of its items, in any letter
case. Case is folded letter by letter, so that a part stays a part when both are folded, although one letter
may become several. What is in a list stands in its text, so a text that something in a list equals is
contained in the list.
-/

namespace NoteQuery

namespace Text

theorem fold_append (a b : List Char) : fold (a ++ b) = fold a ++ fold b := List.flatMap_append

theorem fold_infix {part cs : List Char} (h : part <:+: cs) : fold part <:+: fold cs := by
  obtain ⟨before, after, rfl⟩ := h
  refine ⟨fold before, fold after, ?_⟩
  rw [fold_append, fold_append]

end Text

namespace Value

/-! ## What is searched -/

/-- Whether the text of a value stands in that of another, letter case aside. -/
def OccursIn (needle v : Value) : Prop := Text.fold needle.toText.toList <:+: Text.fold v.toText.toList

/-- What a literal is looked for in: the items of a list, or the value itself. -/
def searched : Value → List Value
  | .list items => items
  | v => [v]

theorem contains_iff (v literal : Value) : v.contains literal = true ↔ ∃ w ∈ v.searched, literal.OccursIn w := by
  have hone : ∀ w : Value, Text.occursIn (Text.fold literal.toText.toList) (Text.fold w.toText.toList) = true ↔
      literal.OccursIn w := fun w => Text.occursIn_iff
  cases v with
  | list items => simp only [contains, searched, List.any_eq_true, hone]
  | _ => simp only [contains, searched, List.mem_singleton, exists_eq_left, hone]

theorem holds_contains_iff (v literal : Value) : Operator.contains.holds v literal = true ↔
    v.isAbsent = false ∧ ∃ w ∈ v.searched, literal.OccursIn w := by
  rw [← contains_iff, Operator.holds]
  cases v.isAbsent with
  | true => simp
  | false => simp [Operator.holdsFor]

theorem OccursIn.of_infix {needle part v : Value} (h : needle.OccursIn v)
    (hpart : part.toText.toList <:+: needle.toText.toList) : part.OccursIn v :=
  (Text.fold_infix hpart).trans h

theorem holds_contains_of_infix {v needle part : Value} (h : Operator.contains.holds v needle = true)
    (hpart : part.toText.toList <:+: needle.toText.toList) : Operator.contains.holds v part = true := by
  rw [holds_contains_iff] at h ⊢
  obtain ⟨hpresent, w, hw, hoccurs⟩ := h
  exact ⟨hpresent, w, hw, hoccurs.of_infix hpart⟩

/-! ## Lists as texts -/

theorem infix_intercalate {s : String} : ∀ {texts : List String}, s ∈ texts →
    s.toList <:+: (",".intercalate texts).toList
  | [t], h => by
    rw [List.mem_singleton.mp h, String.intercalate_singleton]
  | t :: u :: texts, h => by
    rw [String.intercalate_cons_cons, String.toList_append, String.toList_append]
    rcases List.mem_cons.mp h with rfl | h
    · exact ((List.prefix_append _ _).trans (List.prefix_append _ _)).isInfix
    · exact (infix_intercalate h).trans (List.suffix_append _ _).isInfix

theorem itemTexts_eq (items : List Value) :
    itemTexts items = items.map fun item => if item.isAbsent then "" else item.toText := by
  induction items with
  | nil => rfl
  | cons item items ih => rw [itemTexts, ih, List.map_cons]

theorem infix_toText_of_mem {t : Bool} {item : Value} {items : List Value} (hmem : item ∈ items)
    (hpresent : item.isAbsent = false) : item.toText.toList <:+: (@list t items).toText.toList := by
  have htext : item.toText ∈ itemTexts items := by
    rw [itemTexts_eq, List.mem_map]
    refine ⟨item, hmem, ?_⟩
    rw [hpresent, if_neg Bool.false_ne_true]
  rw [toText]
  exact infix_intercalate htext

theorem infix_toText_of_isLeaf {leaf v : Value} (h : IsLeaf leaf v) (hpresent : leaf.isAbsent = false) :
    v.isAbsent = false ∧ leaf.toText.toList <:+: v.toText.toList := by
  induction h with
  | self _ => exact ⟨hpresent, List.infix_rfl⟩
  | item hmem _ ih =>
    obtain ⟨hitem, hinfix⟩ := ih
    exact ⟨rfl, hinfix.trans (infix_toText_of_mem hmem hitem)⟩

/-! ## Values made of texts -/

/-- What is made of texts and nulls by lists. -/
inductive Textual : Value → Prop
  | text (s : String) : Textual (.text s)
  | null : Textual .null
  | list {t : Bool} {items : List Value} (h : ∀ item ∈ items, Textual item) : Textual (@Value.list t items)

theorem Textual.exists_text_of_isLeaf {leaf v : Value} (hleaf : IsLeaf leaf v) (h : Textual v)
    (hpresent : leaf.isAbsent = false) : ∃ s, leaf = .text s := by
  induction hleaf with
  | self hlist =>
    cases h with
    | text s => exact ⟨s, rfl⟩
    | null => cases hpresent
    | list _ => exact absurd rfl (hlist _ _)
  | item hmem _ ih =>
    cases h with
    | list hitems => exact ih (hitems _ hmem)

theorem fold_eq_of_equals {s l : String} (h : Operator.equal.holds (.text s) (.text l) = true) :
    Text.fold s.toList = Text.fold l.toList := by
  rw [holds_equal, equals_of_not_list (fun t items hitems => by cases hitems)] at h
  exact eq_of_beq (Bool.and_eq_true_iff.mp h).2

theorem holds_contains_of_isLeaf {v : Value} {s l : String} (hleaf : IsLeaf (.text s) v)
    (hfold : Text.fold s.toList = Text.fold l.toList) : Operator.contains.holds v (.text l) = true := by
  have hoccurs : ∀ w : Value, IsLeaf (.text s) w → (Value.text l).OccursIn w := by
    intro w hw
    have hinfix := Text.fold_infix (infix_toText_of_isLeaf hw rfl).2
    rw [toText, hfold] at hinfix
    rwa [OccursIn, toText]
  rw [holds_contains_iff]
  cases hleaf with
  | self hlist => exact ⟨rfl, _, List.mem_singleton_self _, hoccurs _ (.self hlist)⟩
  | item hmem hinner => exact ⟨rfl, _, hmem, hoccurs _ hinner⟩

/-- What is contained in a value, seen from its text and from what it is made of. -/
theorem contains_part_and_equal :
    (∀ v literal : Value, Operator.contains.holds v literal = true ↔
      v.isAbsent = false ∧ ∃ w ∈ v.searched, literal.OccursIn w) ∧
    (∀ (v : Value) (x y z : String), Operator.contains.holds v (.text (x ++ y ++ z)) = true →
      Operator.contains.holds v (.text y) = true) ∧
    ∀ v : Value, Textual v → ∀ l : String, Operator.equal.holds v (.text l) = true →
      Operator.contains.holds v (.text l) = true := by
  refine ⟨holds_contains_iff, fun v x y z h => ?_, fun v hv l h => ?_⟩
  · refine holds_contains_of_infix h ⟨x.toList, z.toList, ?_⟩
    simp only [toText, String.toList_append]
  · obtain ⟨leaf, hleaf, hpresent, hequal⟩ := (holds_equal_iff v (.text l)).mp h
    obtain ⟨s, rfl⟩ := hv.exists_text_of_isLeaf hleaf hpresent
    exact holds_contains_of_isLeaf hleaf (fold_eq_of_equals hequal)

def streets : Value := .seq [.null, .seq [.text "am Ring", .seq [.null, .text "Hauptstraße"]]]

theorem textual_streets : Textual streets := by
  refine .list fun item hitem => ?_
  rcases List.mem_pair.mp hitem with rfl | rfl
  · exact .null
  · refine .list fun inner hinner => ?_
    rcases List.mem_pair.mp hinner with rfl | rfl
    · exact .text _
    · exact .list (by simp [Textual.null, Textual.text])

/-- One letter is folded to two, which the literal has in upper case. -/
theorem contains_street : Textual streets ∧ Operator.equal.holds streets (.text "HAUPTSTRASSE") = true ∧
    Operator.contains.holds streets (.text "HAUPTSTRASSE") = true ∧
    Operator.contains.holds streets (.text "STRASS") = true := by
  obtain ⟨-, hpart, hequal⟩ := contains_part_and_equal
  have heq : Operator.equal.holds streets (.text "HAUPTSTRASSE") = true := by decide +kernel
  have hall := hequal streets textual_streets "HAUPTSTRASSE" heq
  have hwhole : "HAUPT" ++ "STRASS" ++ "E" = "HAUPTSTRASSE" := by decide
  exact ⟨textual_streets, heq, hall, hpart streets "HAUPT" "STRASS" "E" (by rw [hwhole]; exact hall)⟩

end Value

end NoteQuery

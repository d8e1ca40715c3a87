import NoteQuery.Proofs.Result.GroupOrder
import NoteQuery.Proofs.Text.Ascending
import NoteQuery.Proofs.Value.Containment

/-!
# The order of map entries

The text of a map lists its entries by the texts of their keys, at every depth. So values that differ only in
the order of map entries have one text, as long as no map has two keys with one text, and no comparison tells
them apart: neither of them is a number, and what else is asked of a map is whether it is empty.
-/

namespace NoteQuery

/-! ## Objects -/

namespace Json

theorem bind_of_new {key : String} {value : Json} : ∀ {entries : List (String × Json)},
    (∀ entry ∈ entries, entry.1 ≠ key) → bind key value entries = entries ++ [(key, value)]
  | [], _ => rfl
  | (k, v) :: rest, h => by
    obtain ⟨hhead, htail⟩ := List.forall_mem_cons.mp h
    rw [bind, if_neg hhead, bind_of_new htail, List.cons_append]

theorem foldl_bind_of_distinct : ∀ {entries done : List (String × Json)},
    (done ++ entries).Pairwise (fun a b => a.1 ≠ b.1) →
      entries.foldl (fun done (k, v) => bind k v done) done = done ++ entries
  | [], done, _ => (List.append_nil done).symm
  | (key, value) :: entries, done, h => by
    have hnew : ∀ old ∈ done, old.1 ≠ key := fun old hold =>
      (List.pairwise_append.mp h).2.2 old hold (key, value) List.mem_cons_self
    rw [List.append_cons] at h
    rw [List.foldl_cons]
    dsimp only
    rw [bind_of_new hnew, foldl_bind_of_distinct h, List.append_assoc, List.singleton_append]

theorem sortedEntries_of_distinct {entries : List (String × Json)} (h : entries.Pairwise fun a b => a.1 ≠ b.1) :
    sortedEntries entries = entries.mergeSort fun a b => a.1 ≤ b.1 := by
  have hbind := @foldl_bind_of_distinct entries [] h
  rw [sortedEntries, hbind, List.nil_append]

theorem sortedEntries_perm {entries others : List (String × Json)} (hperm : entries.Perm others)
    (h : entries.Pairwise fun a b => a.1 ≠ b.1) : sortedEntries entries = sortedEntries others := by
  have hothers : others.Pairwise fun a b => a.1 ≠ b.1 := hperm.pairwise h fun hab => hab.symm
  rw [sortedEntries_of_distinct h, sortedEntries_of_distinct hothers]
  refine eq_of_ascending (ascending_mergeSort h) (ascending_mergeSort hothers) fun entry => ?_
  rw [List.mem_mergeSort, List.mem_mergeSort, hperm.mem_iff]

end Json

namespace Value

theorem documentItems_eq (items : List Value) : documentItems items = items.map document := by
  induction items with
  | nil => rfl
  | cons item items ih => rw [documentItems, ih, List.map_cons]

theorem documentEntries_eq (entries : Entries) :
    documentEntries entries = entries.map fun entry => (entry.1.toText, entry.2.document) := by
  induction entries with
  | nil => rfl
  | cons entry entries ih => rw [documentEntries, ih, List.map_cons]

theorem toText_map (entries : Entries) : (map entries).toText = (map entries).document.render .compact := by
  rw [toText, document]

/-! ## Reordered values -/

/-- One map, at any depth, has its entries in another order. -/
inductive Reorders : Value → Value → Prop
  | entries {entries others : Entries} (h : entries.Perm others) : Reorders (.map entries) (.map others)
  | item {t : Bool} {v w : Value} (before after : List Value) (h : Reorders v w) :
      Reorders (@list t (before ++ v :: after)) (@list t (before ++ w :: after))
  | value {v w : Value} (before after : Entries) (key : Value) (h : Reorders v w) :
      Reorders (.map (before ++ (key, v) :: after)) (.map (before ++ (key, w) :: after))

def Reordered : Value → Value → Prop := Relation.ReflTransGen Reorders

mutual

/-- No map in the value has two keys with one text. -/
def TextKeyed : Value → Prop
  | .list items => TextKeyedItems items
  | .map entries => TextKeyedEntries entries
  | _ => True

def TextKeyedItems : List Value → Prop
  | [] => True
  | item :: items => TextKeyed item ∧ TextKeyedItems items

def TextKeyedEntries : List (Value × Value) → Prop
  | [] => True
  | (key, value) :: entries =>
    (∀ other ∈ entries, key.toText ≠ other.1.toText) ∧ TextKeyed value ∧ TextKeyedEntries entries

end

mutual

instance decidableTextKeyed : (v : Value) → Decidable (TextKeyed v)
  | .list items => decidableTextKeyedItems items
  | .map entries => decidableTextKeyedEntries entries
  | .missing | .null | .bool _ | .int _ | .float _ | .text _ | .link _ _ | .date _ | .dateTime _ | .bytes _ | .set _
  | .loop _ => isTrue trivial

instance decidableTextKeyedItems : (items : List Value) → Decidable (TextKeyedItems items)
  | [] => isTrue trivial
  | item :: items => @instDecidableAnd _ _ (decidableTextKeyed item) (decidableTextKeyedItems items)

instance decidableTextKeyedEntries : (entries : List (Value × Value)) → Decidable (TextKeyedEntries entries)
  | [] => isTrue trivial
  | (key, value) :: entries =>
    have := decidableTextKeyed value
    have := decidableTextKeyedEntries entries
    inferInstanceAs (Decidable ((∀ other ∈ entries, key.toText ≠ other.1.toText) ∧ _))

end

theorem textKeyedItems_iff {items : List Value} : TextKeyedItems items ↔ ∀ item ∈ items, TextKeyed item := by
  induction items with
  | nil => simp [TextKeyedItems]
  | cons item items ih => rw [TextKeyedItems, ih, List.forall_mem_cons]

theorem textKeyedEntries_iff {entries : Entries} : TextKeyedEntries entries ↔
    entries.Pairwise (fun a b => a.1.toText ≠ b.1.toText) ∧ ∀ entry ∈ entries, TextKeyed entry.2 := by
  induction entries with
  | nil => simp [TextKeyedEntries]
  | cons entry entries ih =>
    rw [TextKeyedEntries, ih, List.pairwise_cons, List.forall_mem_cons]
    constructor
    · rintro ⟨hkey, hvalue, hpairwise, hvalues⟩
      exact ⟨⟨hkey, hpairwise⟩, hvalue, hvalues⟩
    · rintro ⟨⟨hkey, hpairwise⟩, hvalue, hvalues⟩
      exact ⟨hkey, hvalue, hpairwise, hvalues⟩

theorem TextKeyed.of_item {t : Bool} {before after : List Value} {v : Value}
    (h : TextKeyed (@list t (before ++ v :: after))) : TextKeyed v :=
  textKeyedItems_iff.mp h v (by simp)

theorem TextKeyed.of_value {before after : Entries} {key v : Value}
    (h : TextKeyed (.map (before ++ (key, v) :: after))) : TextKeyed v :=
  (textKeyedEntries_iff.mp h).2 (key, v) (by simp)

namespace Reorders

variable {v w : Value}

theorem textKeyed (h : Reorders v w) (hkeys : TextKeyed v) : TextKeyed w := by
  induction h with
  | entries hperm =>
    obtain ⟨hpairwise, hvalues⟩ := textKeyedEntries_iff.mp hkeys
    refine textKeyedEntries_iff.mpr ⟨hperm.pairwise hpairwise fun hab => hab.symm, fun entry hentry => ?_⟩
    exact hvalues entry (hperm.mem_iff.mpr hentry)
  | item before after _ ih =>
    have hitem := ih hkeys.of_item
    have hitems := textKeyedItems_iff.mp hkeys
    refine textKeyedItems_iff.mpr ?_
    simp only [List.forall_mem_append, List.forall_mem_cons] at hitems ⊢
    exact ⟨hitems.1, hitem, hitems.2.2⟩
  | value before after key _ ih =>
    have hvalue := ih hkeys.of_value
    obtain ⟨hpairwise, hvalues⟩ := textKeyedEntries_iff.mp hkeys
    refine textKeyedEntries_iff.mpr ⟨?_, ?_⟩
    · simpa only [List.pairwise_append, List.pairwise_cons, List.forall_mem_cons] using hpairwise
    · simp only [List.forall_mem_append, List.forall_mem_cons] at hvalues ⊢
      exact ⟨hvalues.1, hvalue, hvalues.2.2⟩

theorem isAbsent_eq (h : Reorders v w) : v.isAbsent = false ∧ w.isAbsent = false := by
  cases h <;> exact ⟨rfl, rfl⟩

theorem document_eq (h : Reorders v w) (hkeys : TextKeyed v) : v.document = w.document := by
  induction h with
  | entries hperm =>
    obtain ⟨hpairwise, -⟩ := textKeyedEntries_iff.mp hkeys
    rw [document, document, documentEntries_eq, documentEntries_eq]
    rw [Json.sortedEntries_perm (hperm.map _) (List.pairwise_map.mpr hpairwise)]
  | item before after _ ih =>
    rw [document, document, documentItems_eq, documentItems_eq]
    simp only [List.map_append, List.map_cons, ih hkeys.of_item]
  | value before after key _ ih =>
    rw [document, document, documentEntries_eq, documentEntries_eq]
    simp only [List.map_append, List.map_cons, ih hkeys.of_value]

theorem toText_eq (h : Reorders v w) (hkeys : TextKeyed v) : v.toText = w.toText := by
  induction h with
  | entries hperm => rw [toText_map, toText_map, (entries hperm).document_eq hkeys]
  | value before after key hvw _ => rw [toText_map, toText_map, (value before after key hvw).document_eq hkeys]
  | @item _ v w before after hvw ih =>
    obtain ⟨hv, hw⟩ := hvw.isAbsent_eq
    rw [toText, toText, itemTexts_eq, itemTexts_eq]
    simp only [List.map_append, List.map_cons, hv, hw, ih hkeys.of_item]

end Reorders

/-! ## Comparisons of maps and lists -/

def isCollection : Value → Bool
  | .list _ | .map _ => true
  | _ => false

/-- Maps and lists that no comparison of two values tells apart. -/
structure Indistinct (v w : Value) : Prop where
  left : v.isCollection = true
  right : w.isCollection = true
  text : v.toText = w.toText
  bool : v.asBool = w.asBool
  equals : ∀ x, v.equals x = w.equals x
  contains : ∀ x, v.contains x = w.contains x

theorem exists_of_isCollection {c : Value} (h : c.isCollection = true) :
    (∃ t items, c = @list t items) ∨ ∃ entries, c = .map entries := by
  cases c with
  | list items => exact Or.inl ⟨_, items, rfl⟩
  | map entries => exact Or.inr ⟨entries, rfl⟩
  | _ => cases h

section
variable {c : Value} (hc : c.isCollection = true)
include hc

theorem asNumber?_of_isCollection : c.asNumber? = none := by
  obtain ⟨t, items, rfl⟩ | ⟨entries, rfl⟩ := exists_of_isCollection hc
  · rfl
  · rfl

theorem number?_of_isCollection : c.number? = none := by
  obtain ⟨t, items, rfl⟩ | ⟨entries, rfl⟩ := exists_of_isCollection hc
  · rfl
  · rfl

theorem isAbsent_of_isCollection : c.isAbsent = false ∧ c.isMissing = false := by
  obtain ⟨t, items, rfl⟩ | ⟨entries, rfl⟩ := exists_of_isCollection hc
  · exact ⟨rfl, rfl⟩
  · exact ⟨rfl, rfl⟩

/-- A collection is no number, so what counts is its truth value, or its text. -/
theorem scalarEquals_of_isCollection (x : Value) : c.scalarEquals x =
    match x with
    | .bool b => c.asBool == b
    | x => !x.isNumber && c.toText == x.toText := by
  obtain ⟨t, items, rfl⟩ | ⟨entries, rfl⟩ := exists_of_isCollection hc
  · cases x <;> simp [scalarEquals, isNumber, number?, asNumber?]
  · cases x <;> simp [scalarEquals, isNumber, number?, asNumber?]

theorem scalarEquals_isCollection (x : Value) : x.scalarEquals c =
    match x with
    | .bool b => b == c.asBool
    | x => !x.isNumber && x.toText == c.toText := by
  obtain ⟨t, items, rfl⟩ | ⟨entries, rfl⟩ := exists_of_isCollection hc
  · cases x <;> simp [scalarEquals, isNumber, number?, asNumber?]
  · cases x <;> simp [scalarEquals, isNumber, number?, asNumber?]

end

theorem equals_congr {v w : Value} (h : ∀ x : Value, x.scalarEquals v = x.scalarEquals w) (x : Value) :
    x.equals v = x.equals w := by
  apply equals.induct (fun x => x.equals v = x.equals w) (fun items => anyEquals items v = anyEquals items w)
  case case1 =>
    intro t items ih
    rw [equals, equals, ih]
  case case2 =>
    intro x hx
    rw [equals_of_not_list hx, equals_of_not_list hx, h]
  case case3 => rfl
  case case4 =>
    intro item items ihitem ihitems
    rw [anyEquals, anyEquals, ihitem, ihitems]

namespace Indistinct

variable {v w : Value} (h : Indistinct v w)
include h

theorem scalarEquals_eq (x : Value) : x.scalarEquals v = x.scalarEquals w := by
  rw [scalarEquals_isCollection h.left, scalarEquals_isCollection h.right, h.text, h.bool]

theorem compareLoosely_eq (x : Value) :
    v.compareLoosely x = w.compareLoosely x ∧ x.compareLoosely v = x.compareLoosely w := by
  have hv := asNumber?_of_isCollection h.left
  have hw := asNumber?_of_isCollection h.right
  unfold compareLoosely
  rw [hv, hw, h.text]
  cases x.asNumber? <;> exact ⟨rfl, rfl⟩

theorem order_eq (x : Value) : v.order x = w.order x ∧ x.order v = x.order w := by
  have hv := number?_of_isCollection h.left
  have hw := number?_of_isCollection h.right
  unfold order
  rw [hv, hw, h.text]
  cases x.number? <;> exact ⟨rfl, rfl⟩

theorem contains_literal (x : Value) : x.contains v = x.contains w := by
  unfold Value.contains
  rw [h.text]

theorem holds_eq (op : Operator) (x : Value) : op.holds v x = op.holds w x ∧ op.holds x v = op.holds x w := by
  have hequal := equals_congr h.scalarEquals_eq x
  obtain ⟨hleft, hright⟩ := h.compareLoosely_eq x
  have hcontains := h.contains_literal x
  have hv := (isAbsent_of_isCollection h.left).1
  have hw := (isAbsent_of_isCollection h.right).1
  constructor
  · rw [Operator.holds_of_present hv, Operator.holds_of_present hw]
    cases op <;> simp only [Operator.holdsFor, h.equals, h.contains, hleft]
  · unfold Operator.holds
    cases op <;> simp only [Operator.holdsFor, hequal, hcontains, hright]

end Indistinct

theorem Reorders.asBool_eq {v w : Value} (h : Reorders v w) : v.asBool = w.asBool := by
  cases h with
  | entries hperm => simp only [asBool, hperm.isEmpty_eq]
  | item before after _ => rfl
  | value before after key _ => cases before <;> rfl

/-- A step changes nothing that comparisons look at. In a list they look at its items, so this goes by the
place of the map in it. -/
theorem Reorders.indistinct {v w : Value} (h : Reorders v w) (hkeys : TextKeyed v) : Indistinct v w := by
  have htext := h.toText_eq hkeys
  have hbool := h.asBool_eq
  have hmaps : ∀ entries others : Entries, (map entries).toText = (map others).toText →
      (map entries).asBool = (map others).asBool → Indistinct (.map entries) (.map others) := by
    intro entries others htext hbool
    refine ⟨rfl, rfl, htext, hbool, fun x => ?_, fun x => ?_⟩
    · have hnot : ∀ (es : Entries) t items, map es ≠ @list t items := nofun
      rw [equals_of_not_list (hnot entries), equals_of_not_list (hnot others), scalarEquals_of_isCollection rfl,
        scalarEquals_of_isCollection rfl, htext, hbool]
    · simp only [Value.contains, htext]
  induction h with
  | entries hperm => exact hmaps _ _ htext hbool
  | value before after key _ _ => exact hmaps _ _ htext hbool
  | @item _ v w before after hvw ih =>
    have hitem := ih hkeys.of_item (hvw.toText_eq hkeys.of_item) hvw.asBool_eq
    refine ⟨rfl, rfl, htext, hbool, fun x => ?_, fun x => ?_⟩
    · have hv := (isAbsent_of_isCollection hitem.left).1
      have hw := (isAbsent_of_isCollection hitem.right).1
      simp only [Value.equals, anyEquals_eq, List.any_append, List.any_cons, holds_equal, hv, hw, hitem.equals]
    · simp only [Value.contains, List.any_append, List.any_cons, hitem.text]

theorem Reordered.eq_or_indistinct {v w : Value} (h : Reordered v w) (hkeys : TextKeyed v) :
    TextKeyed w ∧ (v = w ∨ Indistinct v w) := by
  induction h with
  | refl => exact ⟨hkeys, Or.inl rfl⟩
  | tail _ hstep ih =>
    obtain ⟨hkeyed, hsame⟩ := ih
    have hnext := hstep.indistinct hkeyed
    refine ⟨hstep.textKeyed hkeyed, Or.inr ?_⟩
    rcases hsame with rfl | hsame
    · exact hnext
    · exact ⟨hsame.left, hnext.right, hsame.text.trans hnext.text, hsame.bool.trans hnext.bool,
        fun x => (hsame.equals x).trans (hnext.equals x), fun x => (hsame.contains x).trans (hnext.contains x)⟩

section
variable {v w : Value} (h : Reordered v w) (hkeys : TextKeyed v)
include h hkeys

theorem Reordered.toText_eq : v.toText = w.toText := by
  rcases (h.eq_or_indistinct hkeys).2 with rfl | hsame
  · rfl
  · exact hsame.text

theorem Reordered.order_eq (x : Value) : v.order x = w.order x ∧ x.order v = x.order w := by
  rcases (h.eq_or_indistinct hkeys).2 with rfl | hsame
  · exact ⟨rfl, rfl⟩
  · exact hsame.order_eq x

theorem Reordered.holds_eq (op : Operator) (x : Value) :
    op.holds v x = op.holds w x ∧ op.holds x v = op.holds x w := by
  rcases (h.eq_or_indistinct hkeys).2 with rfl | hsame
  · exact ⟨rfl, rfl⟩
  · exact hsame.holds_eq op x

theorem Reordered.isMissing_eq : v.isMissing = w.isMissing := by
  rcases (h.eq_or_indistinct hkeys).2 with rfl | hsame
  · rfl
  · rw [(isAbsent_of_isCollection hsame.left).2, (isAbsent_of_isCollection hsame.right).2]

end

/-! ## Sorting and groups -/

theorem sortBy_reordered {α : Type} {key other : α → Value} (h : ∀ a, Reordered (key a) (other a) ∧ TextKeyed (key a))
    (descending : Bool) (items : List α) : sortBy key descending items = sortBy other descending items := by
  have horder : ∀ a b, (key a).order (key b) = (other a).order (other b) := fun a b =>
    ((h a).1.order_eq (h a).2 (key b)).1.trans ((h b).1.order_eq (h b).2 (other a)).2
  have hmissing : ∀ a, (key a).isMissing = (other a).isMissing := fun a => (h a).1.isMissing_eq (h a).2
  unfold sortBy mayPrecede
  simp only [horder, hmissing]

theorem mem_records_iff_of_reordered {field : String} {records : List Record} {r s : Record} (hr : r ∈ records)
    (hs : s ∈ records) (h : Reordered (r.resolve field) (s.resolve field)) (hkeys : TextKeyed (r.resolve field)) :
    (∃ b ∈ Bucket.ofRecords field records, r ∈ b.records) ∧
      ∀ b ∈ Bucket.ofRecords field records, r ∈ b.records ↔ s ∈ b.records := by
  have hkey : Bucket.keyOf (r.resolve field) = Bucket.keyOf (s.resolve field) := by
    rw [Bucket.keyOf, Bucket.keyOf, h.toText_eq hkeys, h.isMissing_eq hkeys]
  have hcomplete := Bucket.complete_ofRecords field records
  constructor
  · obtain ⟨b, hb, hbkey⟩ := List.mem_map.mp (hcomplete.mem_keys.mpr ⟨r, hr, rfl⟩)
    refine ⟨b, hb, ?_⟩
    rw [hcomplete.records b hb, List.mem_filter]
    exact ⟨hr, decide_eq_true hbkey.symm⟩
  · intro b hb
    rw [hcomplete.records b hb, List.mem_filter, List.mem_filter, hkey]
    exact and_congr_left' ⟨fun _ => hs, fun _ => hr⟩

/-- The order of the entries of maps is never seen. -/
theorem reordered_alike :
    (∀ v w : Value, Reordered v w → TextKeyed v →
      v.toText = w.toText ∧
      (∀ x, v.order x = w.order x ∧ x.order v = x.order w) ∧
      ∀ (op : Operator) x, op.holds v x = op.holds w x ∧ op.holds x v = op.holds x w) ∧
    (∀ (field : String) (records : List Record), ∀ r ∈ records, ∀ s ∈ records,
      Reordered (r.resolve field) (s.resolve field) → TextKeyed (r.resolve field) →
      (∃ b ∈ Bucket.ofRecords field records, r ∈ b.records) ∧
      ∀ b ∈ Bucket.ofRecords field records, r ∈ b.records ↔ s ∈ b.records) ∧
    ∀ (α : Type) (key other : α → Value), (∀ a, Reordered (key a) (other a) ∧ TextKeyed (key a)) →
      ∀ descending items, sortBy key descending items = sortBy other descending items := by
  refine ⟨fun v w h hkeys => ?_, fun field records r hr s hs h hkeys => ?_, fun α key other h => ?_⟩
  · exact ⟨h.toText_eq hkeys, h.order_eq hkeys, h.holds_eq hkeys⟩
  · exact mem_records_iff_of_reordered hr hs h hkeys
  · exact sortBy_reordered h

def shelf : Value :=
  .map [(.text "size", .int 3), (.int 7, .seq [.map [(.null, .text "x"), (.bool true, .link "n.md" "n")]])]

def turnedShelf : Value :=
  .map [(.int 7, .seq [.map [(.bool true, .link "n.md" "n"), (.null, .text "x")]]), (.text "size", .int 3)]

theorem reordered_shelf : Reordered shelf turnedShelf :=
  .tail (.single (.value [(.text "size", .int 3)] [] (.int 7) (.item [] [] (.entries (.swap _ _ [])))))
    (.entries (.swap _ _ []))

def shelfNote (path : String) (v : Value) : Record := ⟨path, path, "", [], [], [(.text "shelf", v)], false⟩

theorem reordered_alike_shelf : Reordered shelf turnedShelf ∧ TextKeyed shelf ∧ shelf.toText = turnedShelf.toText ∧
    (∀ (op : Operator) x, op.holds shelf x = op.holds turnedShelf x ∧ op.holds x shelf = op.holds x turnedShelf) ∧
    (∀ b ∈ Bucket.ofRecords "shelf" [shelfNote "a" shelf, shelfNote "b" .null, shelfNote "c" turnedShelf],
      shelfNote "a" shelf ∈ b.records ↔ shelfNote "c" turnedShelf ∈ b.records) ∧
    ∀ descending, sortBy (fun n : ℕ => if n = 0 then .text "z" else shelf) descending [0, 1, 2] =
      sortBy (fun n : ℕ => if n = 0 then .text "z" else turnedShelf) descending [0, 1, 2] := by
  have hkeys : TextKeyed shelf := by decide +kernel
  obtain ⟨hvalues, hgroups, hsorts⟩ := reordered_alike
  obtain ⟨htext, -, hholds⟩ := hvalues shelf turnedShelf reordered_shelf hkeys
  refine ⟨reordered_shelf, hkeys, htext, hholds, ?_, ?_⟩
  · exact (hgroups "shelf" _ (shelfNote "a" shelf) (by simp) (shelfNote "c" turnedShelf) (by simp)
      reordered_shelf hkeys).2
  · intro descending
    refine hsorts ℕ _ _ (fun n => ?_) descending [0, 1, 2]
    by_cases hn : n = 0
    · simp only [if_pos hn]
      exact ⟨.refl, trivial⟩
    · simp only [if_neg hn]
      exact ⟨reordered_shelf, hkeys⟩

/-- Of two keys with one text the last counts, so their order shows. -/
example : (map [(.int 1, .null), (.text "1", .bool true)]).toText ≠
    (map [(.text "1", .bool true), (.int 1, .null)]).toText := by decide +kernel

end Value

end NoteQuery

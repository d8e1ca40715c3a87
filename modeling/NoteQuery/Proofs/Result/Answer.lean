import NoteQuery.Proofs.Fallible
import NoteQuery.Proofs.Text.Digits
import NoteQuery.Proofs.Result.Inherited

/-!
# Answers

A query has an answer if it needs no text that cannot be had. A value has a text if no integer in it is too
long to be written and it does not contain itself, so over records of such values every query has one.
-/

namespace NoteQuery

namespace Value

/-! ## Values that can be written -/

mutual

/-- Whether a collection in a value contains itself. -/
def hasLoop : Value → Bool
  | .list items => itemsHaveLoop items
  | .map entries => entriesHaveLoop entries
  | .loop _ => true
  | _ => false

def itemsHaveLoop : List Value → Bool
  | [] => false
  | item :: items => hasLoop item || itemsHaveLoop items

def entriesHaveLoop : List (Value × Value) → Bool
  | [] => false
  | (key, value) :: entries => hasLoop key || hasLoop value || entriesHaveLoop entries

end

theorem itemsHaveLoop_eq_false_iff {items : List Value} :
    itemsHaveLoop items = false ↔ ∀ item ∈ items, hasLoop item = false := by
  induction items with
  | nil => simp [itemsHaveLoop]
  | cons item items ih => rw [itemsHaveLoop, Bool.or_eq_false_iff, ih, List.forall_mem_cons]

theorem entriesHaveLoop_eq_false_iff {entries : Entries} :
    entriesHaveLoop entries = false ↔ ∀ entry ∈ entries, hasLoop entry.1 = false ∧ hasLoop entry.2 = false := by
  induction entries with
  | nil => simp [entriesHaveLoop]
  | cons entry entries ih =>
    rw [entriesHaveLoop, Bool.or_eq_false_iff, Bool.or_eq_false_iff, ih, List.forall_mem_cons]

structure Writable (v : Value) : Prop where
  short : v.hasLong = false
  finite : v.hasLoop = false

instance (v : Value) : Decidable v.Writable :=
  decidable_of_iff (v.hasLong = false ∧ v.hasLoop = false) ⟨fun h => ⟨h.1, h.2⟩, fun h => ⟨h.short, h.finite⟩⟩

mutual

theorem documentHasLong_eq_false : ∀ {v : Value}, v.hasLong = false → v.documentHasLong = false
  | .int n, h => by rwa [hasLong] at h
  | .list items, h => by
    rw [hasLong] at h
    rw [documentHasLong]
    exact documentItemsHaveLong_eq_false h
  | .map entries, h => by
    rw [hasLong] at h
    rw [documentHasLong]
    exact documentEntriesHaveLong_eq_false h
  | .set items, h => by rwa [hasLong] at h
  | .missing, _ | .null, _ | .bool _, _ | .float _, _ | .text _, _ | .link _ _, _ | .date _, _ | .dateTime _, _
  | .bytes _, _ | .loop _, _ => rfl

theorem documentItemsHaveLong_eq_false : ∀ {items : List Value}, itemsHaveLong items = false →
    documentItemsHaveLong items = false
  | [], _ => rfl
  | item :: items, h => by
    rw [itemsHaveLong, Bool.or_eq_false_iff] at h
    rw [documentItemsHaveLong, documentHasLong_eq_false h.1, documentItemsHaveLong_eq_false h.2]
    rfl

theorem documentEntriesHaveLong_eq_false : ∀ {entries : List (Value × Value)}, entriesHaveLong entries = false →
    documentEntriesHaveLong entries = false
  | [], _ => rfl
  | (key, value) :: entries, h => by
    rw [entriesHaveLong, Bool.or_eq_false_iff, Bool.or_eq_false_iff] at h
    rw [documentEntriesHaveLong, documentHasLong_eq_false h.1.2, documentEntriesHaveLong_eq_false h.2, Bool.and_false]
    rfl

end

mutual

theorem textFault?_eq_none : ∀ {v : Value}, v.hasLong = false → v.hasLoop = false → v.textFault? = none
  | .int n, hshort, _ => by
    rw [hasLong] at hshort
    rw [textFault?, hshort]
    rfl
  | .list items, hshort, hfinite => by
    rw [hasLong] at hshort
    rw [hasLoop] at hfinite
    rw [textFault?]
    exact itemsFault?_eq_none hshort hfinite
  | .map entries, hshort, hfinite => by
    rw [hasLong] at hshort
    rw [hasLoop] at hfinite
    rw [textFault?, entriesFault?_eq_none hshort hfinite, documentEntriesHaveLong_eq_false hshort]
    rfl
  | .set items, hshort, _ => by
    rw [hasLong] at hshort
    rw [textFault?, hshort]
    rfl
  | .missing, _, _ | .null, _, _ | .bool _, _, _ | .float _, _, _ | .text _, _, _ | .link _ _, _, _ | .date _, _, _
  | .dateTime _, _, _ | .bytes _, _, _ => rfl

theorem itemsFault?_eq_none : ∀ {items : List Value}, itemsHaveLong items = false → itemsHaveLoop items = false →
    itemsFault? items = none
  | [], _, _ => rfl
  | item :: items, hshort, hfinite => by
    rw [itemsHaveLong, Bool.or_eq_false_iff] at hshort
    rw [itemsHaveLoop, Bool.or_eq_false_iff] at hfinite
    rw [itemsFault?, textFault?_eq_none hshort.1 hfinite.1, itemsFault?_eq_none hshort.2 hfinite.2]
    rfl

theorem keysFault?_eq_none : ∀ {v : Value}, v.hasLong = false → v.hasLoop = false → v.keysFault? = none
  | .list items, hshort, hfinite => by
    rw [hasLong] at hshort
    rw [hasLoop] at hfinite
    rw [keysFault?]
    exact itemKeysFault?_eq_none hshort hfinite
  | .map entries, hshort, hfinite => by
    rw [hasLong] at hshort
    rw [hasLoop] at hfinite
    rw [keysFault?]
    exact entriesFault?_eq_none hshort hfinite
  | .missing, _, _ | .null, _, _ | .bool _, _, _ | .int _, _, _ | .float _, _, _ | .text _, _, _ | .link _ _, _, _
  | .date _, _, _ | .dateTime _, _, _ | .bytes _, _, _ | .set _, _, _ => rfl

theorem itemKeysFault?_eq_none : ∀ {items : List Value}, itemsHaveLong items = false → itemsHaveLoop items = false →
    itemKeysFault? items = none
  | [], _, _ => rfl
  | item :: items, hshort, hfinite => by
    rw [itemsHaveLong, Bool.or_eq_false_iff] at hshort
    rw [itemsHaveLoop, Bool.or_eq_false_iff] at hfinite
    rw [itemKeysFault?, keysFault?_eq_none hshort.1 hfinite.1, itemKeysFault?_eq_none hshort.2 hfinite.2]
    rfl

theorem entriesFault?_eq_none : ∀ {entries : List (Value × Value)}, entriesHaveLong entries = false →
    entriesHaveLoop entries = false → entriesFault? entries = none
  | [], _, _ => rfl
  | (key, value) :: entries, hshort, hfinite => by
    rw [entriesHaveLong, Bool.or_eq_false_iff, Bool.or_eq_false_iff] at hshort
    rw [entriesHaveLoop, Bool.or_eq_false_iff, Bool.or_eq_false_iff] at hfinite
    obtain ⟨⟨hkey, hvalue⟩, hentries⟩ := hshort
    rw [entriesFault?, textFault?_eq_none hkey hfinite.1.1, keysFault?_eq_none hvalue hfinite.1.2,
      entriesFault?_eq_none hentries hfinite.2]
    rfl

end

theorem Writable.textFault? {v : Value} (h : v.Writable) : v.textFault? = none := textFault?_eq_none h.short h.finite

theorem inherited_writable : Inherited Writable where
  missing := ⟨rfl, rfl⟩
  text := fun _ => ⟨rfl, rfl⟩
  list := by
    intro t items
    constructor
    · rintro ⟨hshort, hfinite⟩ v hv
      rw [hasLong] at hshort
      rw [hasLoop] at hfinite
      exact ⟨itemsHaveLong_eq_false_iff.mp hshort v hv, itemsHaveLoop_eq_false_iff.mp hfinite v hv⟩
    · intro h
      refine ⟨?_, ?_⟩
      · rw [hasLong]
        exact itemsHaveLong_eq_false_iff.mpr fun v hv => (h v hv).short
      · rw [hasLoop]
        exact itemsHaveLoop_eq_false_iff.mpr fun v hv => (h v hv).finite
  entry := by
    intro entries key v h hentry
    obtain ⟨hshort, hfinite⟩ := h
    rw [hasLong] at hshort
    rw [hasLoop] at hfinite
    exact ⟨(entriesHaveLong_eq_false_iff.mp hshort (key, v) hentry).2,
      (entriesHaveLoop_eq_false_iff.mp hfinite (key, v) hentry).2⟩

/-! ## Comparisons that need no text that cannot be had -/

theorem or_eq_none {α : Type} {a b : Option α} (ha : a = none) (hb : b = none) : a.or b = none := by
  rw [ha, hb]
  rfl

theorem orderFault?_eq_none {a b : Value} (ha : a.textFault? = none) (hb : b.textFault? = none) :
    a.orderFault? b = none := by
  unfold orderFault?
  split
  · rfl
  · exact or_eq_none ha hb

theorem scalarEqualsFault?_eq_none {v l : Value} (hv : v.textFault? = none) (hl : l.textFault? = none) :
    v.scalarEqualsFault? l = none := by
  unfold scalarEqualsFault?
  split
  · rfl
  · split
    · rfl
    · split
      · rfl
      · rfl
      · exact or_eq_none hv hl

mutual

theorem equalsFault?_eq_none {l : Value} (hl : l.textFault? = none) : ∀ {v : Value}, v.textFault? = none →
    v.equalsFault? l = none
  | .list items, hv => by
    rw [textFault?] at hv
    rw [equalsFault?]
    exact anyEqualsFault?_eq_none hl hv
  | .loop isMap, hv => by cases hv
  | .missing, hv | .null, hv | .bool _, hv | .int _, hv | .float _, hv | .text _, hv | .link _ _, hv | .date _, hv
  | .dateTime _, hv | .bytes _, hv | .map _, hv | .set _, hv => by
    unfold equalsFault?
    exact scalarEqualsFault?_eq_none hv hl

theorem anyEqualsFault?_eq_none {l : Value} (hl : l.textFault? = none) : ∀ {items : List Value},
    itemsFault? items = none → anyEqualsFault? items l = none
  | [], _ => by rw [anyEqualsFault?]
  | item :: items, h => by
    rw [itemsFault?, Option.or_eq_none_iff] at h
    rw [anyEqualsFault?, anyEqualsFault?_eq_none hl h.2, equalsFault?_eq_none hl h.1, ite_self, Option.none_or, ite_self]

end

theorem compareFault?_eq_none {v l : Value} (hv : v.textFault? = none) (hl : l.textFault? = none) :
    v.compareFault? l = none := by
  unfold compareFault?
  split
  · rfl
  · exact or_eq_none hv hl

theorem containsFault?_eq_none {v l : Value} (hv : v.textFault? = none) (hl : l.textFault? = none) :
    v.containsFault? l = none := by
  have hitems : ∀ (needle : List Char) (items : List Value), itemsFault? items = none →
      anyContainsFault? needle items = none := by
    intro needle items
    induction items with
    | nil => exact fun _ => rfl
    | cons item items ih =>
      intro h
      rw [itemsFault?, Option.or_eq_none_iff] at h
      rw [anyContainsFault?, h.1, ih h.2, ite_self]
      rfl
  unfold containsFault?
  refine or_eq_none hl ?_
  split
  · rw [textFault?] at hv
    exact hitems _ _ hv
  · exact hv

end Value

theorem Operator.fault?_eq_none (op : Operator) {v l : Value} (hv : v.textFault? = none) (hl : l.textFault? = none) :
    op.fault? v l = none := by
  unfold Operator.fault?
  split
  · rfl
  · cases op with
    | equal => exact Value.equalsFault?_eq_none hl hv
    | unequal => exact Value.equalsFault?_eq_none hl hv
    | contains => exact Value.containsFault?_eq_none hv hl
    | unknown name => rfl
    | _ => exact Value.compareFault?_eq_none hv hl

/-! ## Sorts and groups -/

theorem sortFault?_eq_none {α : Type} {key : α → Value} {items : List α} (h : ∀ a ∈ items, (key a).textFault? = none) :
    sortFault? key items = none := by
  have hpairs : ∀ vs : List Value, (∀ v ∈ vs, v.textFault? = none) → pairFault? vs = none := by
    intro vs
    induction vs with
    | nil => exact fun _ => rfl
    | cons v vs ih =>
      intro h
      obtain ⟨hv, hvs⟩ := List.forall_mem_cons.mp h
      refine Value.or_eq_none ?_ (ih hvs)
      exact List.findSome?_eq_none_iff.mpr fun w hw => Value.orderFault?_eq_none hv (hvs w hw)
  refine hpairs _ fun v hv => ?_
  obtain ⟨a, ha, rfl⟩ := List.mem_map.mp (List.mem_filter.mp hv).1
  exact h a ha

namespace Bucket

theorem recordsFault?_eq_none_iff {field : String} {rows : List Record} :
    recordsFault? field rows = none ↔ ∀ r ∈ rows, (r.resolve field).textFault? = none :=
  List.findSome?_eq_none_iff

theorem forall_value_ofRecords {P : Value → Prop} {field : String} {rows : List Record}
    (h : ∀ r ∈ rows, P (r.resolve field)) : ∀ b ∈ ofRecords field rows, P b.value := by
  have hadd : ∀ (v : Value) (r : Record), P v → ∀ bs : List Bucket, (∀ b ∈ bs, P b.value) →
      ∀ b ∈ add v r bs, P b.value := by
    intro v r hv bs
    induction bs with
    | nil => simp [add, hv]
    | cons b bs ih =>
      intro hbs
      obtain ⟨hb, hrest⟩ := List.forall_mem_cons.mp hbs
      unfold add
      split
      · exact List.forall_mem_cons.mpr ⟨hb, hrest⟩
      · exact List.forall_mem_cons.mpr ⟨hb, ih hrest⟩
  unfold ofRecords
  refine List.foldlRecOn (motive := fun bs : List Bucket => ∀ b ∈ bs, P b.value) rows _ (by simp) fun bs hbs r hr => ?_
  exact hadd _ r (h r hr) bs hbs

end Bucket

namespace Query

variable {q : Query} {records : List Record}

/-- Buckets have been told apart by their texts before they are sorted. -/
theorem groupsFault?_eq_none_iff {field : String} {rows : List Record} :
    q.groupsFault? field rows = none ↔ ∀ r ∈ rows, (r.resolve field).textFault? = none := by
  unfold groupsFault?
  rw [Option.or_eq_none_iff, Bucket.recordsFault?_eq_none_iff]
  refine and_iff_left_of_imp fun h => Option.bind_eq_none_iff.mpr fun order _ => ?_
  unfold Bucket.sortFault?
  split
  · rfl
  · exact sortFault?_eq_none (Bucket.forall_value_ofRecords (P := fun v => v.textFault? = none) h)

theorem fault?_of_groupField {field : String} (hfield : q.groupField? = some field) :
    q.fault? records = none ↔ conditionsFault? q.conditions (q.scanned records) = none ∧
      ∀ r ∈ q.candidates records, (r.resolve field).textFault? = none := by
  unfold fault?
  rw [Option.or_eq_none_iff, hfield]
  exact and_congr_right fun _ => groupsFault?_eq_none_iff

theorem fault?_rows (q : Query) (records : List Record) :
    { q with groupBy := none, sort := none, limit := none }.fault? records =
      conditionsFault? q.conditions (q.scanned records) := by
  show (conditionsFault? q.conditions (q.scanned records)).or none = _
  exact Option.or_none

theorem conditionsFault?_eq_none : ∀ {conditions : List Condition} {rows : List Record},
    (∀ c ∈ conditions, ∀ r ∈ rows, c.fault? r = none) → conditionsFault? conditions rows = none
  | [], _, _ => rfl
  | c :: conditions, rows, h => by
    obtain ⟨hc, hrest⟩ := List.forall_mem_cons.mp h
    refine Value.or_eq_none (List.findSome?_eq_none_iff.mpr hc) (conditionsFault?_eq_none ?_)
    exact fun c hc r hr => hrest c hc r (List.mem_filter.mp hr).1

theorem fault?_eq_none (hrecords : ∀ r ∈ records, r.Inherits Value.Writable)
    (hliterals : ∀ c ∈ q.conditions, c.literal.Writable) : q.fault? records = none := by
  have hcandidates := inherits_candidates Value.inherited_writable q hrecords
  have hfields : ∀ field, ∀ r ∈ q.candidates records, (r.resolve field).textFault? = none := fun field r hr =>
    ((hcandidates r hr).resolve Value.inherited_writable field).textFault?
  have hconditions : conditionsFault? q.conditions (q.scanned records) = none := by
    refine conditionsFault?_eq_none fun c hc r hr => ?_
    have hrow := inherits_scanned Value.inherited_writable q hrecords r hr
    exact c.operator.fault?_eq_none (hrow.resolve Value.inherited_writable c.field).textFault? (hliterals c hc).textFault?
  cases hfield : q.groupField? with
  | some field => exact (fault?_of_groupField hfield).mpr ⟨hconditions, hfields field⟩
  | none =>
    unfold fault?
    rw [hfield]
    refine Value.or_eq_none hconditions (Option.bind_eq_none_iff.mpr fun order _ => ?_)
    unfold rowsFault?
    split
    · exact sortFault?_eq_none (hfields _)
    · rfl

theorem answer_eq_ok {r : Result} : q.answer records = .ok r ↔ q.fault? records = none ∧ q.run records = r := by
  unfold answer
  cases q.fault? records <;> simp

theorem exists_answer_eq_ok : (∃ r, q.answer records = .ok r) ↔ q.fault? records = none := by
  unfold answer
  cases q.fault? records <;> simp

theorem isSuccess_run (q : Query) (records : List Record) : (q.run records).isSuccess = true := by
  unfold run
  split <;> rfl

end Query

/-! ## A value without a text -/

def mapOf (n : Int) : Value := .map [(.text "k", .int n)]

theorem textFault?_mapOf (n : Int) : (mapOf n).textFault? = Value.digitsFault (Text.isLong n || false) := rfl

theorem exists_textFault : ∃ n, (mapOf n).textFault? = some .digits := by
  obtain ⟨n, hn⟩ := Text.exists_isLong
  refine ⟨n, ?_⟩
  rw [textFault?_mapOf, hn]
  rfl

def recordWith (field : String) (v : Value) : Record := ⟨"a.md", "a.md", "", [], [], [(.text field, v)], false⟩

end NoteQuery

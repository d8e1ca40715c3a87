import NoteQuery.Proofs.Fallible
import NoteQuery.Value.Stored

/-!
# Values that JSON knows

A value made of what JSON knows, with texts for keys, comes back from its document as it was, if no
map in it has one key twice. No map that is built by binding entries has.
-/

namespace NoteQuery

namespace Value

mutual

def Native : Value → Prop
  | .null | .bool _ | .int _ | .float _ | .text _ => True
  | @list false items => NativeItems items
  | .map entries => NativeEntries entries
  | _ => False

def NativeItems : List Value → Prop
  | [] => True
  | item :: items => Native item ∧ NativeItems items

def NativeEntries : List (Value × Value) → Prop
  | [] => True
  | (key, value) :: entries => (∃ s, key = .text s) ∧ Native value ∧ NativeEntries entries

end

instance decidableText : (key : Value) → Decidable (∃ s, key = .text s)
  | .text s => isTrue ⟨s, rfl⟩
  | .missing | .null | .bool _ | .int _ | .float _ | .list _ | .map _ | .link _ _ | .date _ | .dateTime _ | .bytes _
  | .set _ | .loop _ => isFalse fun ⟨_, h⟩ => nomatch h

mutual

instance decidableNative : (v : Value) → Decidable (Native v)
  | .null | .bool _ | .int _ | .float _ | .text _ => isTrue trivial
  | @list false items => decidableNativeItems items
  | .map entries => decidableNativeEntries entries
  | .missing | @list true _ | .link _ _ | .date _ | .dateTime _ | .bytes _ | .set _ | .loop _ => isFalse id

instance decidableNativeItems : (items : List Value) → Decidable (NativeItems items)
  | [] => isTrue trivial
  | item :: items => @instDecidableAnd _ _ (decidableNative item) (decidableNativeItems items)

instance decidableNativeEntries : (entries : List (Value × Value)) → Decidable (NativeEntries entries)
  | [] => isTrue trivial
  | (key, value) :: entries =>
    @instDecidableAnd _ _ (decidableText key)
      (@instDecidableAnd _ _ (decidableNative value) (decidableNativeEntries entries))

end

mutual

/-- No map in the value has one key twice. -/
def Keyed : Value → Prop
  | .list items => KeyedItems items
  | .map entries => KeyedEntries entries
  | _ => True

def KeyedItems : List Value → Prop
  | [] => True
  | item :: items => Keyed item ∧ KeyedItems items

def KeyedEntries : List (Value × Value) → Prop
  | [] => True
  | (key, value) :: entries =>
    (∀ other ∈ entries, key.sameKey other.1 = false) ∧ Keyed value ∧ KeyedEntries entries

end

theorem keyedItems_iff {items : List Value} : KeyedItems items ↔ ∀ item ∈ items, Keyed item := by
  induction items with
  | nil => simp [KeyedItems]
  | cons item items ih => rw [KeyedItems, ih, List.forall_mem_cons]

theorem nativeEntries_iff {entries : List (Value × Value)} :
    NativeEntries entries ↔ ∀ entry ∈ entries, (∃ s, entry.1 = .text s) ∧ Native entry.2 := by
  induction entries with
  | nil => simp [NativeEntries]
  | cons entry entries ih => rw [NativeEntries, ih, List.forall_mem_cons, and_assoc]

theorem keyedEntries_iff {entries : Entries} : KeyedEntries entries ↔
    entries.Pairwise (fun a b => a.1.sameKey b.1 = false) ∧ ∀ entry ∈ entries, Keyed entry.2 := by
  induction entries with
  | nil => simp [KeyedEntries]
  | cons entry entries ih =>
    rw [KeyedEntries, ih, List.pairwise_cons, List.forall_mem_cons]
    constructor
    · rintro ⟨hkey, hvalue, hpairwise, hvalues⟩
      exact ⟨⟨hkey, hpairwise⟩, hvalue, hvalues⟩
    · rintro ⟨⟨hkey, hpairwise⟩, hvalue, hvalues⟩
      exact ⟨hkey, hvalue, hpairwise, hvalues⟩

theorem itemsHaveLong_eq_false_iff {items : List Value} :
    itemsHaveLong items = false ↔ ∀ item ∈ items, hasLong item = false := by
  induction items with
  | nil => simp [itemsHaveLong]
  | cons item items ih => rw [itemsHaveLong, Bool.or_eq_false_iff, ih, List.forall_mem_cons]

theorem entriesHaveLong_eq_false_iff {entries : Entries} :
    entriesHaveLong entries = false ↔ ∀ entry ∈ entries, hasLong entry.1 = false ∧ hasLong entry.2 = false := by
  induction entries with
  | nil => simp [entriesHaveLong]
  | cons entry entries ih =>
    rw [entriesHaveLong, Bool.or_eq_false_iff, Bool.or_eq_false_iff, ih, List.forall_mem_cons]

end Value

namespace Entries

open Value (Keyed KeyedEntries Native NativeEntries keyedEntries_iff nativeEntries_iff entriesHaveLong
  entriesHaveLong_eq_false_iff)

/-! ## Entries that are bound -/

theorem mem_insert {key value : Value} {entry : Value × Value} : ∀ {entries : Entries},
    entry ∈ insert key value entries →
      (entry.1 = key ∨ ∃ old ∈ entries, old.1 = entry.1) ∧ (entry.2 = value ∨ ∃ old ∈ entries, old.2 = entry.2)
  | [], h => by
    obtain rfl := List.mem_singleton.mp h
    exact ⟨Or.inl rfl, Or.inl rfl⟩
  | (k, v) :: rest, h => by
    rw [insert] at h
    split at h
    · rcases List.mem_cons.mp h with rfl | h
      · exact ⟨Or.inr ⟨(k, v), List.mem_cons_self, rfl⟩, Or.inl rfl⟩
      · exact ⟨Or.inr ⟨entry, List.mem_cons_of_mem _ h, rfl⟩, Or.inr ⟨entry, List.mem_cons_of_mem _ h, rfl⟩⟩
    · rcases List.mem_cons.mp h with rfl | h
      · exact ⟨Or.inr ⟨(k, v), List.mem_cons_self, rfl⟩, Or.inr ⟨(k, v), List.mem_cons_self, rfl⟩⟩
      · obtain ⟨hkey, hvalue⟩ := mem_insert h
        refine ⟨hkey.imp_right ?_, hvalue.imp_right ?_⟩
        · rintro ⟨old, hold, heq⟩
          exact ⟨old, List.mem_cons_of_mem _ hold, heq⟩
        · rintro ⟨old, hold, heq⟩
          exact ⟨old, List.mem_cons_of_mem _ hold, heq⟩

theorem pairwise_insert (key value : Value) : ∀ {entries : Entries},
    entries.Pairwise (fun a b => a.1.sameKey b.1 = false) →
      (insert key value entries).Pairwise fun a b => a.1.sameKey b.1 = false
  | [], _ => List.pairwise_singleton _ _
  | (k, v) :: rest, h => by
    obtain ⟨hhead, htail⟩ := List.pairwise_cons.mp h
    rw [insert]
    split
    · exact List.pairwise_cons.mpr ⟨hhead, htail⟩
    · rename_i hother
      refine List.pairwise_cons.mpr ⟨fun entry hentry => ?_, pairwise_insert key value htail⟩
      rcases (mem_insert hentry).1 with heq | ⟨old, hold, heq⟩
      · rw [heq]
        exact Bool.not_eq_true _ ▸ hother
      · rw [← heq]
        exact hhead old hold

theorem keyedEntries_insert {key value : Value} {entries : Entries} (h : KeyedEntries entries) (hvalue : Keyed value) :
    KeyedEntries (insert key value entries) := by
  obtain ⟨hpairwise, hvalues⟩ := keyedEntries_iff.mp h
  refine keyedEntries_iff.mpr ⟨pairwise_insert key value hpairwise, fun entry hentry => ?_⟩
  rcases (mem_insert hentry).2 with heq | ⟨old, hold, heq⟩
  · rw [heq]
    exact hvalue
  · rw [← heq]
    exact hvalues old hold

theorem keyedEntries_foldl : ∀ {entries : List (Value × Value)} {done : Entries}, (∀ entry ∈ entries, Keyed entry.2) →
    KeyedEntries done → KeyedEntries (entries.foldl (fun done (k, v) => insert k v done) done)
  | [], _, _, hdone => hdone
  | (key, value) :: entries, done, h, hdone => by
    obtain ⟨hvalue, hrest⟩ := List.forall_mem_cons.mp h
    rw [List.foldl_cons]
    exact keyedEntries_foldl hrest (keyedEntries_insert hdone hvalue)

theorem keyedEntries_ofList {entries : List (Value × Value)} (h : ∀ entry ∈ entries, Keyed entry.2) :
    KeyedEntries (ofList entries) :=
  keyedEntries_foldl h trivial

theorem forall_mem_insert {p q : Value → Prop} {key value : Value} {entries : Entries} (hkey : p key) (hvalue : q value)
    (h : ∀ entry ∈ entries, p entry.1 ∧ q entry.2) : ∀ entry ∈ insert key value entries, p entry.1 ∧ q entry.2 := by
  intro entry hentry
  obtain ⟨hnewKey, hnewValue⟩ := mem_insert hentry
  constructor
  · rcases hnewKey with heq | ⟨old, hold, heq⟩
    · rwa [heq]
    · rw [← heq]
      exact (h old hold).1
  · rcases hnewValue with heq | ⟨old, hold, heq⟩
    · rwa [heq]
    · rw [← heq]
      exact (h old hold).2

theorem forall_mem_foldl {p q : Value → Prop} : ∀ {entries : List (Value × Value)} {done : Entries},
    (∀ entry ∈ entries, p entry.1 ∧ q entry.2) → (∀ entry ∈ done, p entry.1 ∧ q entry.2) →
      ∀ entry ∈ entries.foldl (fun done (k, v) => insert k v done) done, p entry.1 ∧ q entry.2
  | [], _, _, hdone => hdone
  | (key, value) :: entries, done, h, hdone => by
    obtain ⟨⟨hkey, hvalue⟩, hrest⟩ := List.forall_mem_cons.mp h
    rw [List.foldl_cons]
    exact forall_mem_foldl hrest (forall_mem_insert hkey hvalue hdone)

theorem forall_mem_ofList {p q : Value → Prop} {entries : List (Value × Value)}
    (h : ∀ entry ∈ entries, p entry.1 ∧ q entry.2) : ∀ entry ∈ ofList entries, p entry.1 ∧ q entry.2 :=
  forall_mem_foldl h nofun

theorem nativeEntries_ofList {entries : List (Value × Value)} (h : NativeEntries entries) :
    NativeEntries (ofList entries) :=
  nativeEntries_iff.mpr (forall_mem_ofList (p := fun key => ∃ s, key = .text s) (q := Native) (nativeEntries_iff.mp h))

theorem entriesHaveLong_ofList {entries : List (Value × Value)} (h : entriesHaveLong entries = false) :
    entriesHaveLong (ofList entries) = false :=
  entriesHaveLong_eq_false_iff.mpr (forall_mem_ofList (p := (·.hasLong = false)) (q := (·.hasLong = false))
    (entriesHaveLong_eq_false_iff.mp h))

theorem insert_of_new {key value : Value} : ∀ {entries : Entries}, (∀ entry ∈ entries, entry.1.sameKey key = false) →
    insert key value entries = entries ++ [(key, value)]
  | [], _ => rfl
  | (k, v) :: rest, h => by
    obtain ⟨hhead, htail⟩ := List.forall_mem_cons.mp h
    rw [insert, hhead, if_neg Bool.false_ne_true, insert_of_new htail, List.cons_append]

theorem foldl_insert_of_new : ∀ {entries : List (Value × Value)} {done : Entries},
    (done ++ entries).Pairwise (fun a b => a.1.sameKey b.1 = false) →
      entries.foldl (fun done (k, v) => insert k v done) done = done ++ entries
  | [], done, _ => (List.append_nil done).symm
  | (key, value) :: entries, done, h => by
    have hnew : ∀ old ∈ done, old.1.sameKey key = false := fun old hold =>
      (List.pairwise_append.mp h).2.2 old hold (key, value) List.mem_cons_self
    rw [List.append_cons] at h
    rw [List.foldl_cons]
    dsimp only
    rw [insert_of_new hnew, foldl_insert_of_new h, List.append_assoc, List.singleton_append]

theorem ofList_of_pairwise {entries : List (Value × Value)}
    (h : entries.Pairwise fun a b => a.1.sameKey b.1 = false) : ofList entries = entries :=
  foldl_insert_of_new h

end Entries

namespace Value

/-! ## Documents that are read back -/

def storedEntries (entries : Entries) : Except Undocumented Entries :=
  (entriesToJson entries).map fun docs => Entries.ofList (entriesOfJson docs)

theorem unlessLong_eq_ok {α : Type} {isLong : Bool} {written a : α} (h : unlessLong isLong written = .ok a) :
    isLong = false ∧ written = a := by
  unfold unlessLong at h
  split at h
  · cases h
  · rename_i hshort
    exact ⟨Bool.not_eq_true _ ▸ hshort, Except.ok.inj h⟩

mutual

theorem exists_toJson : ∀ {v : Value}, Native v → hasLong v = false → ∃ doc, toJson v = .ok doc
  | .null, _, _ => ⟨.null, rfl⟩
  | .bool b, _, _ => ⟨.bool b, rfl⟩
  | .int n, _, hshort => by
    rw [hasLong] at hshort
    refine ⟨.int n, ?_⟩
    rw [toJson, hshort]
    rfl
  | .float x, _, _ => ⟨.float x, rfl⟩
  | .text s, _, _ => ⟨.text s, rfl⟩
  | @list false items, hnative, hshort => by
    obtain ⟨docs, hdocs⟩ := exists_itemsToJson (by rwa [Native] at hnative) (by rwa [hasLong] at hshort)
    refine ⟨.list docs, ?_⟩
    rw [toJson, hdocs]
    rfl
  | .map entries, hnative, hshort => by
    obtain ⟨docs, hdocs⟩ := exists_entriesToJson (by rwa [Native] at hnative) (by rwa [hasLong] at hshort)
    refine ⟨.object docs, ?_⟩
    rw [toJson, hdocs]
    rfl

theorem exists_itemsToJson : ∀ {items : List Value}, NativeItems items → itemsHaveLong items = false →
    ∃ docs, itemsToJson items = .ok docs
  | [], _, _ => ⟨[], rfl⟩
  | item :: items, hnative, hshort => by
    rw [NativeItems] at hnative
    rw [itemsHaveLong, Bool.or_eq_false_iff] at hshort
    obtain ⟨doc, hdoc⟩ := exists_toJson hnative.1 hshort.1
    obtain ⟨docs, hdocs⟩ := exists_itemsToJson hnative.2 hshort.2
    refine ⟨doc :: docs, ?_⟩
    rw [itemsToJson, hdoc, hdocs]
    rfl

theorem exists_entriesToJson : ∀ {entries : List (Value × Value)}, NativeEntries entries →
    entriesHaveLong entries = false → ∃ docs, entriesToJson entries = .ok docs
  | [], _, _ => ⟨[], rfl⟩
  | (key, value) :: entries, hnative, hshort => by
    rw [NativeEntries] at hnative
    rw [entriesHaveLong, Bool.or_eq_false_iff, Bool.or_eq_false_iff] at hshort
    obtain ⟨⟨s, rfl⟩, hvalue, hentries⟩ := hnative
    obtain ⟨doc, hdoc⟩ := exists_toJson hvalue hshort.1.2
    obtain ⟨docs, hdocs⟩ := exists_entriesToJson hentries hshort.2
    refine ⟨(s, doc) :: docs, ?_⟩
    rw [entriesToJson, keyText, hdoc, hdocs]
    rfl

end

mutual

theorem ofJson_toJson : ∀ {v : Value} {doc : Json}, Native v → Keyed v → toJson v = .ok doc → ofJson doc = v
  | .null, _, _, _, h | .bool _, _, _, _, h | .float _, _, _, _, h | .text _, _, _, _, h => by
    rw [toJson] at h
    rw [← Except.ok.inj h, ofJson]
  | .int n, _, _, _, h => by
    rw [toJson] at h
    rw [← (unlessLong_eq_ok h).2, ofJson]
  | @list false items, _, hnative, hkeyed, h => by
    rw [toJson] at h
    obtain ⟨docs, hdocs, rfl⟩ := map_eq_ok h
    rw [ofJson, seq, itemsOfJson_itemsToJson (by rwa [Native] at hnative) (by rwa [Keyed] at hkeyed) hdocs]
  | .map entries, _, hnative, hkeyed, h => by
    rw [toJson] at h
    rw [Keyed] at hkeyed
    obtain ⟨docs, hdocs, rfl⟩ := map_eq_ok h
    rw [ofJson, entriesOfJson_entriesToJson (by rwa [Native] at hnative) hkeyed hdocs,
      Entries.ofList_of_pairwise (keyedEntries_iff.mp hkeyed).1]

theorem itemsOfJson_itemsToJson : ∀ {items : List Value} {docs : List Json}, NativeItems items → KeyedItems items →
    itemsToJson items = .ok docs → itemsOfJson docs = items
  | [], _, _, _, h => by
    rw [itemsToJson] at h
    rw [← Except.ok.inj h, itemsOfJson]
  | item :: items, _, hnative, hkeyed, h => by
    rw [NativeItems] at hnative
    rw [KeyedItems] at hkeyed
    rw [itemsToJson] at h
    obtain ⟨doc, hdoc, h⟩ := bind_eq_ok h
    obtain ⟨docs, hdocs, h⟩ := bind_eq_ok h
    rw [← Except.ok.inj h, itemsOfJson, ofJson_toJson hnative.1 hkeyed.1 hdoc,
      itemsOfJson_itemsToJson hnative.2 hkeyed.2 hdocs]

theorem entriesOfJson_entriesToJson : ∀ {entries : List (Value × Value)} {docs : List (String × Json)},
    NativeEntries entries → KeyedEntries entries → entriesToJson entries = .ok docs → entriesOfJson docs = entries
  | [], _, _, _, h => by
    rw [entriesToJson] at h
    rw [← Except.ok.inj h, entriesOfJson]
  | (key, value) :: entries, _, hnative, hkeyed, h => by
    rw [NativeEntries] at hnative
    rw [KeyedEntries] at hkeyed
    obtain ⟨⟨s, rfl⟩, hvalue, hentries⟩ := hnative
    rw [entriesToJson, keyText, ok_bind] at h
    obtain ⟨doc, hdoc, h⟩ := bind_eq_ok h
    obtain ⟨docs, hdocs, h⟩ := bind_eq_ok h
    rw [← Except.ok.inj h, entriesOfJson, ofJson_toJson hvalue hkeyed.2.1 hdoc,
      entriesOfJson_entriesToJson hentries hkeyed.2.2 hdocs]

end

mutual

theorem hasLong_ofJson : ∀ {v : Value} {doc : Json}, toJson v = .ok doc → hasLong (ofJson doc) = false
  | .null, _, h | .bool _, _, h | .float _, _, h | .text _, _, h => by
    rw [toJson] at h
    rw [← Except.ok.inj h]
    rfl
  | .int n, _, h => by
    rw [toJson] at h
    obtain ⟨hshort, rfl⟩ := unlessLong_eq_ok h
    rw [ofJson, hasLong, hshort]
  | .list items, _, h => by
    rw [toJson] at h
    obtain ⟨docs, hdocs, rfl⟩ := map_eq_ok h
    rw [ofJson, hasLong, itemsHaveLong_itemsOfJson hdocs]
  | .map entries, _, h => by
    rw [toJson] at h
    obtain ⟨docs, hdocs, rfl⟩ := map_eq_ok h
    rw [ofJson, hasLong, Entries.entriesHaveLong_ofList (entriesHaveLong_entriesOfJson hdocs)]
  | .missing, _, h | .link _ _, _, h | .date _, _, h | .dateTime _, _, h | .bytes _, _, h | .set _, _, h => by
    rw [toJson] at h
    · rw [← (unlessLong_eq_ok h).2]
      rfl
    all_goals nofun
  | .loop _, _, h => by
    rw [toJson] at h
    cases h

theorem itemsHaveLong_itemsOfJson : ∀ {items : List Value} {docs : List Json}, itemsToJson items = .ok docs →
    itemsHaveLong (itemsOfJson docs) = false
  | [], _, h => by
    rw [itemsToJson] at h
    rw [← Except.ok.inj h, itemsOfJson, itemsHaveLong]
  | item :: items, _, h => by
    rw [itemsToJson] at h
    obtain ⟨doc, hdoc, h⟩ := bind_eq_ok h
    obtain ⟨docs, hdocs, h⟩ := bind_eq_ok h
    rw [← Except.ok.inj h, itemsOfJson, itemsHaveLong, hasLong_ofJson hdoc, itemsHaveLong_itemsOfJson hdocs, Bool.or_false]

theorem entriesHaveLong_entriesOfJson : ∀ {entries : List (Value × Value)} {docs : List (String × Json)},
    entriesToJson entries = .ok docs → entriesHaveLong (entriesOfJson docs) = false
  | [], _, h => by
    rw [entriesToJson] at h
    rw [← Except.ok.inj h, entriesOfJson, entriesHaveLong]
  | (key, value) :: entries, _, h => by
    rw [entriesToJson] at h
    obtain ⟨name, -, h⟩ := bind_eq_ok h
    obtain ⟨doc, hdoc, h⟩ := bind_eq_ok h
    obtain ⟨docs, hdocs, h⟩ := bind_eq_ok h
    rw [← Except.ok.inj h, entriesOfJson, entriesHaveLong, hasLong, hasLong_ofJson hdoc,
      entriesHaveLong_entriesOfJson hdocs]
    · rfl
    all_goals nofun

end

/-! ## What documents are read as -/

mutual

theorem native_ofJson : ∀ doc : Json, Native (ofJson doc)
  | .null | .bool _ | .int _ | .float _ | .text _ => by
    rw [ofJson]
    trivial
  | .list docs => by
    rw [ofJson, Native]
    exact nativeItems_itemsOfJson docs
  | .object entries => by
    rw [ofJson, Native]
    exact Entries.nativeEntries_ofList (nativeEntries_entriesOfJson entries)

theorem nativeItems_itemsOfJson : ∀ docs : List Json, NativeItems (itemsOfJson docs)
  | [] => trivial
  | doc :: docs => by
    rw [itemsOfJson, NativeItems]
    exact ⟨native_ofJson doc, nativeItems_itemsOfJson docs⟩

theorem nativeEntries_entriesOfJson : ∀ entries : List (String × Json), NativeEntries (entriesOfJson entries)
  | [] => trivial
  | (name, doc) :: entries => by
    rw [entriesOfJson, NativeEntries]
    exact ⟨⟨name, rfl⟩, native_ofJson doc, nativeEntries_entriesOfJson entries⟩

end

mutual

theorem keyed_ofJson : ∀ doc : Json, Keyed (ofJson doc)
  | .null | .bool _ | .int _ | .float _ | .text _ => by
    rw [ofJson]
    trivial
  | .list docs => by
    rw [ofJson, Keyed]
    exact keyedItems_itemsOfJson docs
  | .object entries => by
    rw [ofJson, Keyed]
    exact Entries.keyedEntries_ofList (keyed_of_mem_entriesOfJson entries)

theorem keyedItems_itemsOfJson : ∀ docs : List Json, KeyedItems (itemsOfJson docs)
  | [] => trivial
  | doc :: docs => by
    rw [itemsOfJson, KeyedItems]
    exact ⟨keyed_ofJson doc, keyedItems_itemsOfJson docs⟩

theorem keyed_of_mem_entriesOfJson : ∀ entries : List (String × Json), ∀ entry ∈ entriesOfJson entries, Keyed entry.2
  | [] => nofun
  | (name, doc) :: entries => by
    rw [entriesOfJson, List.forall_mem_cons]
    exact ⟨keyed_ofJson doc, keyed_of_mem_entriesOfJson entries⟩

end

theorem storedEntries_of_native {entries : Entries} (hnative : NativeEntries entries) (hkeyed : KeyedEntries entries)
    (hshort : entriesHaveLong entries = false) : storedEntries entries = .ok entries := by
  obtain ⟨docs, hdocs⟩ := exists_entriesToJson hnative hshort
  have hback := entriesOfJson_entriesToJson hnative hkeyed hdocs
  rw [storedEntries, hdocs]
  show Except.ok (Entries.ofList (entriesOfJson docs)) = Except.ok entries
  rw [hback, Entries.ofList_of_pairwise (keyedEntries_iff.mp hkeyed).1]

theorem spec_of_storedEntries {entries stored : Entries} (h : storedEntries entries = .ok stored) :
    NativeEntries stored ∧ KeyedEntries stored ∧ entriesHaveLong stored = false := by
  obtain ⟨docs, hdocs, rfl⟩ := map_eq_ok h
  exact ⟨Entries.nativeEntries_ofList (nativeEntries_entriesOfJson docs),
    Entries.keyedEntries_ofList (keyed_of_mem_entriesOfJson docs),
    Entries.entriesHaveLong_ofList (entriesHaveLong_entriesOfJson hdocs)⟩

theorem entriesHaveLong_of_storedEntries {entries stored : Entries} (hnative : NativeEntries entries)
    (hkeyed : KeyedEntries entries) (h : storedEntries entries = .ok stored) : entriesHaveLong entries = false := by
  obtain ⟨docs, hdocs, -⟩ := map_eq_ok h
  rw [← entriesOfJson_entriesToJson hnative hkeyed hdocs]
  exact entriesHaveLong_entriesOfJson hdocs

theorem eq_of_storedEntries {entries stored : Entries} (hnative : NativeEntries entries) (hkeyed : KeyedEntries entries)
    (h : storedEntries entries = .ok stored) : stored = entries := by
  obtain ⟨docs, hdocs, rfl⟩ := map_eq_ok h
  rw [entriesOfJson_entriesToJson hnative hkeyed hdocs, Entries.ofList_of_pairwise (keyedEntries_iff.mp hkeyed).1]

end Value

end NoteQuery

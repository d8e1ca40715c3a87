import NoteQuery.Proofs.Fallible
import NoteQuery.Proofs.Index.Call
import NoteQuery.Proofs.Index.Catalog
import NoteQuery.Proofs.Index.Row
import NoteQuery.Proofs.Index.Rows

/-!
# Indexes refine catalogs

After any edits an index answers every read, and replies to every further edit, as the catalog
does that the same edits lead to. The step lemma says it of one edit of an index that stands for a
catalog; the run lemma follows by induction on the edits.
-/

namespace NoteQuery

open Index (rowAt Keyed)

structure Refines (x : Index) (c : Catalog) : Prop where
  location : x.location = c.location
  isOpen : x.isOpen = c.isOpen
  keyed : Keyed x.rows
  records : ∀ key path, rowAt x.rows key path = (c.records key)[path]?
  statuses : ∀ key, x.statuses.lookup key = c.statuses key

inductive Follows {α : Type} (x : Index) : Except IndexFault α × Index → Except IndexFault (α × Catalog) → Prop
  | ok (a : α) {y : Index} {c : Catalog} : Refines y c → Follows x (.ok a, y) (.ok (a, c))
  | error (fault : IndexFault) : Follows x (.error fault, x) (.error fault)

theorem Follows.map {α β : Type} {x : Index} {call : IndexCall α} {right : Except IndexFault (α × Catalog)}
    (h : Follows x (call.on x) right) (f : α → β) :
    Follows x (IndexCall.on (do return f (← call)) x) (right.map fun out => (f out.1, out.2)) := by
  rw [IndexCall.on_bind]
  generalize call.on x = left at h
  cases h with
  | ok a hrefines => exact .ok (f a) hrefines
  | error fault => exact .error fault

/-! ## Stored forms -/

namespace Value

mutual

theorem ofJson_of_kept : ∀ v : Value, (toJson v).map ofJson = kept v
  | .null | .bool _ | .float _ | .text _ | .loop _ => rfl
  | .int n => by
    rw [toJson, kept]
    cases Text.isLong n <;> rfl
  | .list items => by
    rw [toJson, kept, ← itemsOfJson_of_kept items]
    cases itemsToJson items <;> rfl
  | .map entries => by
    rw [toJson, kept, ← entriesOfJson_of_kept entries]
    cases entriesToJson entries <;> rfl
  | .missing | .link _ _ | .date _ | .dateTime _ | .bytes _ | .set _ => by
    unfold toJson kept unlessLong
    split <;> rfl

theorem itemsOfJson_of_kept : ∀ items : List Value, (itemsToJson items).map itemsOfJson = keptItems items
  | [] => rfl
  | item :: items => by
    rw [itemsToJson, keptItems, ← ofJson_of_kept item, ← itemsOfJson_of_kept items]
    cases toJson item with
    | error cause => rfl
    | ok doc => cases itemsToJson items <;> rfl

theorem entriesOfJson_of_kept : ∀ entries : List (Value × Value),
    (entriesToJson entries).map entriesOfJson = keptEntries entries
  | [] => rfl
  | (key, value) :: entries => by
    rw [entriesToJson, keptEntries, ← ofJson_of_kept value, ← entriesOfJson_of_kept entries]
    cases keyText key with
    | error cause => rfl
    | ok name =>
      cases toJson value with
      | error cause => rfl
      | ok doc => cases entriesToJson entries <;> rfl

end

end Value

theorem stored_eq_kept (r : Record) : Index.stored r = r.kept := by
  rw [Index.stored_eq, Record.kept, ← Value.entriesOfJson_of_kept, Value.storedEntries]
  cases Value.entriesToJson r.frontMatter <;> rfl

theorem refines_empty (location : String) : Refines (Index.empty location) (Catalog.empty location) where
  location := rfl
  isOpen := rfl
  keyed := List.Pairwise.nil
  records _ _ := Std.ExtTreeMap.getElem?_empty.symm
  statuses _ := rfl

theorem rowAt_foldl_put (key : VaultKey) : ∀ (records : List Record) {rows : List (VaultKey × Record)}
    {m : Std.ExtTreeMap String Record}, Keyed rows → (∀ path, rowAt rows key path = m[path]?) →
      Keyed (records.foldl (fun rows r => Index.put key r rows) rows) ∧
      (∀ path, rowAt (records.foldl (fun rows r => Index.put key r rows) rows) key path =
        (records.foldl (fun m r => m.insert r.path r) m)[path]?) ∧
      ∀ other ≠ key, ∀ path, rowAt (records.foldl (fun rows r => Index.put key r rows) rows) other path =
        rowAt rows other path
  | [], _, _, hkeyed, hsame => ⟨hkeyed, hsame, fun _ _ _ => rfl⟩
  | r :: records, rows, m, hkeyed, hsame => by
    have hput : ∀ path, rowAt (Index.put key r rows) key path = (m.insert r.path r)[path]? := by
      intro path
      rw [Index.rowAt_put, Std.ExtTreeMap.getElem?_insert, hsame]
      simp
    obtain ⟨hall, hback, hframe⟩ := rowAt_foldl_put key records (Index.keyed_put hkeyed key r) hput
    refine ⟨hall, hback, fun other hother path => ?_⟩
    rw [List.foldl_cons, hframe other hother, Index.rowAt_put, if_neg fun hat => hother hat.1.symm]

theorem foldl_erase (path : String) : ∀ (paths : List String) (m : Std.ExtTreeMap String Record),
    (paths.foldl (·.erase ·) m)[path]? = if path ∈ paths then none else m[path]?
  | [], m => by simp
  | p :: paths, m => by
    rw [List.foldl_cons, foldl_erase path paths, Std.ExtTreeMap.getElem?_erase]
    by_cases hp : path = p
    · simp [hp]
    · simp [hp, Ne.symm hp]

theorem length_sub_filter {α : Type} (l : List α) (p : α → Bool) :
    l.length - (l.filter p).length = (l.filter (!p ·)).length := by
  have hsum := List.length_eq_length_filter_add (l := l) p
  omega

theorem isStorable_eq (s : IndexStatus) :
    s.isStorable = [s.total, s.indexed, s.failed].all fun n => -0x8000000000000000 ≤ n ∧ n < 0x8000000000000000 := by
  simp [IndexStatus.isStorable]

namespace Refines

variable {x : Index} {c : Catalog} (h : Refines x c)
include h

theorem checkOpen : x.checkOpen = c.checkOpen := by
  rw [Index.checkOpen, Catalog.checkOpen, h.isOpen, h.location]

/-! ## Reads -/

theorem path_of_mem {key : VaultKey} {entry : String × Record} (hmem : entry ∈ (c.records key).toList) :
    entry.2.path = entry.1 := by
  have hat := Std.ExtTreeMap.mem_toList_iff_getElem?_eq_some.mp hmem
  rw [← h.records] at hat
  exact (Index.mem_of_rowAt hat).2

theorem list_ascending (key : VaultKey) : (c.list key).Pairwise fun a b => a.path < b.path := by
  refine List.pairwise_map.mpr (Std.ExtTreeMap.ordered_keys_toList.imp_of_mem fun ha hb hlt => ?_)
  rw [h.path_of_mem ha, h.path_of_mem hb]
  exact compareOfLessAndEq_eq_lt.mp hlt

theorem mem_list {key : VaultKey} {r : Record} : r ∈ c.list key ↔ rowAt x.rows key r.path = some r := by
  rw [h.records, ← Std.ExtTreeMap.mem_toList_iff_getElem?_eq_some, Catalog.list, List.mem_map]
  constructor
  · rintro ⟨entry, hentry, rfl⟩
    rwa [h.path_of_mem hentry]
  · intro hmem
    exact ⟨(r.path, r), hmem, rfl⟩

theorem recordsOf (key : VaultKey) : x.recordsOf key = c.list key := by
  refine eq_of_ascending (Index.recordsOf_ascending h.keyed key) (h.list_ascending key) fun r => ?_
  rw [Index.mem_recordsOf_iff h.keyed, h.mem_list]

omit h in
theorem length_list (key : VaultKey) : (c.list key).length = (c.records key).size := by
  rw [Catalog.list, List.length_map, Std.ExtTreeMap.length_toList]

theorem map_list (key : VaultKey) : ((c.list key).map fun r => (r.path, r.sha)) =
    (c.records key).toList.map fun (path, r) => (path, r.sha) := by
  rw [Catalog.list, List.map_map]
  refine List.map_congr_left fun entry hentry => ?_
  rw [Function.comp_apply, h.path_of_mem hentry]

theorem listAll (key : VaultKey) : x.listAll key = c.checkOpen.map fun _ => c.list key := by
  rw [Index.listAll, h.checkOpen, h.recordsOf]
  cases c.checkOpen <;> rfl

theorem read (r : Read) : x.read r = c.read r := by
  cases r with
  | get key path =>
    have hat := h.records key path
    unfold rowAt at hat
    simp only [Index.read, Index.get?, Catalog.read, h.checkOpen, hat]
    cases c.checkOpen <;> rfl
  | status key =>
    simp only [Index.read, Index.status?, Catalog.read, h.checkOpen, h.statuses]
    cases c.checkOpen <;> rfl
  | listAll key =>
    simp only [Index.read, Catalog.read, h.listAll]
    cases c.checkOpen <;> rfl
  | listPublic key =>
    simp only [Index.read, Index.listPublic, Catalog.read, h.listAll]
    cases c.checkOpen <;> rfl
  | hashes key =>
    simp only [Index.read, Index.hashes, Catalog.read, h.listAll, ← h.map_list]
    cases c.checkOpen <;> rfl
  | count key =>
    simp only [Index.read, Index.count, Catalog.read, h.listAll, ← length_list]
    cases c.checkOpen <;> rfl

/-! ## Edits -/

theorem withRecords {key : VaultKey} {rows : List (VaultKey × Record)} {m : Std.ExtTreeMap String Record}
    (hkeyed : Keyed rows) (hsame : ∀ path, rowAt rows key path = m[path]?)
    (hother : ∀ other ≠ key, ∀ path, rowAt rows other path = rowAt x.rows other path) :
    Refines { x with rows } (c.withRecords key m) where
  location := h.location
  isOpen := h.isOpen
  keyed := hkeyed
  records other path := by
    show rowAt rows other path = (if other = key then m else c.records other)[path]?
    by_cases hkey : other = key
    · rw [if_pos hkey, hkey, hsame]
    · rw [if_neg hkey, hother other hkey, h.records]
  statuses := h.statuses

theorem changeStatus (key : VaultKey) (change : IndexStatus → IndexStatus) :
    Follows x (IndexCall.on (do return Reply.status (← IndexCall.changeStatus key change)) x)
      (c.changeStatus key change) := by
  rw [IndexCall.on_bind, IndexCall.on_changeStatus, Catalog.changeStatus, h.checkOpen, h.statuses]
  cases c.checkOpen with
  | error fault => exact .error fault
  | ok _ =>
    dsimp only [bind, Except.bind]
    -- what is written may be any status, so the catalog has to refuse the same ones
    generalize change ((c.statuses key).getD .initial) = status
    rw [isStorable_eq]
    by_cases hfits : ([status.total, status.indexed, status.failed].all
        fun n => -0x8000000000000000 ≤ n ∧ n < 0x8000000000000000) = true
    · rw [if_pos hfits, if_pos hfits]
      refine .ok _ { location := h.location, isOpen := h.isOpen, keyed := h.keyed, records := h.records, statuses := ?_ }
      intro other
      show List.lookup other ((key, _) :: x.statuses.filter (·.1 != key)) = if other = key then _ else _
      rw [List.lookup_cons]
      by_cases hother : other = key
      · rw [hother, beq_self_eq_true, if_pos rfl]
      · rw [beq_false_of_ne hother, if_neg hother, lookup_filter (fun _ => by simpa using hother), h.statuses]
    · rw [if_neg hfits, if_neg hfits]
      exact .error .overflow

theorem upsertMany (key : VaultKey) (records : List Record) :
    Follows x ((IndexCall.upsertMany key records).on x) (c.upsertMany key records) := by
  rw [IndexCall.on_upsertMany, Catalog.upsertMany, h.checkOpen, funext stored_eq_kept]
  cases hwritten : records.mapM Record.kept with
  | error fault => exact .error fault
  | ok written =>
    have hlength := length_of_mapM hwritten
    obtain ⟨hkeyed, hback, hframe⟩ := rowAt_foldl_put key written h.keyed (h.records key)
    cases written with
    | nil => exact .ok 0 h
    | cons r written =>
      cases c.checkOpen with
      | error fault => exact .error fault
      | ok _ =>
        rw [← hlength]
        exact .ok (r :: written).length (h.withRecords hkeyed hback hframe)

theorem length_dropped (key : VaultKey) (paths : List String) :
    (x.rows.filter fun row => row.1 == key && paths.contains row.2.path).length =
      (paths.dedup.filter (· ∈ c.records key)).length := by
  have hnodup : ((x.rows.filter fun row => row.1 == key && paths.contains row.2.path).map (·.2.path)).Nodup := by
    refine List.pairwise_map.mpr ((Index.keyed_filter h.keyed _).imp_of_mem fun ha hb hab hpath => hab ⟨?_, hpath⟩)
    have hakey := (List.mem_filter.mp ha).2
    have hbkey := (List.mem_filter.mp hb).2
    simp only [Bool.and_eq_true, beq_iff_eq] at hakey hbkey
    rw [hakey.1, hbkey.1]
  have hperm := (List.perm_ext_iff_of_nodup hnodup ((List.nodup_dedup paths).filter (· ∈ c.records key))).mpr
    fun path => ?_
  · rw [← hperm.length_eq, List.length_map]
  · simp only [List.mem_map, List.mem_filter, Bool.and_eq_true, beq_iff_eq, List.contains_iff_mem, List.mem_dedup,
      decide_eq_true_eq, Std.ExtTreeMap.mem_iff_isSome_getElem?, ← h.records]
    constructor
    · rintro ⟨row, ⟨hrow, rfl, hpath⟩, rfl⟩
      exact ⟨hpath, by rw [Index.rowAt_of_mem h.keyed hrow]; rfl⟩
    · rintro ⟨hpath, hsome⟩
      obtain ⟨r, hr⟩ := Option.isSome_iff_exists.mp hsome
      obtain ⟨hmem, rfl⟩ := Index.mem_of_rowAt hr
      exact ⟨(key, r), ⟨hmem, rfl, hpath⟩, rfl⟩

theorem drop (key : VaultKey) (gone : String → Bool) {m : Std.ExtTreeMap String Record}
    (hm : ∀ path, m[path]? = if gone path = true then none else (c.records key)[path]?) {n : Nat}
    (hn : (x.rows.filter fun row => row.1 == key && gone row.2.path).length = n) :
    Follows x
      (.ok (x.rows.length - (x.rows.filter fun row => !(row.1 == key && gone row.2.path)).length),
        { x with rows := x.rows.filter fun row => !(row.1 == key && gone row.2.path) })
      (.ok (n, c.withRecords key m)) := by
  have hfilter := Index.rowAt_filter fun k path => !(k == key && gone path)
  have hcount := length_sub_filter x.rows fun row => !(row.1 == key && gone row.2.path)
  simp only [Bool.not_not] at hcount
  rw [hcount, hn]
  refine .ok n (h.withRecords (Index.keyed_filter h.keyed _) (fun path => ?_) fun other hother path => ?_)
  · rw [hfilter, hm, h.records]
    cases hgone : gone path <;> simp
  · rw [hfilter, beq_false_of_ne hother, Bool.false_and, Bool.not_false, if_pos rfl]

theorem deleteMany (key : VaultKey) (paths : List String) :
    Follows x ((IndexCall.deleteMany key paths).on x) (c.deleteMany key paths) := by
  rw [IndexCall.on_deleteMany, Catalog.deleteMany, h.checkOpen]
  cases paths with
  | nil => exact .ok 0 h
  | cons p paths =>
    cases c.checkOpen with
    | error fault => exact .error fault
    | ok _ =>
      refine h.drop key (p :: paths).contains (fun path => ?_) (h.length_dropped key (p :: paths))
      rw [foldl_erase]
      simp only [List.contains_iff_mem]

theorem deleteAll (key : VaultKey) : Follows x ((IndexCall.deleteAll key).on x) (c.deleteAll key) := by
  rw [IndexCall.on_deleteAll, Catalog.deleteAll, h.checkOpen]
  cases c.checkOpen with
  | error fault => exact .error fault
  | ok _ =>
    have hsize : (x.rows.filter fun row => row.1 == key && true).length = (c.records key).size := by
      have hlist := congrArg List.length (h.recordsOf key)
      rw [length_list, Index.recordsOf, List.length_mergeSort, List.length_map] at hlist
      simpa using hlist
    have hdrop := h.drop key (fun _ => true) (m := ∅) (fun path => by simp) hsize
    simp only [Bool.and_true] at hdrop
    exact hdrop

theorem withOpen (b : Bool) : Refines { x with isOpen := b } { c with isOpen := b } where
  location := h.location
  isOpen := rfl
  keyed := h.keyed
  records := h.records
  statuses := h.statuses

theorem upsert (key : VaultKey) (r : Record) : Follows x (x.edit (.upsert key r)) (c.edit (.upsert key r)) := by
  have hright : c.edit (.upsert key r) = (c.upsertMany key [r]).map fun out => (Reply.done, out.2) := by
    rw [Catalog.edit, Catalog.upsertMany, List.mapM_cons, List.mapM_nil]
    cases r.kept with
    | error fault => rfl
    | ok written => cases c.checkOpen <;> rfl
  rw [hright]
  exact (h.upsertMany key [r]).map fun _ => Reply.done

theorem delete (key : VaultKey) (path : String) : Follows x (x.edit (.delete key path)) (c.edit (.delete key path)) := by
  have hright : c.edit (.delete key path) =
      (c.deleteMany key [path]).map fun out => (Reply.flag (out.1 != 0), out.2) := by
    rw [Catalog.edit, Catalog.deleteMany]
    cases c.checkOpen with
    | error fault => rfl
    | ok _ =>
      have hflag : decide (path ∈ c.records key) = (([path].dedup.filter (· ∈ c.records key)).length != 0) := by
        by_cases hmem : path ∈ c.records key <;> simp [hmem]
      show Except.ok (Reply.flag (decide (path ∈ c.records key)), _) = _
      rw [hflag]
      rfl
  rw [hright]
  exact (h.deleteMany key [path]).map fun n => Reply.flag (n != 0)

theorem setState (key : VaultKey) (name : String) :
    Follows x (x.edit (.setState key name)) (c.edit (.setState key name)) := by
  have hchange : ∀ state, Follows x (IndexCall.on (do return Reply.status (← IndexCall.changeStatus key (·.setState state))) x)
      (c.changeStatus key (·.setState state)) := fun state => h.changeStatus key _
  rw [Index.edit, Index.call, Catalog.edit, IndexCall.on_bind, IndexCall.setState, IndexCall.on_bind,
    IndexCall.on_checkOpen, h.checkOpen]
  cases c.checkOpen with
  | error fault => exact .error fault
  | ok _ =>
    dsimp only
    cases IndexState.ofText? name with
    | none => exact .error (.unknownState name)
    | some state =>
      have hstate := hchange state
      rw [IndexCall.on_bind] at hstate
      exact hstate

theorem edit (e : Edit) : Follows x (x.edit e) (c.edit e) := by
  cases e with
  | upsert key r => exact h.upsert key r
  | upsertMany key records => exact (h.upsertMany key records).map Reply.number
  | delete key path => exact h.delete key path
  | deleteMany key paths => exact (h.deleteMany key paths).map Reply.number
  | deleteAll key => exact (h.deleteAll key).map Reply.number
  | close => exact .ok Reply.done (h.withOpen false)
  | reopen => exact .ok Reply.done (h.withOpen true)
  | setState key name => exact h.setState key name
  | _ => exact h.changeStatus _ _

theorem perform (e : Edit) : Refines (x.perform e) (c.perform e) := by
  have hfollows := h.edit e
  rw [Index.perform, Catalog.perform]
  generalize x.edit e = left at hfollows ⊢
  generalize c.edit e = right at hfollows ⊢
  cases hfollows with
  | ok reply hrefines => exact hrefines
  | error fault => exact h

theorem reply_eq (e : Edit) : (x.edit e).1 = (c.edit e).map (·.1) := by
  have hfollows := h.edit e
  generalize x.edit e = left at hfollows ⊢
  generalize c.edit e = right at hfollows ⊢
  cases hfollows with
  | ok reply hrefines => rfl
  | error fault => rfl

theorem perform_of_error {e : Edit} {fault : IndexFault} (hfault : (x.edit e).1 = .error fault) : x.perform e = x := by
  have hfollows := h.edit e
  rw [Index.perform]
  generalize x.edit e = left at hfollows hfault ⊢
  generalize c.edit e = right at hfollows
  cases hfollows with
  | ok reply hrefines => cases hfault
  | error fault => rfl

end Refines

theorem Refines.performAll {x : Index} {c : Catalog} (h : Refines x c) : ∀ edits : List Edit,
    Refines (x.performAll edits) (c.performAll edits)
  | [] => h
  | e :: edits => performAll (h.perform e) edits

/-! ## What edits leave alone -/

namespace Catalog

/-- What an edit can do to a catalog. -/
inductive Change (c : Catalog) (e : Edit) : Catalog → Prop
  | none : Change c e c
  | records (key : VaultKey) (m : Std.ExtTreeMap String Record) : e.key? = some key → e.isOfStatus = false →
      Change c e (c.withRecords key m)
  | status (key : VaultKey) (s : IndexStatus) : e.key? = some key → e.isOfStatus = true →
      Change c e { c with statuses := updated key (some s) c.statuses }
  | access (b : Bool) : e.key? = Option.none → Change c e { c with isOpen := b }

theorem Change.of_changeStatus {c : Catalog} {e : Edit} {key : VaultKey} {change : IndexStatus → IndexStatus}
    (hkey : e.key? = some key) (hkind : e.isOfStatus = true) (hedit : c.edit e = c.changeStatus key change) :
    Change c e (c.perform e) := by
  rw [perform, hedit, changeStatus]
  cases c.checkOpen with
  | error fault => exact .none
  | ok _ =>
    dsimp only [bind, Except.bind]
    generalize change ((c.statuses key).getD .initial) = status
    by_cases hfits : ([status.total, status.indexed, status.failed].all
        fun n => -0x8000000000000000 ≤ n ∧ n < 0x8000000000000000) = true
    · rw [if_pos hfits]
      exact .status key status hkey hkind
    · rw [if_neg hfits]
      exact .none

theorem change_perform (c : Catalog) (e : Edit) : Change c e (c.perform e) := by
  cases e with
  | close => exact .access false rfl
  | reopen => exact .access true rfl
  | upsert key r =>
    simp only [perform, edit]
    cases r.kept with
    | error fault => exact .none
    | ok r =>
      cases c.checkOpen with
      | error fault => exact .none
      | ok _ => exact .records key _ rfl rfl
  | upsertMany key records =>
    simp only [perform, edit, upsertMany]
    cases records.mapM Record.kept with
    | error fault => exact .none
    | ok written =>
      cases written with
      | nil => exact .none
      | cons r written =>
        cases c.checkOpen with
        | error fault => exact .none
        | ok _ => exact .records key _ rfl rfl
  | delete key path =>
    simp only [perform, edit]
    cases c.checkOpen with
    | error fault => exact .none
    | ok _ => exact .records key _ rfl rfl
  | deleteMany key paths =>
    -- an edit of no paths and one of no records do not even need an open catalog
    simp only [perform, edit, deleteMany]
    cases paths with
    | nil => exact .none
    | cons p paths =>
      cases c.checkOpen with
      | error fault => exact .none
      | ok _ => exact .records key _ rfl rfl
  | deleteAll key =>
    simp only [perform, edit, deleteAll]
    cases c.checkOpen with
    | error fault => exact .none
    | ok _ => exact .records key _ rfl rfl
  | setState key name =>
    cases hcheck : c.checkOpen with
    | error fault =>
      simp only [perform, edit, hcheck]
      exact .none
    | ok _ =>
      cases hstate : IndexState.ofText? name with
      | none =>
        simp only [perform, edit, hcheck, hstate]
        exact .none
      | some state =>
        refine .of_changeStatus rfl rfl (?_ : _ = c.changeStatus key (·.setState state))
        rw [edit, hcheck, hstate]
        rfl
  | _ => exact .of_changeStatus rfl rfl rfl

theorem read_congr {c d : Catalog} (r : Read) (hopen : c.checkOpen = d.checkOpen)
    (hrecords : r.isOfStatus = false → c.records r.key = d.records r.key)
    (hstatus : r.isOfStatus = true → c.statuses r.key = d.statuses r.key) : c.read r = d.read r := by
  cases r with
  | status key =>
    have hsame : c.statuses key = d.statuses key := hstatus rfl
    simp only [read, hopen, hsame]
  | _ key =>
    have hsame : c.records key = d.records key := hrecords rfl
    simp only [read, list, hopen, hsame]

theorem updated_of_ne {α : Type} {key other : VaultKey} (h : other ≠ key) (a : α) (f : VaultKey → α) :
    updated key a f other = f other := if_neg h

/-- Edits and reads of different vaults, or of records and statuses, have nothing to do with each other. -/
theorem read_perform (c : Catalog) {e : Edit} {r : Read} (hkey : e.key? ≠ none)
    (hapart : e.key? ≠ some r.key ∨ e.isOfStatus ≠ r.isOfStatus) : (c.perform e).read r = c.read r := by
  have hchange := change_perform c e
  generalize c.perform e = d at hchange ⊢
  cases hchange with
  | none => rfl
  | access b hnone => exact absurd hnone hkey
  | records key m hat hkind =>
    refine read_congr r rfl (fun hread => updated_of_ne (fun hsame => ?_) m c.records) fun _ => rfl
    rcases hapart with hother | hother
    · exact hother (hsame ▸ hat)
    · exact hother (hkind.trans hread.symm)
  | status key s hat hkind =>
    refine read_congr r rfl (fun _ => rfl) fun hread => updated_of_ne (fun hsame => ?_) (some s) c.statuses
    rcases hapart with hother | hother
    · exact hother (hsame ▸ hat)
    · exact hother (hkind.trans hread.symm)

end Catalog

/-! ## The index as a catalog -/

/-- What an index owes to the catalog that it stands for. -/
structure ActsAs (x : Index) (c : Catalog) : Prop where
  read : ∀ r, x.read r = c.read r
  reply : ∀ e, (x.edit e).1 = (c.edit e).map (·.1)
  /-- The reads of a vault agree with each other. -/
  lists : x.isOpen = true → ∀ key, ∃ rs, x.listAll key = .ok rs ∧ rs.Pairwise (fun a b => a.path < b.path) ∧
    x.listPublic key = .ok (rs.filter (!·.isPrivate)) ∧ x.hashes key = .ok (rs.map fun r => (r.path, r.sha)) ∧
    x.count key = .ok rs.length ∧ ∀ path, x.get? key path = .ok (rs.find? (·.path == path))
  apart : ∀ e r, e.key? ≠ none → e.key? ≠ some r.key ∨ e.isOfStatus ≠ r.isOfStatus →
    (x.perform e).read r = x.read r
  failed : ∀ e fault, (x.edit e).1 = .error fault → x.perform e = x

namespace Refines

variable {x : Index} {c : Catalog} (h : Refines x c)
include h

theorem get?_eq (hopen : x.checkOpen = .ok ()) (key : VaultKey) (path : String) :
    x.get? key path = .ok ((x.recordsOf key).find? (·.path == path)) := by
  rw [Index.get?, hopen, Index.find?_recordsOf h.keyed]
  rfl

theorem lists (hopen : x.isOpen = true) (key : VaultKey) :
    ∃ rs, x.listAll key = .ok rs ∧ rs.Pairwise (fun a b => a.path < b.path) ∧
      x.listPublic key = .ok (rs.filter (!·.isPrivate)) ∧ x.hashes key = .ok (rs.map fun r => (r.path, r.sha)) ∧
      x.count key = .ok rs.length ∧ ∀ path, x.get? key path = .ok (rs.find? (·.path == path)) := by
  have hcheck : x.checkOpen = .ok () := if_pos hopen
  have hlist : x.listAll key = .ok (x.recordsOf key) := by
    rw [Index.listAll, hcheck]
    rfl
  refine ⟨x.recordsOf key, hlist, Index.recordsOf_ascending h.keyed key, ?_, ?_, ?_, h.get?_eq hcheck key⟩
  · rw [Index.listPublic, hlist]
    rfl
  · rw [Index.hashes, hlist]
    rfl
  · rw [Index.count, hlist]
    rfl

theorem read_perform {e : Edit} {r : Read} (hkey : e.key? ≠ none)
    (hapart : e.key? ≠ some r.key ∨ e.isOfStatus ≠ r.isOfStatus) : (x.perform e).read r = x.read r := by
  rw [(h.perform e).read, h.read, c.read_perform hkey hapart]

end Refines

/-- After any edits an index acts as the catalog that the same edits lead to. -/
theorem actsAs_performAll (location : String) (edits : List Edit) :
    ActsAs ((Index.empty location).performAll edits) ((Catalog.empty location).performAll edits) := by
  have hrefines := (refines_empty location).performAll edits
  exact {
    read := hrefines.read
    reply := hrefines.reply_eq
    lists := hrefines.lists
    apart := fun _ _ hkey hapart => hrefines.read_perform hkey hapart
    failed := fun _ _ hfault => hrefines.perform_of_error hfault }

end NoteQuery

import NoteQuery.Proofs.Index.Catalog
import NoteQuery.Proofs.Index.Refresh

/-!
# Runs that complete

A run over notes ends in one of two ways. It reads all that are new or changed, stores the records
of those that have one and counts the others, and completes; or it comes to a note that it can
neither store nor pass over, fails with that note's fault, and leaves the notes after it unread.
-/

namespace NoteQuery

open Index (rowAt Keyed)
open Note (built contentHash)

/-! ## Indexes that can be reached -/

/-- The indexes that edits and runs lead to from an empty one. -/
inductive Index.Reachable : Index → Prop
  | empty (location : String) : Reachable (Index.empty location)
  | perform {x : Index} (e : Edit) : Reachable x → Reachable (x.perform e)
  | run {x : Index} (loader : Yaml.Loader) (rebuild : Bool) (key : VaultKey) (now : String)
      (notes : List (String × List UInt8)) : Reachable x → Reachable (IndexRun.run rebuild key now notes x).index

namespace Index

theorem keyed_upsertMany {x y : Index} {key : VaultKey} {records : List Record} {n : Nat} (hx : Keyed x.rows)
    (h : x.upsertMany key records = .ok (n, y)) : Keyed y.rows := by
  rw [upsertMany_eq] at h
  obtain ⟨written, -, h⟩ := bind_eq_ok h
  cases written with
  | nil =>
    obtain ⟨-, rfl⟩ := Prod.mk.inj (Except.ok.inj h)
    exact hx
  | cons r written =>
    obtain ⟨-, -, h⟩ := bind_eq_ok h
    obtain ⟨-, rfl⟩ := Prod.mk.inj (Except.ok.inj h)
    exact List.foldlRecOn (r :: written) _ hx fun rows hrows r _ => keyed_put hrows key r

theorem keyed_deleteMany {x y : Index} {key : VaultKey} {paths : List String} {n : Nat} (hx : Keyed x.rows)
    (h : x.deleteMany key paths = .ok (n, y)) : Keyed y.rows := by
  rw [IndexRun.deleteMany_eq_ok h]
  exact keyed_filter hx _

theorem keyed_settle {α : Type} {x : Index} (hx : Keyed x.rows) {out : Except IndexFault (α × Index)}
    (h : ∀ a y, out = .ok (a, y) → Keyed y.rows) : Keyed (x.settle out).2.rows := by
  cases out with
  | error fault => exact hx
  | ok result => exact h _ _ rfl

theorem keyed_perform {x : Index} (hx : Keyed x.rows) (e : Edit) : Keyed (x.perform e).rows := by
  have hupsert : ∀ key records, Keyed ((IndexCall.upsertMany key records).on x).2.rows := by
    intro key records
    rw [IndexCall.on_upsertMany]
    exact keyed_settle hx fun n y h => keyed_upsertMany hx ((upsertMany_eq x key records).trans h)
  have hdelete : ∀ key paths, Keyed ((IndexCall.deleteMany key paths).on x).2.rows := by
    intro key paths
    rw [IndexCall.on_deleteMany]
    exact keyed_settle hx fun n y h => keyed_deleteMany hx ((deleteMany_eq x key paths).trans h)
  -- a change of a status leaves the rows alone
  have hstatus : ∀ key change, Keyed ((IndexCall.changeStatus key change).on x).2.rows := by
    intro key change
    rw [IndexCall.on_changeStatus]
    refine keyed_settle hx fun s y h => ?_
    obtain ⟨-, -, h⟩ := bind_eq_ok h
    dsimp only at h
    split at h
    · obtain ⟨-, rfl⟩ := Prod.mk.inj (Except.ok.inj h)
      exact hx
    · cases h
  rw [perform, edit]
  cases e with
  | upsert key r =>
    rw [call, IndexCall.index_on_return _ _ fun _ => Reply.done]
    exact hupsert key [r]
  | upsertMany key records =>
    rw [call, IndexCall.index_on_return]
    exact hupsert key records
  | delete key path =>
    rw [call, IndexCall.index_on_return _ _ fun n => Reply.flag (n != 0)]
    exact hdelete key [path]
  | deleteMany key paths =>
    rw [call, IndexCall.index_on_return]
    exact hdelete key paths
  | deleteAll key =>
    rw [call, IndexCall.index_on_return, IndexCall.on_deleteAll]
    refine keyed_settle hx fun n y h => ?_
    obtain ⟨-, -, h⟩ := bind_eq_ok h
    obtain ⟨-, rfl⟩ := Prod.mk.inj (Except.ok.inj h)
    exact keyed_filter hx _
  | close => exact hx
  | reopen => exact hx
  | setState key name =>
    rw [call, IndexCall.index_on_return, IndexCall.on_setState]
    refine keyed_settle hx fun s y h => ?_
    obtain ⟨-, -, h⟩ := bind_eq_ok h
    split at h
    · rename_i state _
      have hleft := hstatus key (·.setState state)
      unfold IndexCall.result at h
      split at h
      · rename_i hon
        obtain ⟨-, rfl⟩ := Prod.mk.inj (Except.ok.inj h)
        rwa [hon] at hleft
      · cases h
    · cases h
  | _ =>
    rw [call, IndexCall.index_on_return]
    exact hstatus _ _

theorem Reachable.keyed {x : Index} (h : Reachable x) : Keyed x.rows := by
  induction h with
  | empty location => exact List.Pairwise.nil
  | perform e _ ih => exact keyed_perform ih e
  | run loader rebuild key now notes _ ih => exact IndexRun.keyed_run ih rebuild key now notes

end Index

/-! ## What a note does to a run -/

namespace Note

def haltOf [Yaml.Loader] (note : String × List UInt8) : Option RunFault :=
  match toRecord note.1 note.2 with
  | .ok r =>
    match Index.stored r with
    | .ok _ => none
    | .error fault => some (.index fault)
  | .error fault => if fault.isSkipped then none else some (.note fault)

def warningOf [Yaml.Loader] (note : String × List UInt8) : Option LogLine :=
  match toRecord note.1 note.2 with
  | .ok _ => none
  | .error fault => some (.failedNote note.1 fault)

variable {note : String × List UInt8} {r s : Record}

theorem haltOf_of_stored [Yaml.Loader] (hr : toRecord note.1 note.2 = .ok r) (hs : Index.stored r = .ok s) :
    haltOf note = none := by
  rw [haltOf, hr]
  dsimp only
  rw [hs]

theorem haltOf_of_unstored [Yaml.Loader] {fault : IndexFault} (hr : toRecord note.1 note.2 = .ok r)
    (hs : Index.stored r = .error fault) : haltOf note = some (.index fault) := by
  rw [haltOf, hr]
  dsimp only
  rw [hs]

theorem haltOf_of_fault [Yaml.Loader] {fault : NoteFault} (hr : toRecord note.1 note.2 = .error fault) :
    haltOf note = if fault.isSkipped then none else some (.note fault) := by
  rw [haltOf, hr]

theorem haltOf_of_built [Yaml.Loader] (h : (built note.1 note.2).isSome = true) : haltOf note = none := by
  obtain ⟨s, hs⟩ := Option.isSome_iff_exists.mp h
  obtain ⟨r, hr, hstored⟩ := toRecord_of_built hs
  exact haltOf_of_stored hr hstored

end Note

namespace IndexRun

/-! ## The step -/

def added [Yaml.Loader] (key : VaultKey) (note : String × List UInt8) (p : Progress) : Progress where
  index := { p.index with rows := addRow key p.index.rows note }
  indexed := p.indexed + if (built note.1 note.2).isSome then 1 else 0
  failed := p.failed + if (built note.1 note.2).isNone then 1 else 0
  log := p.log ++ (Note.warningOf note).toList

theorem upsert_of_stored {x : Index} (hopen : x.isOpen = true) (key : VaultKey) {r s : Record}
    (hs : Index.stored r = .ok s) : x.upsert key r = .ok { x with rows := Index.put key s x.rows } := by
  have hcheck : x.checkOpen = .ok () := if_pos hopen
  rw [Index.upsert, Index.upsertMany_eq, List.mapM_cons, List.mapM_nil, hs, hcheck]
  rfl

theorem upsert_of_error (x : Index) (key : VaultKey) {r : Record} {fault : IndexFault}
    (hfault : Index.stored r = .error fault) : x.upsert key r = .error fault := by
  rw [Index.upsert, Index.upsertMany_eq, List.mapM_cons, hfault]
  rfl

theorem addNote_eq [Yaml.Loader] (key : VaultKey) (note : String × List UInt8) {p : Progress}
    (hopen : p.index.isOpen = true) :
    addNote key note p = match Note.haltOf note with
      | some fault => .error fault
      | none => .ok (added key note p) := by
  cases hr : Note.toRecord note.1 note.2 with
  | ok r =>
    cases hs : Index.stored r with
    | ok s =>
      rw [addNote, hr, Note.haltOf_of_stored hr hs]
      dsimp only
      rw [upsert_of_stored hopen key hs, added, addRow, Note.built_of_toRecord hr hs, Note.warningOf, hr]
      simp
    | error fault =>
      rw [addNote, hr, Note.haltOf_of_unstored hr hs]
      dsimp only
      rw [upsert_of_error p.index key hs]
  | error fault =>
    rw [addNote, hr, Note.haltOf_of_fault hr]
    dsimp only
    by_cases hskipped : fault.isSkipped = true
    · -- a fault that is passed over is counted and logged, and no row is written
      rw [if_pos hskipped, if_pos hskipped, added, addRow, Note.built_of_fails ⟨fault, hr⟩, Note.warningOf, hr]
      simp
    · rw [if_neg hskipped, if_neg hskipped]

/-! ## The notes in turn -/

theorem addNotes_cons_of_halt [Yaml.Loader] (key : VaultKey) {note : String × List UInt8}
    (notes : List (String × List UInt8))
    (position : Nat) {p : Progress} (hopen : p.index.isOpen = true) {fault : RunFault}
    (hhalt : Note.haltOf note = some fault) : addNotes key position (note :: notes) p = (p, some fault) := by
  rw [addNotes, addNote_eq key note hopen, hhalt]

theorem addNotes_cons_of_none [Yaml.Loader] (key : VaultKey) {note : String × List UInt8}
    (notes : List (String × List UInt8))
    (position : Nat) {p : Progress} (hopen : p.index.isOpen = true) (hnone : Note.haltOf note = none) :
    addNotes key position (note :: notes) p =
      addNotes key (position + 1) notes (noteProgress key position (added key note p)) := by
  rw [addNotes, addNote_eq key note hopen, hnone]

theorem isOpen_noteProgress [Yaml.Loader] {key : VaultKey} {note : String × List UInt8} {p : Progress} (position : Nat)
    (hopen : p.index.isOpen = true) : (noteProgress key position (added key note p)).index.isOpen = true :=
  (sameRecords_noteProgress key position (added key note p)).isOpen.trans hopen

theorem noteProgress_eq (key : VaultKey) (position : Nat) (p : Progress) : noteProgress key position p =
    { p with index := (noteProgress key position p).index } := by
  rw [noteProgress]
  split
  · split <;> rfl
  · rfl

theorem addNotes_snd [Yaml.Loader] (key : VaultKey) : ∀ (notes : List (String × List UInt8)) (position : Nat)
    {p : Progress},
    p.index.isOpen = true → (addNotes key position notes p).2 = notes.findSome? Note.haltOf
  | [], _, _, _ => rfl
  | note :: notes, position, p, hopen => by
    rw [List.findSome?_cons]
    cases hhalt : Note.haltOf note with
    | some fault => rw [addNotes_cons_of_halt key notes position hopen hhalt]
    | none =>
      rw [addNotes_cons_of_none key notes position hopen hhalt]
      exact addNotes_snd key notes (position + 1) (isOpen_noteProgress position hopen)

theorem addNotes_of_none [Yaml.Loader] (key : VaultKey) : ∀ (notes : List (String × List UInt8)) (position : Nat)
    {p : Progress},
    p.index.isOpen = true → (∀ note ∈ notes, Note.haltOf note = none) →
      (addNotes key position notes p).1.indexed = p.indexed + notes.countP (fun note => (built note.1 note.2).isSome) ∧
      (addNotes key position notes p).1.failed = p.failed + notes.countP (fun note => (built note.1 note.2).isNone) ∧
      (addNotes key position notes p).1.log = p.log ++ notes.filterMap Note.warningOf
  | [], _, p, _, _ => ⟨rfl, rfl, (List.append_nil p.log).symm⟩
  | note :: notes, position, p, hopen, hnone => by
    obtain ⟨hhead, htail⟩ := List.forall_mem_cons.mp hnone
    have hstill : (noteProgress key position (added key note p)).index.isOpen = true := isOpen_noteProgress position hopen
    obtain ⟨hindexed, hfailed, hlog⟩ := addNotes_of_none key notes (position + 1) hstill htail
    rw [addNotes_cons_of_none key notes position hopen hhead, hindexed, hfailed, hlog, noteProgress_eq, added,
      List.countP_cons, List.countP_cons, List.filterMap_cons]
    refine ⟨?_, ?_, ?_⟩
    · dsimp only
      omega
    · dsimp only
      omega
    · cases Note.warningOf note <;> simp

/-! ## The status on the way -/

def Underway (key : VaultKey) (total : Nat) (now : String) (x : Index) : Prop :=
  ∃ indexed failed, x.statuses.lookup key = some ⟨.indexing, total, indexed, failed, none, some now, none⟩

theorem underway_start {x : Index} (hopen : x.isOpen = true) (key : VaultKey) (total : Nat) (now : String) :
    Underway key total now (withStatus key (·.start total now) x) :=
  ⟨0, 0, lookup_withStatus hopen key _⟩

theorem underway_noteProgress {key : VaultKey} {total : Nat} {now : String} {p : Progress} (position : Nat)
    (hopen : p.index.isOpen = true) (h : Underway key total now p.index) :
    Underway key total now (noteProgress key position p).index := by
  obtain ⟨indexed, failed, hlookup⟩ := h
  have hcheck : p.index.checkOpen = .ok () := if_pos hopen
  rw [noteProgress]
  split
  · rw [Index.changeStatus, Index.status?, hcheck]
    refine ⟨p.indexed, p.failed, ?_⟩
    change List.lookup key ((key, IndexStatus.progress _ _ ((p.index.statuses.lookup key).getD _)) :: _) = _
    rw [hlookup, List.lookup_cons_self]
    rfl
  · exact ⟨indexed, failed, hlookup⟩

theorem underway_addNotes [Yaml.Loader] {key : VaultKey} {total : Nat} {now : String} :
    ∀ (notes : List (String × List UInt8)) (position : Nat) {p : Progress}, p.index.isOpen = true →
      Underway key total now p.index → Underway key total now (addNotes key position notes p).1.index
  | [], _, _, _, h => h
  | note :: notes, position, p, hopen, h => by
    cases hhalt : Note.haltOf note with
    | some fault =>
      rw [addNotes_cons_of_halt key notes position hopen hhalt]
      exact h
    | none =>
      rw [addNotes_cons_of_none key notes position hopen hhalt]
      refine underway_addNotes notes (position + 1) (isOpen_noteProgress position hopen) ?_
      exact underway_noteProgress position (p := added key note p) hopen h

/-! ## A run -/

/-- Whether a run reads a note: a rebuild reads all, a refresh those whose content has not the hash
of the record at their path. -/
def isPending (rebuild : Bool) (key : VaultKey) (x : Index) (note : String × List UInt8) : Bool :=
  rebuild || (rowAt x.rows key note.1).map (·.sha) != some (contentHash note.2)

theorem pending_of_dropped {rebuild : Bool} {key : VaultKey} {paths : List String} {x y : Index}
    {known : List (String × String)} (h : Dropped rebuild key paths x known y) (notes : List (String × List UInt8)) :
    pending known notes = notes.filter (isPending rebuild key x) := by
  refine List.filter_congr fun note _ => ?_
  rw [Bool.eq_iff_iff, decide_eq_true_iff, @changeOf_ne_unchanged known note.1 note.2, h.known, isPending]
  cases rebuild <;> simp

theorem isPending_of_unbuilt [Yaml.Loader] {loaders : Set Yaml.Loader} {C : Set (List UInt8)} {x : Index}
    (hsound : Sound loaders C x.rows) (hC : C.InjOn contentHash) {note : String × List UInt8} (hnote : note.2 ∈ C)
    (hunbuilt : ∀ loader ∈ loaders, @built loader note.1 note.2 = none) (rebuild : Bool) (key : VaultKey) :
    isPending rebuild key x note = true := by
  rw [isPending, Bool.or_eq_true, bne_iff_ne]
  right
  intro hsha
  obtain ⟨loader, hloader, r, -, hbuilt⟩ := hsound.exists_built hC hnote hsha
  rw [hunbuilt loader hloader] at hbuilt
  cases hbuilt

/-- How a run that returns has treated the notes that it read. -/
structure Completed [Yaml.Loader] (key : VaultKey) (now : String) (notes : List (String × List UInt8)) (r : IndexRun)
    (report : IndexReport) : Prop where
  indexed : report.indexed = notes.countP fun note => (built note.1 note.2).isSome
  failed : report.failed = notes.countP fun note => (built note.1 note.2).isNone
  logged : r.log = notes.filterMap Note.warningOf ++ [.finished key report]
  status : r.index.statuses.lookup key =
    some ⟨.completed, notes.length, report.indexed, report.failed, none, some now, some now⟩

structure Failed (key : VaultKey) (now : String) (total : Nat) (r : IndexRun) (fault : RunFault) : Prop where
  outcome : r.outcome = .error fault
  status : ∃ indexed failed, r.index.statuses.lookup key =
    some ⟨.failed, total, indexed, failed, some fault.message, some now, some now⟩

theorem run_ends [Yaml.Loader] {x : Index} (hopen : x.isOpen = true) (hkeyed : Keyed x.rows)
    (notes : List (String × List UInt8)) (rebuild : Bool) (key : VaultKey) (now : String) :
    match (notes.filter (isPending rebuild key x)).findSome? Note.haltOf with
    | none => ∃ report, (run rebuild key now notes x).outcome = .ok report ∧
        Completed key now (notes.filter (isPending rebuild key x)) (run rebuild key now notes x) report
    | some fault => Failed key now (notes.filter (isPending rebuild key x)).length (run rebuild key now notes x) fault := by
  obtain ⟨known, n, opened, hdrop⟩ := exists_drop hopen rebuild key (notes.map (·.1))
  have hdropped := dropped_drop hkeyed hdrop
  have hopened : opened.isOpen = true := hdropped.isOpen.trans hopen
  rw [run, hdrop]
  dsimp only
  rw [pending_eq, pending_of_dropped hdropped]
  generalize notes.filter (isPending rebuild key x) = pending
  -- the run up to its first note: what is dropped, and a status that says that it goes on
  have hbegun := (sameRecords_withStatus key (·.start pending.length now) opened).isOpen.trans hopened
  have hunderway := underway_start hopened key pending.length now
  generalize withStatus key (·.start pending.length now) opened = begun at hbegun hunderway ⊢
  -- what the notes do to this index, whichever of them ends the run
  obtain ⟨-, -, hend, -, -⟩ := addNotes_spec key pending 1 ⟨begun, 0, 0, []⟩
  have hended := hend.trans hbegun
  have hsnd := addNotes_snd key pending 1 (p := ⟨begun, 0, 0, []⟩) hbegun
  obtain ⟨indexed, failed, hstatus⟩ := underway_addNotes pending 1 (p := ⟨begun, 0, 0, []⟩) hbegun hunderway
  have hcounts := addNotes_of_none key pending 1 (p := ⟨begun, 0, 0, []⟩) hbegun
  generalize addNotes key 1 pending _ = result at hended hsnd hstatus hcounts ⊢
  obtain ⟨p, fault⟩ := result
  rw [← hsnd]
  cases fault with
  | some fault =>
    refine ⟨rfl, indexed, failed, ?_⟩
    dsimp only
    rw [lookup_withStatus hended, hstatus]
    rfl
  | none =>
    obtain ⟨hindexed, hfailed, hlog⟩ := hcounts (List.findSome?_eq_none_iff.mp hsnd.symm)
    refine ⟨_, rfl, hindexed.trans (Nat.zero_add _), hfailed.trans (Nat.zero_add _), ?_, ?_⟩
    · dsimp only at hlog ⊢
      rw [hlog, List.nil_append]
    · dsimp only
      rw [lookup_withStatus hended, hstatus]
      rfl

theorem haltOf_of_run [Yaml.Loader] {x : Index} {notes : List (String × List UInt8)} {rebuild : Bool} {key : VaultKey}
    {now : String} {report : IndexReport} (hopen : x.isOpen = true) (hkeyed : Keyed x.rows)
    (h : (run rebuild key now notes x).outcome = .ok report) {note : String × List UInt8} (hnote : note ∈ notes)
    (hpending : isPending rebuild key x note = true) : Note.haltOf note = none := by
  have hends := run_ends hopen hkeyed notes rebuild key now
  split at hends
  · rename_i hnone
    exact List.findSome?_eq_none_iff.mp hnone note (List.mem_filter.mpr ⟨hnote, hpending⟩)
  · rw [hends.outcome] at h
    cases h

theorem run_of_built [Yaml.Loader] {x : Index} {notes : List (String × List UInt8)} (hopen : x.isOpen = true)
    (hkeyed : Keyed x.rows)
    (hbuilt : ∀ note ∈ notes, (built note.1 note.2).isSome = true) (rebuild : Bool) (key : VaultKey) (now : String) :
    ∃ report s, (run rebuild key now notes x).outcome = .ok report ∧
      (run rebuild key now notes x).index.statuses.lookup key = some s ∧ s.isReady = true := by
  have hends := run_ends hopen hkeyed notes rebuild key now
  have hnone : (notes.filter (isPending rebuild key x)).findSome? Note.haltOf = none := by
    refine List.findSome?_eq_none_iff.mpr fun note hnote => ?_
    exact Note.haltOf_of_built (hbuilt note (List.mem_of_mem_filter hnote))
  rw [hnone] at hends
  obtain ⟨report, houtcome, hcompleted⟩ := hends
  exact ⟨report, _, houtcome, hcompleted.status, rfl⟩

/-- A run returns just if each note that it reads is stored or passed over. -/
theorem completes_iff [Yaml.Loader] {x : Index} (hx : x.Reachable) (hopen : x.isOpen = true) {f : Folder}
    (hf : Folder.Tidy f)
    (rebuild : Bool) (key : VaultKey) (now : String) :
    ((∃ report, (run rebuild key now f.notes x).outcome = .ok report) ↔
      ∀ note ∈ f.notes, isPending rebuild key x note = true → Note.haltOf note = none) ∧
    (∀ report, (run rebuild key now f.notes x).outcome = .ok report →
      Completed key now (f.notes.filter (isPending rebuild key x)) (run rebuild key now f.notes x) report ∧
      ∀ note ∈ f.notes, isPending rebuild key x note = true → ∀ s, built note.1 note.2 = some s →
        rowAt (run rebuild key now f.notes x).index.rows key note.1 = some s) ∧
    ∀ fault, (f.notes.filter (isPending rebuild key x)).findSome? Note.haltOf = some fault →
      Failed key now (f.notes.filter (isPending rebuild key x)).length (run rebuild key now f.notes x) fault := by
  have hkeyed := hx.keyed
  have hends := run_ends hopen hkeyed f.notes rebuild key now
  have hdistinct : f.notes.Pairwise fun a b => a.1 ≠ b.1 := ne_of_ascending (Folder.notes_ascending hf)
  -- a note that is read has the row that was made of it, for its old one has another hash
  have hstored : ∀ report, (run rebuild key now f.notes x).outcome = .ok report → ∀ note ∈ f.notes,
      isPending rebuild key x note = true → ∀ s, built note.1 note.2 = some s →
        rowAt (run rebuild key now f.notes x).index.rows key note.1 = some s := by
    intro report houtcome note hnote hpending s hs
    rw [rowAt_run hkeyed hdistinct houtcome, lookup_of_mem hdistinct hnote, Option.bind_some, hs]
    cases rebuild with
    | true => rfl
    | false =>
      rw [if_neg Bool.false_ne_true, if_neg (by simpa [isPending] using hpending)]
      rfl
  -- the first note that is neither stored nor passed over decides
  cases hfirst : (f.notes.filter (isPending rebuild key x)).findSome? Note.haltOf with
  | none =>
    rw [hfirst] at hends
    obtain ⟨report, houtcome, hcompleted⟩ := hends
    have hnone := List.findSome?_eq_none_iff.mp hfirst
    refine ⟨iff_of_true ⟨report, houtcome⟩ fun note hnote hpending => ?_, fun other hother => ?_, fun _ h => nomatch h⟩
    · exact hnone note (List.mem_filter.mpr ⟨hnote, hpending⟩)
    · obtain rfl : report = other := Except.ok.inj (houtcome.symm.trans hother)
      exact ⟨hcompleted, hstored report houtcome⟩
  | some fault =>
    rw [hfirst] at hends
    obtain ⟨note, hnote, hhalt⟩ := List.exists_of_findSome?_eq_some hfirst
    obtain ⟨hmem, hpending⟩ := List.mem_filter.mp hnote
    refine ⟨iff_of_false ?_ fun hall => ?_, fun report houtcome => ?_, ?_⟩
    · rintro ⟨report, houtcome⟩
      rw [hends.outcome] at houtcome
      cases houtcome
    · rw [hall note hmem hpending] at hhalt
      cases hhalt
    · rw [hends.outcome] at houtcome
      cases houtcome
    · rintro _ ⟨⟩
      exact hends

end IndexRun

/-! ## Notes that end a run -/

/-- A note whose front matter says that a word is a truth value which YAML does not know as one. -/
def maybeNote : List UInt8 := Bytes.encodeUtf8 "---\ndone: !!bool maybe\n---\n".toList

theorem completes_seenOnce : seenOnce.Reachable ∧ seenOnce.isOpen = true ∧
    Folder.Tidy [("a.md", .file soundNote), ("b.md", .file brokenNote)] ∧
    ∃ report, (IndexRun.run false homeVault "" (Folder.notes [("a.md", .file soundNote), ("b.md", .file brokenNote)])
      seenOnce).outcome = .ok report := by
  have hreached : seenOnce.Reachable := .run Yaml.standard false homeVault "" _ (.empty "index")
  have hopen := reached_seenOnce.isOpen
  have htidy := tidy_pair soundNote brokenNote
  refine ⟨hreached, hopen, htidy, (IndexRun.completes_iff hreached hopen htidy false homeVault "").1.mpr ?_⟩
  have hpassed : ([("a.md", soundNote), ("b.md", brokenNote)].all fun note => (Note.haltOf note).isNone) = true := by
    decide +kernel
  intro note hnote _
  rw [notes_pair] at hnote
  exact Option.isNone_iff_eq_none.mp (List.all_eq_true.mp hpassed note hnote)

theorem not_always_completes : ¬∀ (x : Index) (f : Folder) (rebuild : Bool) (key : VaultKey) (now : String),
    x.Reachable → x.isOpen = true → Folder.Tidy f →
      ∃ report, (IndexRun.run rebuild key now f.notes x).outcome = .ok report := by
  intro hall
  obtain ⟨report, hreport⟩ := hall (Index.empty "index") [("a.md", .file maybeNote), ("b.md", .file soundNote)] false
    homeVault "" (.empty "index") rfl (tidy_pair maybeNote soundNote)
  have hended : (IndexRun.run false homeVault "" [("a.md", maybeNote), ("b.md", soundNote)]
      (Index.empty "index")).outcome.toOption = none := by decide +kernel
  rw [notes_pair] at hreport
  rw [hreport] at hended
  cases hended

end NoteQuery

import NoteQuery.Index.Basic

/-!
# Calls on an index

A call that fails leaves the index as it was. So all that there is to a call is what it returns, and
the index with it if there is one.
-/

namespace NoteQuery

/-- An index that is left as it is by what fails. -/
def Index.settle {α : Type} (x : Index) : Except IndexFault (α × Index) → Except IndexFault α × Index
  | .ok (a, y) => (.ok a, y)
  | .error fault => (.error fault, x)

namespace IndexCall

variable {α β : Type} (x : Index)

theorem result_of_settle {call : IndexCall α} {x : Index} {out : Except IndexFault (α × Index)}
    (h : call.on x = x.settle out) : call.result x = out := by
  unfold result
  rw [h]
  cases out <;> rfl

/-! ## Steps of a call -/

theorem on_get : (get : IndexCall Index).on x = (.ok x, x) := rfl

theorem on_liftExcept (e : Except IndexFault α) : (liftExcept e : IndexCall α).on x = (e, x) := by
  cases e <;> rfl

theorem on_bind (call : IndexCall α) (f : α → IndexCall β) : (call >>= f).on x =
    match call.on x with
    | (.ok a, y) => (f a).on y
    | (.error fault, y) => (.error fault, y) := by
  have hbind : (call >>= f).on x = ExceptT.bindCont f (call.on x).1 (call.on x).2 := rfl
  rw [hbind]
  rcases call.on x with ⟨out, y⟩
  cases out <;> rfl

theorem index_on_return (call : IndexCall α) (f : α → β) : (IndexCall.on (do return f (← call)) x).2 = (call.on x).2 := by
  rw [on_bind]
  rcases call.on x with ⟨out, y⟩
  cases out <;> rfl

theorem on_checkOpen : checkOpen.on x = (x.checkOpen, x) := by
  unfold checkOpen
  rw [on_bind, on_get]
  exact on_liftExcept x x.checkOpen

/-! ## The calls -/

theorem on_upsertMany (key : VaultKey) (records : List Record) : (upsertMany key records).on x =
    x.settle (do
      let written ← records.mapM Index.stored
      if written.isEmpty then return (0, x)
      x.checkOpen
      return (written.length, { x with rows := written.foldl (fun rows r => Index.put key r rows) x.rows })) := by
  unfold upsertMany
  rw [on_bind, on_liftExcept]
  cases records.mapM Index.stored with
  | error fault => rfl
  | ok written =>
    cases written with
    | nil => rfl
    | cons r written =>
      dsimp only
      rw [if_neg (by simp), on_bind, on_checkOpen]
      cases x.checkOpen <;> rfl

theorem on_deleteMany (key : VaultKey) (paths : List String) : (deleteMany key paths).on x =
    x.settle (do
      if paths.isEmpty then return (0, x)
      x.checkOpen
      let kept := x.rows.filter fun row => !(row.1 == key && paths.contains row.2.path)
      return (x.rows.length - kept.length, { x with rows := kept })) := by
  unfold deleteMany
  cases paths with
  | nil => rfl
  | cons path paths =>
    rw [if_neg (by simp), on_bind, on_checkOpen]
    cases x.checkOpen <;> rfl

theorem on_deleteAll (key : VaultKey) : (deleteAll key).on x =
    x.settle (do
      x.checkOpen
      let kept := x.rows.filter (·.1 != key)
      return (x.rows.length - kept.length, { x with rows := kept })) := by
  unfold deleteAll
  rw [on_bind, on_checkOpen]
  cases x.checkOpen <;> rfl

theorem on_changeStatus (key : VaultKey) (change : IndexStatus → IndexStatus) : (changeStatus key change).on x =
    x.settle (do
      x.checkOpen
      let status := change ((x.statuses.lookup key).getD .initial)
      if status.isStorable then
        return (status, { x with statuses := (key, status) :: x.statuses.filter (·.1 != key) })
      else throw .overflow) := by
  unfold changeStatus
  rw [on_bind, on_checkOpen]
  cases x.checkOpen with
  | error fault => rfl
  | ok _ =>
    dsimp only
    rw [on_bind, on_get]
    dsimp only
    by_cases hstorable : (change ((x.statuses.lookup key).getD .initial)).isStorable = true
    · rw [if_pos hstorable, if_pos hstorable]
      rfl
    · rw [if_neg hstorable, if_neg hstorable]
      rfl

theorem on_setState (key : VaultKey) (name : String) : (setState key name).on x =
    x.settle (do
      x.checkOpen
      match IndexState.ofText? name with
      | some state => (changeStatus key (·.setState state)).result x
      | none => throw (.unknownState name)) := by
  unfold setState
  rw [on_bind, on_checkOpen]
  cases x.checkOpen with
  | error fault => rfl
  | ok _ =>
    dsimp only
    cases IndexState.ofText? name with
    | none => rfl
    | some state =>
      dsimp only
      rw [on_changeStatus, result_of_settle (on_changeStatus x key _)]
      rfl

end IndexCall

namespace Index

/-! ## What is returned -/

theorem upsertMany_eq (x : Index) (key : VaultKey) (records : List Record) : x.upsertMany key records = (do
    let written ← records.mapM stored
    if written.isEmpty then return (0, x)
    x.checkOpen
    return (written.length, { x with rows := written.foldl (fun rows r => put key r rows) x.rows })) :=
  IndexCall.result_of_settle (IndexCall.on_upsertMany x key records)

theorem deleteMany_eq (x : Index) (key : VaultKey) (paths : List String) : x.deleteMany key paths = (do
    if paths.isEmpty then return (0, x)
    x.checkOpen
    let kept := x.rows.filter fun row => !(row.1 == key && paths.contains row.2.path)
    return (x.rows.length - kept.length, { x with rows := kept })) :=
  IndexCall.result_of_settle (IndexCall.on_deleteMany x key paths)

theorem deleteAll_eq (x : Index) (key : VaultKey) : x.deleteAll key = (do
    x.checkOpen
    let kept := x.rows.filter (·.1 != key)
    return (x.rows.length - kept.length, { x with rows := kept })) :=
  IndexCall.result_of_settle (IndexCall.on_deleteAll x key)

end Index

end NoteQuery

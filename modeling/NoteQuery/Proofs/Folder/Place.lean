import NoteQuery.Folder
import NoteQuery.Proofs.Lookup

/-!
# Items at their places

What is found at a path is found step by step, below one item after the other. Where folders or nothing stands on the
way to a place, a file is put there: it is what is found there afterwards, and paths lead where they led before.
-/

namespace NoteQuery.Folder

/-! ## What is found -/

/-- The item below another at a path, no link followed. -/
def below? : List String → FolderItem → Option FolderItem
  | [], item => some item
  | names, .folder items => itemAt? names items
  | _, _ => none

theorem itemAt?_cons (name : String) (names : List String) (f : Folder) :
    itemAt? (name :: names) f = (f.lookup name).bind (below? names) := by
  cases names with
  | nil =>
    rw [itemAt?]
    cases f.lookup name <;> rfl
  | cons next names =>
    rw [itemAt?]
    · cases f.lookup name with
      | none => rfl
      | some item => cases item <;> rfl
    · simp

theorem itemAt?_append {p : List String} {inner : Folder} {names : List String} (hne : names ≠ []) :
    ∀ {f : Folder}, itemAt? p f = some (.folder inner) → itemAt? (p ++ names) f = itemAt? names inner := by
  induction p with
  | nil =>
    intro f h
    rw [itemAt?] at h
    obtain rfl := FolderItem.folder.inj (Option.some.inj h)
    rfl
  | cons name p ih =>
    intro f h
    rw [List.cons_append, itemAt?_cons]
    rw [itemAt?_cons] at h
    obtain ⟨item, hitem, hbelow⟩ := Option.bind_eq_some_iff.mp h
    rw [hitem, Option.bind_some]
    -- the way ends at the folder only if no name is left
    cases p with
    | nil =>
      obtain rfl := Option.some.inj hbelow
      obtain ⟨next, names, rfl⟩ := List.exists_cons_of_ne_nil hne
      rfl
    | cons next p =>
      cases item with
      | folder items => exact ih hbelow
      | _ => cases hbelow

theorem exists_folder_of_below? {inner : Folder} : ∀ {names : List String} {item : FolderItem},
    below? names item = some (.folder inner) → ∃ items, item = .folder items
  | [], _, h => ⟨inner, Option.some.inj h⟩
  | _ :: _, .folder items, _ => ⟨items, rfl⟩

theorem exists_folder_of_append {names more : List String} {inner : Folder} : ∀ {f : Folder},
    itemAt? (names ++ more) f = some (.folder inner) → ∃ items, itemAt? names f = some (.folder items) := by
  induction names with
  | nil => exact fun _ => ⟨_, rfl⟩
  | cons name names ih =>
    intro f h
    rw [List.cons_append, itemAt?_cons] at h
    obtain ⟨item, hitem, hbelow⟩ := Option.bind_eq_some_iff.mp h
    obtain ⟨items, rfl⟩ := exists_folder_of_below? hbelow
    rw [itemAt?_cons, hitem, Option.bind_some]
    cases names with
    | nil => exact ⟨items, rfl⟩
    | cons next names => exact ih hbelow

theorem resolve_of_itemAt? {f inner : Folder} {p : List String} (hp : itemAt? p f = some (.folder inner))
    (hparent : ∀ name ∈ p, name ≠ "..") : f.resolve p = p := by
  have hwalk : ∀ (steps : ℕ) (rest done : List String), itemAt? (done.reverse ++ rest) f = some (.folder inner) →
      (∀ name ∈ rest, name ≠ "..") → resolveFrom f steps done rest = done.reverse ++ rest := by
    intro steps
    induction steps with
    | zero => exact fun _ _ _ _ => rfl
    | succ steps ih =>
      intro rest done hitem hrest
      cases rest with
      | nil => rw [resolveFrom, List.append_nil]
      | cons name rest =>
        obtain ⟨hname, hrest⟩ := List.forall_mem_cons.mp hrest
        have happend : done.reverse ++ name :: rest = (name :: done).reverse ++ rest := by simp
        rw [happend] at hitem ⊢
        obtain ⟨items, hitems⟩ := exists_folder_of_append hitem
        rw [resolveFrom, if_neg hname, hitems]
        exact ih rest (name :: done) hitem hrest
  exact hwalk resolutionSteps p [] hp hparent

/-! ## What is put -/

theorem lookup_put (name n : String) (item : FolderItem) : ∀ f : Folder,
    (put name item f).lookup n = if n = name then some item else f.lookup n
  | [] => by
    rw [put, List.lookup_cons]
    by_cases hn : n = name
    · rw [if_pos hn, beq_iff_eq.mpr hn]
    · rw [if_neg hn, beq_false_of_ne hn]
  | (k, old) :: f => by
    have ih := lookup_put name n item f
    rw [put]
    by_cases hk : k = name
    · subst hk
      rw [if_pos rfl, List.lookup_cons, List.lookup_cons]
      by_cases hn : n = k
      · rw [if_pos hn, beq_iff_eq.mpr hn]
      · rw [if_neg hn, beq_false_of_ne hn]
    · rw [if_neg hk, List.lookup_cons, List.lookup_cons]
      by_cases hn : n = k
      · subst hn
        rw [beq_self_eq_true, if_neg hk]
      · rw [beq_false_of_ne hn]
        exact ih

theorem put_put (name : String) (item old : FolderItem) : ∀ f : Folder, put name item (put name old f) = put name item f
  | [] => if_pos rfl
  | (k, other) :: f => by
    by_cases hk : k = name
    · rw [put, if_pos hk, put, if_pos rfl, put, if_pos hk]
    · rw [put, if_neg hk, put, if_neg hk, put, if_neg hk, put_put name item old f]

/-- A file can be put at a place: nothing or a file stands there, and folders or nothing on the way. -/
def IsFree : List String → Folder → Prop
  | [], _ => False
  | name :: names, f =>
    match f.lookup name with
    | none => True
    | some (.file _) => names = []
    | some (.folder inner) => IsFree names inner
    | some (.link _) => False

def itemsOf : Option FolderItem → Folder
  | some (.folder items) => items
  | _ => []

theorem isFree_itemsOf {name next : String} {names : List String} {f : Folder} (h : IsFree (name :: next :: names) f) :
    IsFree (next :: names) (itemsOf (f.lookup name)) := by
  rw [IsFree] at h
  split at h
  · rename_i hnone
    rw [hnone]
    trivial
  · cases h
  · rename_i inner hinner
    rw [hinner]
    exact h
  · cases h

theorem putAt_cons_cons {name next : String} {names : List String} {f : Folder} (h : IsFree (name :: next :: names) f)
    (item : FolderItem) : putAt item (name :: next :: names) f =
      put name (.folder (putAt item (next :: names) (itemsOf (f.lookup name)))) f := by
  rw [IsFree] at h
  rw [putAt]
  · split at h
    · rename_i hnone
      rw [hnone]
      rfl
    · cases h
    · rename_i inner hinner
      rw [hinner]
      rfl
    · cases h
  · simp

theorem itemAt?_putAt_self (item : FolderItem) : ∀ {path : List String} {f : Folder}, IsFree path f →
    itemAt? path (putAt item path f) = some item
  | [name], f, _ => by
    rw [putAt, itemAt?, lookup_put, if_pos rfl]
  | name :: next :: names, f, h => by
    rw [putAt_cons_cons h, itemAt?_cons, lookup_put, if_pos rfl, Option.bind_some]
    exact itemAt?_putAt_self item (isFree_itemsOf h)

theorem putAt_putAt (item old : FolderItem) : ∀ {path : List String} {f : Folder}, IsFree path f →
    putAt item path (putAt old path f) = putAt item path f
  | [name], f, _ => put_put name item old f
  | name :: next :: names, f, h => by
    have ih := putAt_putAt item old (isFree_itemsOf h)
    rw [putAt_cons_cons h, putAt_cons_cons h, putAt, lookup_put, if_pos rfl]
    · dsimp only
      rw [put_put, ih]
    · simp

/-! ## Where paths lead -/

theorem below?_file_ne_link (q : List String) (content : List UInt8) (target : List String) :
    below? q (.file content) ≠ some (.link target) := by
  cases q <;> exact nofun

theorem itemAt?_itemsOf (old : Option FolderItem) (name : String) (names : List String) :
    itemAt? (name :: names) (itemsOf old) = old.bind (below? (name :: names)) := by
  have hnone : itemAt? (name :: names) [] = none := itemAt?_cons name names []
  cases old with
  | none => exact hnone
  | some item =>
    cases item with
    | folder items => rfl
    | file content => exact hnone
    | link target => exact hnone

theorem lookup_ne_link {name : String} {names : List String} {f : Folder} (h : IsFree (name :: names) f)
    (target : List String) : f.lookup name ≠ some (.link target) := by
  intro hlink
  rw [IsFree, hlink] at h
  exact h

theorem link_putAt (content : List UInt8) (target : List String) : ∀ {path q : List String} {f : Folder}, IsFree path f →
    (itemAt? q (putAt (.file content) path f) = some (.link target) ↔ itemAt? q f = some (.link target))
  | _ :: _, [], f, _ => ⟨nofun, nofun⟩
  | [name], n :: q, f, h => by
    rw [putAt, itemAt?_cons, itemAt?_cons, lookup_put]
    by_cases hn : n = name
    · subst hn
      refine iff_of_false (by rw [if_pos rfl]; exact below?_file_ne_link q content target) fun hlink => ?_
      obtain ⟨item, hitem, hbelow⟩ := Option.bind_eq_some_iff.mp hlink
      rw [IsFree, hitem] at h
      cases item with
      | file old => exact below?_file_ne_link q old target hbelow
      | _ => exact h
    · rw [if_neg hn]
  | name :: next :: names, n :: q, f, h => by
    rw [putAt_cons_cons h, itemAt?_cons, itemAt?_cons, lookup_put]
    by_cases hn : n = name
    · subst hn
      rw [if_pos rfl, Option.bind_some]
      -- the place of the file itself, or a place inside one of the folders on its way
      cases q with
      | nil =>
        refine iff_of_false nofun fun hlink => ?_
        obtain ⟨item, hitem, hbelow⟩ := Option.bind_eq_some_iff.mp hlink
        obtain rfl := Option.some.inj hbelow
        exact lookup_ne_link h target hitem
      | cons m q =>
        rw [← itemAt?_itemsOf]
        exact link_putAt content target (isFree_itemsOf h)
    · rw [if_neg hn]

theorem resolveFrom_congr {f g : Folder}
    (h : ∀ q target, itemAt? q f = some (.link target) ↔ itemAt? q g = some (.link target)) :
    ∀ steps done rest, resolveFrom f steps done rest = resolveFrom g steps done rest
  | 0, _, _ => rfl
  | _ + 1, _, [] => rfl
  | steps + 1, done, name :: rest => by
    have ih := resolveFrom_congr h steps
    rw [resolveFrom, resolveFrom, ih]
    by_cases hparent : name = ".."
    · rw [if_pos hparent, if_pos hparent]
    rw [if_neg hparent, if_neg hparent]
    split
    · rename_i target htarget
      rw [(h _ _).mp htarget]
      exact ih _ _
    · rename_i hnone
      split
      · rename_i target htarget
        exact absurd ((h _ _).mpr htarget) (hnone target)
      · exact ih _ _

section
variable {f : Folder} {path : List String} (h : IsFree (f.resolve path) f) (content : List UInt8)
include h

theorem resolve_write (q : List String) : (f.write path content).resolve q = f.resolve q :=
  resolveFrom_congr (fun _ target => link_putAt content target h) resolutionSteps [] q

theorem contentAt?_write : (f.write path content).contentAt? path = some content := by
  rw [contentAt?, find?, resolve_write h, write, itemAt?_putAt_self _ h]

theorem write_write (old : List UInt8) : (f.write path old).write path content = f.write path content := by
  rw [write, resolve_write h, write, write, putAt_putAt _ _ h]

end

end NoteQuery.Folder

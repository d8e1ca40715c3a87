/-!
# Computations that may fail

What a computation has come through if it has not failed.
-/

namespace NoteQuery

variable {ε η α β : Type}

theorem ok_bind (a : α) (f : α → Except ε β) : (.ok a >>= f) = f a := rfl

theorem bind_eq_ok {x : Except ε α} {f : α → Except ε β} {b : β} (h : x >>= f = .ok b) :
    ∃ a, x = .ok a ∧ f a = .ok b := by
  cases x with
  | error e => cases h
  | ok a => exact ⟨a, rfl, h⟩

theorem bind_eq_error {x : Except ε α} {f : α → Except ε β} {e : ε} (h : x >>= f = .error e) :
    x = .error e ∨ ∃ a, x = .ok a ∧ f a = .error e := by
  cases x with
  | error fault => exact Or.inl (congrArg Except.error (Except.error.inj h))
  | ok a => exact Or.inr ⟨a, rfl, h⟩

theorem map_eq_ok {x : Except ε α} {f : α → β} {b : β} (h : x.map f = .ok b) : ∃ a, x = .ok a ∧ f a = b := by
  cases x with
  | error e => cases h
  | ok a => exact ⟨a, rfl, Except.ok.inj h⟩

theorem mapError_eq_ok {x : Except ε α} {f : ε → η} {a : α} (h : x.mapError f = .ok a) : x = .ok a := by
  cases x with
  | error e => cases h
  | ok b => exact congrArg Except.ok (Except.ok.inj h)

theorem exists_of_toOption_map {x : Except ε α} {f : α → β} {b : β} (h : x.toOption.map f = some b) :
    ∃ a, x = .ok a ∧ f a = b := by
  cases x with
  | error e => cases h
  | ok a => exact ⟨a, rfl, Option.some.inj h⟩

def failure? : Except ε α → Option ε
  | .error e => some e
  | .ok _ => none

theorem exists_of_failure?_map {x : Except ε α} {f : ε → β} {b : β} (h : (failure? x).map f = some b) :
    ∃ e, x = .error e ∧ f e = b := by
  cases x with
  | error e => exact ⟨e, rfl, Option.some.inj h⟩
  | ok a => cases h

theorem exists_of_mapM {f : α → Except ε β} : ∀ {l : List α} {m : List β}, l.mapM f = .ok m →
    ∀ b ∈ m, ∃ a ∈ l, f a = .ok b
  | [], m, h, b, hb => by
    rw [List.mapM_nil] at h
    rw [← Except.ok.inj h] at hb
    cases hb
  | a :: l, m, h, b, hb => by
    rw [List.mapM_cons] at h
    obtain ⟨first, hfirst, h⟩ := bind_eq_ok h
    obtain ⟨rest, hrest, h⟩ := bind_eq_ok h
    rw [← Except.ok.inj h] at hb
    rcases List.mem_cons.mp hb with rfl | hb
    · exact ⟨a, List.mem_cons_self, hfirst⟩
    · obtain ⟨c, hc, heq⟩ := exists_of_mapM hrest b hb
      exact ⟨c, List.mem_cons_of_mem _ hc, heq⟩

theorem exists_of_mapM_error {f : α → Except ε β} {e : ε} : ∀ {l : List α}, l.mapM f = .error e → ∃ a ∈ l, f a = .error e
  | [], h => nomatch h
  | a :: l, h => by
    rw [List.mapM_cons] at h
    rcases bind_eq_error h with hfirst | ⟨first, -, h⟩
    · exact ⟨a, List.mem_cons_self, hfirst⟩
    · rcases bind_eq_error h with hrest | ⟨rest, -, h⟩
      · obtain ⟨c, hc, heq⟩ := exists_of_mapM_error hrest
        exact ⟨c, List.mem_cons_of_mem _ hc, heq⟩
      · cases h

theorem length_of_mapM {f : α → Except ε β} : ∀ {l : List α} {m : List β}, l.mapM f = .ok m → m.length = l.length
  | [], m, h => by
    rw [List.mapM_nil] at h
    rw [← Except.ok.inj h]
    rfl
  | a :: l, m, h => by
    rw [List.mapM_cons] at h
    obtain ⟨first, hfirst, h⟩ := bind_eq_ok h
    obtain ⟨rest, hrest, h⟩ := bind_eq_ok h
    rw [← Except.ok.inj h, List.length_cons, List.length_cons, length_of_mapM hrest]

theorem exists_mapM_eq_ok {f : α → Except ε β} : ∀ {l : List α}, (∀ a ∈ l, ∃ b, f a = .ok b) → ∃ m, l.mapM f = .ok m
  | [], _ => ⟨[], rfl⟩
  | a :: l, h => by
    obtain ⟨⟨b, hb⟩, hl⟩ := List.forall_mem_cons.mp h
    obtain ⟨m, hm⟩ := exists_mapM_eq_ok hl
    refine ⟨b :: m, ?_⟩
    rw [List.mapM_cons, hb, hm]
    rfl

theorem map_of_mapM {γ : Type} {f : α → Except ε β} {g : β → γ} {k : α → γ} : ∀ {l : List α} {m : List β},
    l.mapM f = .ok m → (∀ a ∈ l, ∀ b, f a = .ok b → g b = k a) → m.map g = l.map k
  | [], m, h, _ => by
    rw [List.mapM_nil] at h
    rw [← Except.ok.inj h]
    rfl
  | a :: l, m, h, hall => by
    rw [List.mapM_cons] at h
    obtain ⟨first, hfirst, h⟩ := bind_eq_ok h
    obtain ⟨rest, hrest, h⟩ := bind_eq_ok h
    obtain ⟨ha, hl⟩ := List.forall_mem_cons.mp hall
    rw [← Except.ok.inj h, List.map_cons, List.map_cons, ha first hfirst, map_of_mapM hrest hl]

end NoteQuery

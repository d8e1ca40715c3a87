import NoteQuery.Proofs.Query.Phrase
import NoteQuery.Proofs.Vault.Answers

/-!
# Limits and the default limit

A query text is searched for the first limit that is written in it, and a vault has a default limit for
queries without one. A limit of zero is dropped before the vault asks for it, so that the default comes back.
-/

namespace NoteQuery.Query

/-! ## The first limit of a text -/

/-- The first limit written in a text asks for so many. -/
def FirstLimit (n : Nat) (cs : List Char) : Prop :=
  ∃ after, WordStart none cs after ∧ LimitsTo n after ∧
    ∀ earlier m, WordStart none cs earlier → after.length < earlier.length → ¬LimitsTo m earlier

theorem search_limit_eq_some_iff {cs : List Char} {n : Nat} : search limitClause? cs = some n ↔ FirstLimit n cs := by
  unfold search FirstLimit
  rw [searchFrom_eq_some_iff]
  simp only [limitClause?_eq_some_iff, Option.eq_none_iff_forall_ne_some, ne_eq]
  constructor
  · rintro ⟨after, hstart, hlimit, hnone⟩
    exact ⟨after, hstart, hlimit, fun earlier m hearlier hlonger => hnone earlier hearlier hlonger m⟩
  · rintro ⟨after, hstart, hlimit, hnone⟩
    exact ⟨after, hstart, hlimit, fun earlier hearlier hlonger m => hnone earlier m hearlier hlonger⟩

theorem search_limit_eq_none_iff {cs : List Char} : search limitClause? cs = none ↔ ∀ n, ¬FirstLimit n cs := by
  rw [Option.eq_none_iff_forall_ne_some]
  simp only [ne_eq, search_limit_eq_some_iff]

theorem limit_eq_of_parse {text : String} {q : Query} (h : parse text = .ok q) :
    q.limit = ((search limitClause? (Text.squeeze text.toList)).filter (0 < ·)).map fun n : Nat => .count n := by
  obtain ⟨head, -, h⟩ := bind_eq_ok h
  obtain ⟨-, -, h⟩ := bind_eq_ok h
  obtain ⟨conditions, -, h⟩ := bind_eq_ok h
  obtain rfl := Except.ok.inj h
  cases (search limitClause? (Text.squeeze text.toList)).filter (0 < ·) <;> rfl

section
variable {text : String} {q : Query} (h : parse text = .ok q)
include h

theorem limit_of_firstLimit {n : Nat} (hfirst : FirstLimit n (Text.squeeze text.toList)) (hn : 0 < n) :
    q.limit = some (.count n) := by
  rw [limit_eq_of_parse h, search_limit_eq_some_iff.mpr hfirst, Option.filter_some, if_pos (by simpa using hn)]
  rfl

theorem limit_of_zero (hfirst : FirstLimit 0 (Text.squeeze text.toList)) : q.limit = none := by
  rw [limit_eq_of_parse h, search_limit_eq_some_iff.mpr hfirst]
  rfl

theorem limit_of_forall_not (hnone : ∀ n, ¬FirstLimit n (Text.squeeze text.toList)) : q.limit = none := by
  rw [limit_eq_of_parse h, search_limit_eq_none_iff.mpr hnone]
  rfl

end

end NoteQuery.Query

namespace NoteQuery

/-! ## The default limit -/

/-- The limit that a configuration has for queries without one. -/
def Config.limit? (c : Config) : Option Limit :=
  if 0 < c.defaultLimit.toInt then some c.defaultLimit else none

theorem Config.limit?_eq_none_iff (c : Config) : c.limit? = none ↔ c.defaultLimit.toInt ≤ 0 := by
  unfold limit?
  by_cases h : 0 < c.defaultLimit.toInt
  · rw [if_pos h]
    refine iff_of_false (Option.some_ne_none _) (Int.not_le.mpr h)
  · rw [if_neg h]
    exact iff_of_true rfl (Int.not_lt.mp h)

theorem Query.limit_withDefault (q : Query) (c : Config) : (q.withDefault c).limit = q.limit.or c.limit? := by
  unfold withDefault Config.limit?
  cases hlimit : q.limit with
  | none =>
    by_cases h : 0 < c.defaultLimit.toInt
    · simp [h]
    · simp [h, hlimit]
  | some l => simp [hlimit]

theorem Query.unlimited_withDefault (q : Query) (c : Config) : (q.withDefault c).unlimited = q.unlimited := by
  unfold withDefault
  split
  · rfl
  · rfl

namespace Vault

/-- A limit of at least one is kept. The default limit takes the place of no limit and of a limit of zero. -/
theorem limit_parse {text : String} {q : Query} (h : Query.parse text = .ok q) (v : Vault) :
    ∃ p, v.parse text = .ok p ∧ p.unlimited = q.unlimited ∧
      (∀ n, Query.FirstLimit n (Text.squeeze text.toList) → 0 < n → p.limit = some (.count n)) ∧
      ((∀ n, ¬Query.FirstLimit n (Text.squeeze text.toList)) → p.limit = v.config.limit?) ∧
      (Query.FirstLimit 0 (Text.squeeze text.toList) →
        p.limit = v.config.limit? ∧ (p.limit = none ↔ v.config.defaultLimit.toInt ≤ 0)) := by
  refine ⟨q.withDefault v.config, ?_, q.unlimited_withDefault v.config, ?_, ?_, ?_⟩
  · rw [parse, h]
    rfl
  · intro n hfirst hn
    rw [q.limit_withDefault, Query.limit_of_firstLimit h hfirst hn, Option.some_or]
  · intro hnone
    rw [q.limit_withDefault, Query.limit_of_forall_not h hnone, Option.none_or]
  · intro hzero
    rw [q.limit_withDefault, Query.limit_of_zero h hzero, Option.none_or]
    exact ⟨rfl, v.config.limit?_eq_none_iff⟩

def limitedVault : Vault := { openVault with config := { openVault.config with defaultLimit := .count 5 } }

theorem firstLimit_zero : Query.FirstLimit 0 (Text.squeeze "LIST LIMIT 0".toList) :=
  Query.search_limit_eq_some_iff.mp (by decide +kernel)

theorem limit_parse_limitedVault : ∃ q p, Query.parse "LIST SORT due LIMIT 12" = .ok q ∧
    limitedVault.parse "LIST SORT due LIMIT 12" = .ok p ∧ p.unlimited = q.unlimited ∧ p.limit = some (.count 12) := by
  have hfirst : Query.FirstLimit 12 (Text.squeeze "LIST SORT due LIMIT 12".toList) :=
    Query.search_limit_eq_some_iff.mp (by decide +kernel)
  obtain ⟨q, hq⟩ : ∃ q, Query.parse "LIST SORT due LIMIT 12" = .ok q := ⟨_, rfl⟩
  obtain ⟨p, hp, hrest, hlimit, -, -⟩ := limit_parse hq limitedVault
  exact ⟨q, p, hq, hp, hrest, hlimit 12 hfirst (by decide)⟩

/-- The default limit of five comes back. -/
theorem not_always_lifted : ¬∀ (v : Vault) (text : String) (p : Query), v.parse text = .ok p →
    Query.FirstLimit 0 (Text.squeeze text.toList) → p.limit = none := by
  intro hall
  have hparse : limitedVault.parse "LIST LIMIT 0" = .ok { kind := .list, limit := some (.count 5) } := rfl
  have hnone := hall limitedVault "LIST LIMIT 0" _ hparse firstLimit_zero
  cases hnone

end Vault

end NoteQuery

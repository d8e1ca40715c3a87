import NoteQuery.Proofs.Bytes.Utf8
import NoteQuery.Proofs.Folder.Place
import NoteQuery.Proofs.Toml.Document
import NoteQuery.Vault.Disk

/-!
# Saved configurations

A configuration is saved as a document of three plain tables, which is read back as these tables, and every setting is
found in them again. So a store is opened with the configuration that was saved, and saving it once more leaves the
disk as it is.
-/

namespace NoteQuery

namespace Config

structure IsLoadable (c : Config) : Prop where
  version : (∃ n ≤ 1, c.version = .int n) ∨ ∃ b, c.version = .bool b
  created : ∃ s, c.created = .text s
  limit : (∃ n ≥ 0, c.defaultLimit = .count n) ∨ ∃ b, c.defaultLimit = .flag b

namespace IsLoadable

variable {c : Config} (h : c.IsLoadable)
include h

theorem isScalar_version (hshort : isLong c.version = false) : c.version.IsScalar := by
  rcases h.version with ⟨n, -, hn⟩ | ⟨b, hb⟩
  · rw [hn] at hshort ⊢
    exact .int hshort
  · exact hb ▸ .bool b

theorem isScalar_created : c.created.IsScalar := by
  obtain ⟨s, hs⟩ := h.created
  exact hs ▸ .text s

theorem isScalar_limit (hshort : isLong (limitToml c.defaultLimit) = false) :
    (limitToml c.defaultLimit).IsScalar := by
  rcases h.limit with ⟨n, -, hn⟩ | ⟨b, hb⟩
  · rw [hn] at hshort ⊢
    exact .int hshort
  · exact hb ▸ .bool b

theorem checkVersion : checkVersion c.version = .ok () := by
  rcases h.version with ⟨n, hle, hn⟩ | ⟨b, hb⟩
  · have hle : n * (Number.unit : Int) ≤ 1 * Number.unit := Int.mul_le_mul_of_nonneg_right hle (Int.natCast_nonneg _)
    have hcompare : (compare (n * (Number.unit : Int)) (1 * Number.unit)).isGT = false := by
      cases hgt : compare (n * (Number.unit : Int)) (1 * Number.unit) with
      | gt => exact absurd (Int.compare_eq_gt.mp hgt) (Int.not_lt.mpr hle)
      | _ => rfl
    rw [hn]
    exact if_neg (Bool.not_eq_true _ ▸ hcompare)
  · rw [hb]
    rfl

theorem limitOf : limitOf (limitToml c.defaultLimit) = .ok c.defaultLimit := by
  rcases h.limit with ⟨n, hn, heq⟩ | ⟨b, hb⟩
  · rw [heq]
    exact if_neg (Int.not_lt.mpr hn)
  · rw [hb]
    rfl

end IsLoadable

/-! ## Tables -/

def storeTable (c : Config) : Toml.Table := [("version", c.version), ("created", c.created)]

def vaultTable (v : VaultKey) : Toml.Table :=
  [("user_id", .text v.user), ("owner", .text v.owner), ("repo", .text v.repo), ("branch", .text v.branch)]

def queryTable (c : Config) : Toml.Table := [("default_limit", limitToml c.defaultLimit)]

def sections (c : Config) : List (String × Toml.Table) :=
  [("store", c.storeTable), ("vault", vaultTable c.vault), ("query", c.queryTable)]

theorem write_eq (c : Config) : c.write = Toml.document c.sections := rfl

theorem saved_eq_ok_iff {c : Config} {text : String} : c.saved = .ok text ↔
    text = c.write ∧ isLong c.version = false ∧ isLong (limitToml c.defaultLimit) = false := by
  unfold saved
  by_cases hlong : (isLong c.version || isLong (limitToml c.defaultLimit)) = true
  · rw [if_pos hlong]
    refine iff_of_false (fun h => nomatch h) fun h => ?_
    rw [h.2.1, h.2.2] at hlong
    cases hlong
  · rw [if_neg hlong, ← Bool.or_eq_false_iff, and_iff_left (Bool.eq_false_iff.mpr hlong)]
    exact ⟨fun h => (Except.ok.inj h).symm, fun h => h ▸ rfl⟩

theorem isPlainDocument_sections {c : Config} (h : c.IsLoadable) (hversion : isLong c.version = false)
    (hlimit : isLong (limitToml c.defaultLimit) = false) : Toml.IsPlainDocument c.sections where
  distinct := by simp [sections]
  bare := by
    simp only [sections, List.forall_mem_cons]
    exact ⟨by decide, by decide, by decide, List.forall_mem_nil _⟩
  plain := by
    have hstore : Toml.IsPlainTable c.storeTable := by
      refine .of_keys ["version", "created"] rfl (by decide) (by decide) ?_
      simp only [storeTable, List.forall_mem_cons]
      exact ⟨h.isScalar_version hversion, h.isScalar_created, List.forall_mem_nil _⟩
    have hvault : Toml.IsPlainTable (vaultTable c.vault) := by
      refine .of_keys ["user_id", "owner", "repo", "branch"] rfl (by decide) (by decide) ?_
      simp only [vaultTable, List.forall_mem_cons]
      exact ⟨.text _, .text _, .text _, .text _, List.forall_mem_nil _⟩
    have hquery : Toml.IsPlainTable c.queryTable := by
      refine .of_keys ["default_limit"] rfl (by decide) (by decide) ?_
      simp only [queryTable, List.forall_mem_cons]
      exact ⟨h.isScalar_limit hlimit, List.forall_mem_nil _⟩
    simp only [sections, List.forall_mem_cons]
    exact ⟨hstore, hvault, hquery, List.forall_mem_nil _⟩

theorem ofTable_sections {c : Config} (h : c.IsLoadable) : ofTable (Toml.tables c.sections) = .ok c := by
  have hstore : tableAt "store" (Toml.tables c.sections) = .ok c.storeTable := rfl
  have hvault : tableAt "vault" (Toml.tables c.sections) = .ok (vaultTable c.vault) := rfl
  have hquery : tableAt "query" (Toml.tables c.sections) = .ok c.queryTable := rfl
  have hversion : (c.storeTable.lookup "version").getD (.int 1) = c.version := rfl
  have hlimit : (c.queryTable.lookup "default_limit").getD (.int 0) = limitToml c.defaultLimit := rfl
  rw [ofTable, hstore, ok_bind, hversion]
  dsimp only
  rw [h.checkVersion, ok_bind, hquery, ok_bind, hlimit, h.limitOf, ok_bind, hvault, ok_bind]
  rfl

theorem read_write {c : Config} (h : c.IsLoadable) (hversion : isLong c.version = false)
    (hlimit : isLong (limitToml c.defaultLimit) = false) : read c.write = .ok c := by
  rw [read, write_eq, Toml.read_document (isPlainDocument_sections h hversion hlimit)]
  exact ofTable_sections h

end Config

/-! ## Disks -/

namespace Disk

section
variable {d : Disk} {path : String} (h : Folder.IsFree (d.files.resolve (Path.names path)) d.files) (text : String)
include h

theorem textAt?_writeText : (d.writeText path text).textAt? path = some text := by
  rw [textAt?, writeText, Folder.contentAt?_write h, Option.map_some, Bytes.decodeUtf8_encodeUtf8]
  dsimp only
  rw [String.ofList_toList]

theorem writeText_writeText (old : String) : (d.writeText path old).writeText path text = d.writeText path text := by
  rw [writeText, writeText, Folder.write_write h]
  rfl

end

/-- A store directory behind a link, with an old configuration file in it. -/
def linkedDisk : Disk where
  files :=
    [("home", .folder [("store", .link ["data", "main"])]),
      ("data", .folder [("main", .folder [("vaultquery.toml", .file [111, 108, 100])])])]
  stores := []

/-- Settings with quotes, line ends, control characters and characters of every width. -/
def awkwardConfig : Config where
  version := .int (-12)
  created := .text "\"\"\"\\u0041\r\n\t\x00\x08\x0c\x7f"
  vault := ⟨"é", "", "'# = ]", "€😀"⟩
  defaultLimit := .count 18446744073709551616

end Disk

end NoteQuery

import NoteQuery.CommandLine
import NoteQuery.Proofs.Fallible
import NoteQuery.Proofs.Number.ShortestDecimal
import NoteQuery.Yaml.Content

/-!
# Faults of a configuration

A configuration is read one setting after the other, up to the first fault. Two kinds of fault are expected where a
store is opened, a version that is too new and a limit that is no count, and the command says them; a section that is
no table and a version that is no number crash it. So what a command does with a file depends on the types of its three
sections and of two of their entries.
-/

namespace NoteQuery

namespace Config

variable {file : Toml.Table}

/-! ## Sections and settings -/

/-- The entries of a section, which are none where the file leaves it out. -/
inductive HasSection (file : Toml.Table) (name : String) : Toml.Table → Prop
  | absent (h : file.lookup name = none) : HasSection file name []
  | table {entries : Toml.Table} (h : file.lookup name = some (.table entries)) : HasSection file name entries

theorem HasSection.unique {name : String} {entries others : Toml.Table} (h : HasSection file name entries)
    (hothers : HasSection file name others) : entries = others := by
  cases h with
  | absent h =>
    cases hothers with
    | absent => rfl
    | table hother => simp [h] at hother
  | table h =>
    cases hothers with
    | absent hother => simp [h] at hother
    | table hother => simpa [h] using hother

theorem tableAt_cases (file : Toml.Table) (name : String) :
    (∃ kind, tableAt name file = .error (.noTable kind) ∧ ∀ entries, ¬HasSection file name entries) ∨
      ∃ entries, tableAt name file = .ok entries ∧ HasSection file name entries := by
  unfold tableAt
  split
  · rename_i h
    exact .inr ⟨[], rfl, .absent h⟩
  · rename_i entries h
    exact .inr ⟨entries, rfl, .table h⟩
  · rename_i other hother h
    refine .inl ⟨other.kindName, rfl, ?_⟩
    intro entries hentries
    cases hentries with
    | absent habsent => simp [h] at habsent
    | table htable => exact hother entries (Option.some.inj (h.symm.trans htable))

def HasSetting (file : Toml.Table) (name key : String) (default value : Toml) : Prop :=
  ∃ entries, HasSection file name entries ∧ value = (entries.lookup key).getD default

theorem HasSetting.unique {name key : String} {default v w : Toml} (hv : HasSetting file name key default v)
    (hw : HasSetting file name key default w) : v = w := by
  obtain ⟨entries, hentries, rfl⟩ := hv
  obtain ⟨others, hothers, rfl⟩ := hw
  rw [hentries.unique hothers]

def HasVersion (file : Toml.Table) (version : Toml) : Prop := HasSetting file "store" "version" (.int 1) version

def HasLimit (file : Toml.Table) (limit : Toml) : Prop := HasSetting file "query" "default_limit" (.int 0) limit

/-! ## Versions and limits -/

/-- Truth values count as numbers. -/
def IsNumber : Toml → Prop
  | .int _ | .float _ | .bool _ => True
  | _ => False

instance : DecidablePred IsNumber
  | .int _ | .float _ | .bool _ => isTrue trivial
  | .text _ | .date _ | .dateTime _ | .clock _ | .list _ | .table _ => isFalse id

def IsTruth : Toml → Prop
  | .bool _ => True
  | _ => False

/-- NaN is not above one. -/
def IsAboveOne : Toml → Prop
  | .int n => 1 < n
  | .float x => (Number.float x).compare (.int 1) = .gt
  | _ => False

instance : DecidablePred IsAboveOne
  | .int n => inferInstanceAs (Decidable (1 < n))
  | .float x => inferInstanceAs (Decidable ((Number.float x).compare (.int 1) = .gt))
  | .bool _ | .text _ | .date _ | .dateTime _ | .clock _ | .list _ | .table _ => isFalse id

def IsCount : Toml → Prop
  | .int n => 0 ≤ n
  | _ => False

instance : DecidablePred IsCount
  | .int n => inferInstanceAs (Decidable (0 ≤ n))
  | .bool _ | .float _ | .text _ | .date _ | .dateTime _ | .clock _ | .list _ | .table _ => isFalse id

theorem isAboveOne_int_iff (n : Int) : ((Number.int n).compare (.int 1)).isGT = true ↔ 1 < n := by
  have hunit : (0 : Int) < Number.unit := Int.natCast_pos.mpr Number.unit_pos
  have hcompare : (Number.int n).compare (.int 1) = compare (n * (Number.unit : Int)) (1 * Number.unit) := rfl
  rw [Ordering.isGT_iff_eq_gt, hcompare, Int.compare_eq_gt]
  exact Int.mul_lt_mul_right hunit

theorem checkVersion_eq (version : Toml) : checkVersion version =
    if IsNumber version then if IsAboveOne version then .error (.newer version) else .ok ()
    else .error (.notComparable version.kindName) := by
  cases version with
  | int n => exact (if_congr (isAboveOne_int_iff n) rfl rfl).trans (if_pos trivial).symm
  | float x => exact (if_congr Ordering.isGT_iff_eq_gt rfl rfl).trans (if_pos trivial).symm
  | _ => rfl

theorem limitOf_cases (limit : Toml) :
    limitOf limit = .error (.limit limit) ∧ ¬IsCount limit ∧ ¬IsTruth limit ∨
      ∃ l, limitOf limit = .ok l ∧ limitToml l = limit ∧ (IsCount limit ∨ IsTruth limit) := by
  cases limit with
  | int n =>
    by_cases hn : n < 0
    · exact .inl ⟨if_pos hn, Int.not_le.mpr hn, id⟩
    · exact .inr ⟨.count n, if_neg hn, rfl, .inl (Int.not_lt.mp hn)⟩
  | bool b => exact .inr ⟨.flag b, rfl, rfl, .inr trivial⟩
  | _ => exact .inl ⟨rfl, id, id⟩

/-! ## Outcomes -/

structure IsSupported (file : Toml.Table) (version : Toml) : Prop where
  setting : HasVersion file version
  number : IsNumber version
  notAbove : ¬IsAboveOne version

/-- What reading comes to, in the order in which the settings are read. -/
inductive Outcome (file : Toml.Table) : Except ConfigFault Config → Prop
  | noStore (hstore : ∀ entries, ¬HasSection file "store" entries) (kind : String) :
    Outcome file (.error (.noTable kind))
  | noNumber {version : Toml} (h : HasVersion file version) (hnumber : ¬IsNumber version) :
    Outcome file (.error (.notComparable version.kindName))
  | newer {version : Toml} (h : HasVersion file version) (hnumber : IsNumber version) (habove : IsAboveOne version) :
    Outcome file (.error (.newer version))
  | noQuery {version : Toml} (h : IsSupported file version) (hquery : ∀ entries, ¬HasSection file "query" entries)
    (kind : String) : Outcome file (.error (.noTable kind))
  | noLimit {version limit : Toml} (h : IsSupported file version) (hlimit : HasLimit file limit)
    (hcount : ¬IsCount limit) (htruth : ¬IsTruth limit) : Outcome file (.error (.limit limit))
  | noVault {version limit : Toml} (h : IsSupported file version) (hlimit : HasLimit file limit)
    (hl : IsCount limit ∨ IsTruth limit) (hvault : ∀ entries, ¬HasSection file "vault" entries) (kind : String) :
    Outcome file (.error (.noTable kind))
  | loaded {vault : Toml.Table} (c : Config) (h : IsSupported file c.version)
    (hlimit : HasLimit file (limitToml c.defaultLimit))
    (hl : IsCount (limitToml c.defaultLimit) ∨ IsTruth (limitToml c.defaultLimit))
    (hvault : HasSection file "vault" vault) : Outcome file (.ok c)

theorem outcome_ofTable (file : Toml.Table) : Outcome file (ofTable file) := by
  unfold ofTable
  -- in the order in which the file is read: each step ends the reading or gives what the next one needs
  rcases tableAt_cases file "store" with ⟨kind, hread, hnone⟩ | ⟨store, hread, hstore⟩
  · rw [hread]
    exact .noStore hnone kind
  rw [hread, ok_bind]
  dsimp only
  generalize hvalue : (store.lookup "version").getD (.int 1) = version
  have hversion : HasVersion file version := ⟨store, hstore, hvalue.symm⟩
  rw [checkVersion_eq]
  by_cases hnumber : IsNumber version
  case neg =>
    rw [if_neg hnumber]
    exact .noNumber hversion hnumber
  by_cases habove : IsAboveOne version
  · rw [if_pos hnumber, if_pos habove]
    exact .newer hversion hnumber habove
  rw [if_pos hnumber, if_neg habove, ok_bind]
  have hsupported : IsSupported file version := ⟨hversion, hnumber, habove⟩
  rcases tableAt_cases file "query" with ⟨kind, hread, hnone⟩ | ⟨query, hread, hquery⟩
  · rw [hread]
    exact .noQuery hsupported hnone kind
  rw [hread, ok_bind]
  generalize hvalue : (query.lookup "default_limit").getD (.int 0) = limit
  have hlimit : HasLimit file limit := ⟨query, hquery, hvalue.symm⟩
  rcases limitOf_cases limit with ⟨hread, hcount, htruth⟩ | ⟨l, hread, rfl, hl⟩
  · rw [hread]
    exact .noLimit hsupported hlimit hcount htruth
  rw [hread, ok_bind]
  rcases tableAt_cases file "vault" with ⟨kind, hread, hnone⟩ | ⟨vault, hread, hvault⟩
  · rw [hread]
    exact .noVault hsupported hlimit hl hnone kind
  rw [hread, ok_bind]
  exact .loaded _ hsupported hlimit hl hvault

def IsReadable (file : Toml.Table) : Prop :=
  ∃ version limit vault, IsSupported file version ∧ HasLimit file limit ∧ (IsCount limit ∨ IsTruth limit) ∧
    HasSection file "vault" vault

theorem Outcome.isReadable_iff {result : Except ConfigFault Config} (h : Outcome file result) :
    (∃ c, result = .ok c) ↔ IsReadable file := by
  constructor
  · intro hloaded
    obtain ⟨c, rfl⟩ := hloaded
    cases h with
    | loaded c hsupported hlimit hl hvault => exact ⟨_, _, _, hsupported, hlimit, hl, hvault⟩
  · intro hreadable
    obtain ⟨version, limit, vault, hsupported, hlimit, hl, hvault⟩ := hreadable
    cases h with
    | noStore hstore kind =>
      obtain ⟨store, hstored, -⟩ := hsupported.setting
      exact absurd hstored (hstore store)
    | noNumber hversion hnumber => exact absurd (hversion.unique hsupported.setting ▸ hsupported.number) hnumber
    | newer hversion hnumber habove => exact absurd (hversion.unique hsupported.setting ▸ habove) hsupported.notAbove
    | noQuery _ hquery kind =>
      obtain ⟨query, hqueried, -⟩ := hlimit
      exact absurd hqueried (hquery query)
    | noLimit _ hother hcount htruth => exact absurd (hother.unique hlimit ▸ hl) (not_or.mpr ⟨hcount, htruth⟩)
    | noVault _ _ _ hnone kind => exact absurd hvault (hnone vault)
    | loaded c => exact ⟨c, rfl⟩

/-! ## Clean outcomes -/

/-- A malformed document is a wrong value, too. -/
def IsWrongValue (fault : ConfigFault) : Prop := CommandLine.configKind fault ∈ ["ValueError", "TOMLDecodeError"]

instance : DecidablePred IsWrongValue := fun _ => inferInstanceAs (Decidable (_ ∈ _))

theorem isWrongValue_newer (version : Toml) : IsWrongValue (.newer version) := List.mem_cons_self

theorem isWrongValue_limit (limit : Toml) : IsWrongValue (.limit limit) := List.mem_cons_self

theorem not_isWrongValue_noTable (kind : String) : ¬IsWrongValue (.noTable kind) := by
  simp [IsWrongValue, CommandLine.configKind]

theorem not_isWrongValue_notComparable (kind : String) : ¬IsWrongValue (.notComparable kind) := by
  simp [IsWrongValue, CommandLine.configKind]

def IsClean : Except ConfigFault Config → Prop
  | .ok c => IsNumber c.version ∧ ¬IsAboveOne c.version ∧ IsCount (limitToml c.defaultLimit)
  | .error fault => IsWrongValue fault

instance : DecidablePred IsClean
  | .ok _ => inferInstanceAs (Decidable (_ ∧ _ ∧ _))
  | .error fault => inferInstanceAs (Decidable (IsWrongValue fault))

/-- A file whose sections are tables as far as they are read, with a number for its version and a limit that is no
truth value. Nothing else is read after a version above one. -/
def IsWellShaped (file : Toml.Table) : Prop :=
  ∃ version, HasVersion file version ∧ IsNumber version ∧ (¬IsAboveOne version →
    ∃ limit, HasLimit file limit ∧ ¬IsTruth limit ∧ (IsCount limit → ∃ vault, HasSection file "vault" vault))

theorem IsSupported.isWellShaped_iff {version : Toml} (h : IsSupported file version) : IsWellShaped file ↔
    ∃ limit, HasLimit file limit ∧ ¬IsTruth limit ∧ (IsCount limit → ∃ vault, HasSection file "vault" vault) := by
  constructor
  · intro hshape
    obtain ⟨v, hv, -, hrest⟩ := hshape
    rw [hv.unique h.setting] at hrest
    exact hrest h.notAbove
  · intro hrest
    exact ⟨version, h.setting, h.number, fun _ => hrest⟩

theorem IsSupported.isWellShaped_iff_of_limit {version limit : Toml} (h : IsSupported file version)
    (hlimit : HasLimit file limit) :
    IsWellShaped file ↔ ¬IsTruth limit ∧ (IsCount limit → ∃ vault, HasSection file "vault" vault) := by
  rw [h.isWellShaped_iff]
  constructor
  · intro hrest
    obtain ⟨other, hother, hrest⟩ := hrest
    rwa [HasSetting.unique hother hlimit] at hrest
  · intro hrest
    exact ⟨limit, hlimit, hrest⟩

theorem not_isCount_of_isTruth {limit : Toml} (h : IsTruth limit) : ¬IsCount limit := by
  cases limit with
  | bool b => exact id
  | _ => exact h.elim

theorem Outcome.isClean_iff {result : Except ConfigFault Config} (h : Outcome file result) :
    IsClean result ↔ IsWellShaped file := by
  cases h with
  | noStore hstore kind =>
    refine iff_of_false (not_isWrongValue_noTable kind) ?_
    intro hshape
    obtain ⟨version, ⟨entries, hentries, -⟩, -⟩ := hshape
    exact hstore entries hentries
  | noNumber hversion hnumber =>
    refine iff_of_false (not_isWrongValue_notComparable _) ?_
    intro hshape
    obtain ⟨v, hv, hvnumber, -⟩ := hshape
    rw [HasSetting.unique hv hversion] at hvnumber
    exact hnumber hvnumber
  | newer hversion hnumber habove =>
    -- a later version is refused before anything else can be wrong with the file
    refine iff_of_true (isWrongValue_newer _) ?_
    exact ⟨_, hversion, hnumber, fun hnot => absurd habove hnot⟩
  | noQuery hsupported hquery kind =>
    rw [hsupported.isWellShaped_iff]
    refine iff_of_false (not_isWrongValue_noTable kind) ?_
    intro hrest
    obtain ⟨limit, ⟨entries, hentries, -⟩, -⟩ := hrest
    exact hquery entries hentries
  | noLimit hsupported hlimit hcount htruth =>
    rw [hsupported.isWellShaped_iff_of_limit hlimit]
    refine iff_of_true (isWrongValue_limit _) ?_
    exact ⟨htruth, fun h => absurd h hcount⟩
  | noVault hsupported hlimit hl hvault kind =>
    rw [hsupported.isWellShaped_iff_of_limit hlimit]
    refine iff_of_false (not_isWrongValue_noTable kind) ?_
    intro hrest
    obtain ⟨vault, hentries⟩ := hrest.2 (hl.resolve_right hrest.1)
    exact hvault vault hentries
  | loaded c hsupported hlimit hl hvault =>
    rw [hsupported.isWellShaped_iff_of_limit hlimit]
    constructor
    · intro hclean
      exact ⟨fun htruth => not_isCount_of_isTruth htruth hclean.2.2, fun _ => ⟨_, hvault⟩⟩
    · intro hrest
      exact ⟨hsupported.number, hsupported.notAbove, hl.resolve_right hrest.1⟩

theorem Outcome.configStop_eq {fault : ConfigFault} (h : Outcome file (.error fault)) :
    CommandLine.configStop fault = if IsWrongValue fault then .said ("Error: " ++ fault.message)
      else .crash ⟨CommandLine.configKind fault, fault.message⟩ := by
  cases h with
  | noStore _ kind | noQuery _ _ kind | noVault _ _ _ _ kind => exact (if_neg (not_isWrongValue_noTable kind)).symm
  | noNumber => exact (if_neg (not_isWrongValue_notComparable _)).symm
  | newer => exact (if_pos (isWrongValue_newer _)).symm
  | noLimit => exact (if_pos (isWrongValue_limit _)).symm

end Config

/-! ## Opening a store -/

namespace CommandLine

variable {env : Environment} {r : Request} {d : Disk} {fault : ConfigFault}

def Command.OpensStore : Command → Prop
  | .check _ => False
  | _ => True

theorem openVault_of_fault {text : String} (htext : d.textAt? (Config.file (storePath env r d)) = some text)
    (hfault : Config.read text = .error fault) : (openVault env r).run d = .error (configStop fault, d) := by
  have hopen : Vault.open_ (storePath env r d) env.user env.now none d = .error fault := by
    rw [Vault.open_, Disk.loadConfig, htext]
    dsimp only
    rw [hfault]
    rfl
  simp only [openVault, StateT.run_bind, StateT.run_get, pure_bind, hopen]
  rfl

theorem run_bind_of_error {α β : Type} {x : Run α} {s : Stop × Disk} (h : x.run d = .error s) (f : α → Run β) :
    (x >>= f).run d = .error s := by
  rw [StateT.run_bind, h]
  rfl

theorem answer_of_fault [Yaml.Loader] {s : Stop} (hopens : r.command.OpensStore) (h : (openVault env r).run d = .error (s, d)) :
    (answer env r).run d = .error (s, d) := by
  unfold answer
  cases hcommand : r.command with
  | check text => simp [hcommand, Command.OpensStore] at hopens
  | index folder rebuild => exact run_bind_of_error h _
  | query text folder => exact run_bind_of_error h _
  | status => exact run_bind_of_error h _
  | config path => exact run_bind_of_error h _

theorem run_of_fault [Yaml.Loader] {args : List String} {text : String} (hargs : Request.ofWords args = some r)
    (hopens : r.command.OpensStore) (htext : d.textAt? (Config.file (storePath env r d)) = some text)
    (hfault : Config.read text = .error fault) :
    run env args d = match configStop fault with
      | .said text => (⟨1, "", text ++ "\n"⟩, d)
      | .crash crash => crashed env crash d := by
  rw [run, hargs]
  dsimp only
  rw [answer_of_fault hopens (openVault_of_fault htext hfault)]
  cases configStop fault with
  | said text => rfl
  | crash crash => rfl

end CommandLine

namespace Config

open CommandLine

/-- Reading is clean just for the well shaped files. -/
theorem isClean_read_iff [Yaml.Loader] {text : String} {file : Toml.Table} (h : Toml.read text.toList = .ok file) :
    (IsClean (read text) ↔ IsWellShaped file) ∧
    ((∃ c, read text = .ok c) ↔ IsReadable file) ∧
    (∀ c, read text = .ok c → IsSupported file c.version ∧ HasLimit file (limitToml c.defaultLimit) ∧
      (IsCount (limitToml c.defaultLimit) ∨ IsTruth (limitToml c.defaultLimit))) ∧
    ∀ fault, read text = .error fault → ∀ env args r d, Request.ofWords args = some r → r.command.OpensStore →
      d.textAt? (Config.file (storePath env r d)) = some text →
      run env args d = if IsWrongValue fault then (⟨1, "", "Error: " ++ fault.message ++ "\n"⟩, d)
        else crashed env ⟨configKind fault, fault.message⟩ d := by
  have hread : read text = ofTable file := by
    rw [read, h]
  have houtcome := outcome_ofTable file
  rw [← hread] at houtcome
  refine ⟨houtcome.isClean_iff, houtcome.isReadable_iff, ?_, ?_⟩
  · intro c hc
    rw [hc] at houtcome
    cases houtcome with
    | loaded c hsupported hlimit hl hvault => exact ⟨hsupported, hlimit, hl⟩
  · intro fault hfault env args r d hargs hopens htext
    rw [run_of_fault hargs hopens htext hfault]
    rw [hfault] at houtcome
    rw [houtcome.configStop_eq]
    by_cases hwrong : IsWrongValue fault
    · rw [if_pos hwrong, if_pos hwrong]
    · rw [if_neg hwrong, if_neg hwrong]

def homeDisk (text : String) : Disk where
  files := [("home", .folder [(".vaultquery", .folder [("vaultquery.toml", .file (Bytes.encodeUtf8 text.toList))])])]
  stores := []

def homeEnvironment : Environment := ⟨"/home", none, "tester", "now", [], ""⟩

theorem isClean_read_laterVersion : ∃ file, Toml.read "[store]\nversion = 2\n".toList = .ok file ∧
    IsClean (read "[store]\nversion = 2\n") ∧
    run homeEnvironment ["status"] (homeDisk "[store]\nversion = 2\n") =
      (⟨1, "", "Error: Config version 2 is newer than supported (1)\n"⟩, homeDisk "[store]\nversion = 2\n") := by
  have hread : (Toml.read "[store]\nversion = 2\n".toList).toOption.map (fun _ => ()) = some () := by decide +kernel
  obtain ⟨file, hfile, -⟩ := exists_of_toOption_map hread
  have hfault : (failure? (read "[store]\nversion = 2\n")).map (fun fault => (configKind fault, fault.message)) =
      some ("ValueError", "Config version 2 is newer than supported (1)") := by decide +kernel
  obtain ⟨fault, hfault, heq⟩ := exists_of_failure?_map hfault
  obtain ⟨hkind, hmessage⟩ := Prod.mk.inj heq
  have hwrong : IsWrongValue fault := by simp [IsWrongValue, hkind]
  have htext : (homeDisk "[store]\nversion = 2\n").textAt? "/home/.vaultquery/vaultquery.toml" =
      some "[store]\nversion = 2\n" := by decide +kernel
  have hstore : Config.file (defaultStore "/home" none) = "/home/.vaultquery/vaultquery.toml" := by decide +kernel
  obtain ⟨-, -, -, hrun⟩ := isClean_read_iff hfile
  refine ⟨file, hfile, ?_, ?_⟩
  · rw [hfault]
    exact hwrong
  · have hrun := hrun fault hfault homeEnvironment ["status"] ⟨.status, false, none, none⟩ (homeDisk "[store]\nversion = 2\n")
      rfl trivial (hstore ▸ htext)
    rw [hrun, if_pos hwrong, hmessage]
    rfl

/-- A section that is no table crashes the command, and a truth value for the limit is loaded. -/
theorem not_always_clean :
    (∃ file, Toml.read "store = 1\n".toList = .ok file) ∧ ¬IsClean (read "store = 1\n") ∧
    (run homeEnvironment ["status"] (homeDisk "store = 1\n")).1.err =
      "Error: 'int' object has no attribute 'get'\nDetails logged to /home/.vaultquery/vaultquery-errors.log\n" ∧
    (∃ file, Toml.read "[query]\ndefault_limit = true\n".toList = .ok file) ∧
    ¬IsClean (read "[query]\ndefault_limit = true\n") := by
  have hstore : (Toml.read "store = 1\n".toList).toOption.map (fun _ => ()) = some () := by decide +kernel
  have hquery : (Toml.read "[query]\ndefault_limit = true\n".toList).toOption.map (fun _ => ()) = some () := by
    decide +kernel
  obtain ⟨storeFile, hstoreFile, -⟩ := exists_of_toOption_map hstore
  obtain ⟨queryFile, hqueryFile, -⟩ := exists_of_toOption_map hquery
  exact ⟨⟨storeFile, hstoreFile⟩, by decide +kernel, by decide +kernel, ⟨queryFile, hqueryFile⟩, by decide +kernel⟩

end Config

end NoteQuery

import NoteQuery.Proofs.Query.Accepted
import NoteQuery.Proofs.Result.Answer
import NoteQuery.Proofs.Result.Grouping
import NoteQuery.Proofs.Vault.Agreement

/-!
# Well-formed results

Every query that an open vault is asked has a result: a failure with an error and nothing else, or the
first rows or groups of the same query without its limit. Which of the two it is depends on whether
there are records to run the query over, and what the result looks like on the query.
-/

namespace NoteQuery

def Outcome.groups? : Outcome → Option (List Group)
  | .groups gs => some gs
  | _ => none

def Outcome.error? : Outcome → Option String
  | .failure message _ => some message
  | _ => none

def Outcome.needsIndex : Outcome → Bool
  | .failure _ needed => needed
  | _ => false

namespace Result

/-- A failure with an error and nothing else. -/
structure IsFailure (r : Result) : Prop where
  error : ∃ message, r.outcome.error? = some message ∧ message ≠ ""
  entries : r.outcome.entries = []
  groups : r.outcome.groups? = none
  labels : r.labels = none
  total : r.total = 0

theorem isFailure_failure {message : String} (h : message ≠ "") (q : Option Query) (needed : Bool) :
    (failure message q needed).IsFailure :=
  ⟨⟨message, rfl, h⟩, rfl, rfl, rfl, rfl⟩

end Result

namespace Query

def shown (q : Query) (total : Nat) : Nat :=
  match q.limit with
  | some l => min l.toInt.toNat total
  | none => total

def unlimited (q : Query) : Query := { q with limit := none }

/-- An answer shows the first of the groups, or of the rows, that the query has without its limit. -/
structure IsAnswer (q : Query) (records : List Record) (r : Result) : Prop where
  error : r.outcome.error? = none
  needsIndex : r.outcome.needsIndex = false
  total : r.total = (q.unlimited.run records).total
  grouped : q.groupBy.isSome = true → r.outcome.entries = [] ∧ ∃ groups all, r.outcome.groups? = some groups ∧
    (q.unlimited.run records).outcome.groups? = some all ∧ groups <+: all ∧ groups.length = q.shown r.total
  rows : q.groupBy = none → r.outcome.groups? = none ∧
    r.outcome.entries <+: (q.unlimited.run records).outcome.entries ∧ r.outcome.entries.length = q.shown r.total
  labels : r.labels = q.columns.map fun cs => cs.map (·.label)

/-! ## Limits -/

/-- A query whose limit, if there is one, asks for something, and whose groups, if there are any, have
a field. -/
structure IsProper (q : Query) : Prop where
  limit : ∀ l ∈ q.limit, 1 ≤ l.toInt
  groupBy : ∀ field ∈ q.groupBy, field ≠ ""

theorem applyLimit_spec {α : Type} {q : Query} (h : ∀ l ∈ q.limit, 1 ≤ l.toInt) (items : List α) :
    q.applyLimit items <+: items ∧ (q.applyLimit items).length = q.shown items.length := by
  rw [applyLimit, shown]
  cases hlimit : q.limit with
  | none => exact ⟨List.prefix_rfl, rfl⟩
  | some l =>
    have hpos := h l hlimit
    have heffective : l.effective? = some l.toInt.toNat := if_pos (by omega)
    rw [Option.bind_some, heffective]
    exact ⟨List.take_prefix _ _, List.length_take⟩

theorem isAnswer_of_grouped {q : Query} (hlimit : ∀ l ∈ q.limit, 1 ≤ l.toInt) {field : String}
    (hfield : q.groupField? = some field) (records : List Record) : IsAnswer q records (q.run records) := by
  obtain ⟨hsome, -⟩ := Option.filter_eq_some_iff.mp hfield
  have hall : q.unlimited.run records =
      ⟨some q.unlimited, .groups ((q.buckets field (q.candidates records)).map .ofBucket),
        (q.buckets field (q.candidates records)).length⟩ :=
    run_of_groupField (q := q.unlimited) hfield records
  obtain ⟨hfirst, hlength⟩ := applyLimit_spec hlimit (q.buckets field (q.candidates records))
  have hgroups : ((q.applyLimit (q.buckets field (q.candidates records))).map Group.ofBucket).length =
      q.shown (q.buckets field (q.candidates records)).length := by
    rw [List.length_map, hlength]
  rw [run_of_groupField hfield records]
  exact {
    error := rfl
    needsIndex := rfl
    total := by rw [hall]
    grouped := by
      intro _
      rw [hall]
      exact ⟨rfl, _, _, rfl, rfl, hfirst.map _, hgroups⟩
    rows := by
      intro hnone
      rw [hnone] at hsome
      cases hsome
    labels := rfl }

theorem isAnswer_of_flat {q : Query} (hlimit : ∀ l ∈ q.limit, 1 ≤ l.toInt) (hnone : q.groupBy = none)
    (records : List Record) : IsAnswer q records (q.run records) := by
  have hfield : q.groupField? = none := by rw [groupField?, hnone, Option.filter_none]
  have hrun : q.run records = ⟨some q, .rows ((q.applyLimit (q.sortedRows (q.candidates records))).map .ofRecord),
      (q.sortedRows (q.candidates records)).length⟩ := by
    rw [run, hfield]
  -- without the limit the same rows are found and sorted
  have hall : q.unlimited.run records = ⟨some q.unlimited, .rows ((q.sortedRows (q.candidates records)).map .ofRecord),
      (q.sortedRows (q.candidates records)).length⟩ := by
    rw [run, show q.unlimited.groupField? = none from hfield]
    rfl
  obtain ⟨hfirst, hlength⟩ := applyLimit_spec hlimit (q.sortedRows (q.candidates records))
  have hentries : ((q.applyLimit (q.sortedRows (q.candidates records))).map Entry.ofRecord).length =
      q.shown (q.sortedRows (q.candidates records)).length := by
    rw [List.length_map, hlength]
  rw [hrun]
  exact {
    error := rfl
    needsIndex := rfl
    total := by rw [hall]
    grouped := by
      intro hsome
      rw [hnone] at hsome
      cases hsome
    rows := by
      intro _
      rw [hall]
      exact ⟨rfl, hfirst.map _, hentries⟩
    labels := rfl }

theorem isAnswer_run {q : Query} (h : q.IsProper) (records : List Record) : IsAnswer q records (q.run records) := by
  cases hgroup : q.groupBy with
  | some field =>
    have hfield : q.groupField? = some field := by
      rw [groupField?, hgroup, Option.filter_some, if_pos (decide_eq_true (h.groupBy field hgroup))]
    exact isAnswer_of_grouped h.limit hfield records
  | none => exact isAnswer_of_flat h.limit hgroup records

theorem isProper_of_parse {text : String} {q : Query} (h : parse text = .ok q) : q.IsProper where
  limit := by
    intro l hl
    obtain ⟨n, rfl, hn⟩ := limit_of_parse h l hl
    rw [Limit.toInt]
    omega
  groupBy := by
    rintro field hfield rfl
    exact (groupBy_of_parse h _ hfield).1 rfl

theorem IsProper.withDefault {q : Query} (h : q.IsProper) (c : Config) : (q.withDefault c).IsProper := by
  rw [Query.withDefault]
  split
  · rename_i hdefault
    obtain ⟨-, hpos⟩ := Bool.and_eq_true_iff.mp hdefault
    refine ⟨fun l hl => ?_, h.groupBy⟩
    obtain rfl := Option.some.inj hl
    exact of_decide_eq_true hpos
  · exact h

theorem columns_withDefault (q : Query) (c : Config) :
    (q.withDefault c).columns = q.columns ∧ (q.withDefault c).kind = q.kind := by
  rw [withDefault]
  split <;> exact ⟨rfl, rfl⟩

end Query

theorem FetchFault.message_ne (f : FetchFault) : f.message ≠ "" := by
  rw [FetchFault.message]
  split
  · exact f.kind_ne
  · assumption

namespace Vault

/-! ## Records to run a query over -/

/-- Of a folder, and of an index whose last run completed, these are the public records; of a source, all
that it has. -/
inductive Serves [Yaml.Loader] (v : Vault) (d : Disk) : Option (List String) → List Record → Prop
  | folder {path : List String} {f : Folder} {records : List Record} (hfolder : d.files.folderAt? path = some f)
      (hread : (readNotes f.notes).2 = .ok records) : Serves v d (some path) (records.filter (!·.isPrivate))
  | source {source : RecordSource} {records : List Record} (hsource : v.records = some source)
      (hfetch : source v.key = .ok records) : Serves v d none records
  | index {s : IndexStatus} (hsource : v.records = none) (hstatus : (v.index d).statuses.lookup v.key = some s)
      (hstate : s.state = .completed) : Serves v d none (((v.index d).recordsOf v.key).filter (!·.isPrivate))

/-- Nothing to run a query over but an index that has not been completed. -/
structure LacksIndex (v : Vault) (d : Disk) (folder : Option (List String)) : Prop where
  folder : folder = none
  source : v.records = none
  status : ∀ s, (v.index d).statuses.lookup v.key = some s → s.state ≠ .completed

/-- What is so of the result of a text. An answer has one label for each column, and none in a list. -/
structure IsReply [Yaml.Loader] (v : Vault) (d : Disk) (text : String) (folder : Option (List String)) (r : Result) : Prop where
  result : r.IsFailure ∧ (∀ q records, v.parse text = .ok q → ¬Serves v d folder records) ∨
    ∃ q records, v.parse text = .ok q ∧ Serves v d folder records ∧ q.IsAnswer records r ∧
      (r.labels = none ↔ q.kind = .list)
  needsIndex : r.outcome.needsIndex = true ↔ (∃ q, v.parse text = .ok q) ∧ LacksIndex v d folder

section
variable {v : Vault} {d : Disk} {folder : Option (List String)} {text : String} {q : Query}

theorem query_of_serves [Yaml.Loader] (hopen : v.isOpen = true) (hindex : (v.index d).isOpen = true)
    (hparse : v.parse text = .ok q) {records : List Record} (h : Serves v d folder records) :
    (v.query text folder d).1 = (q.answer records).mapError .text := by
  rw [query, hparse]
  dsimp only
  cases h with
  | folder hfolder hread => exact queryFolder_of_readNotes v q hfolder hread
  | source hsource hfetch =>
    rw [hsource]
    dsimp only
    rw [runSource, hfetch]
  | index hsource hstatus hstate =>
    rw [hsource]
    exact queryIndex_of_ready hopen q hindex hstatus (beq_iff_eq.mpr hstate)

theorem query_of_lacksIndex [Yaml.Loader] (hopen : v.isOpen = true) (hindex : (v.index d).isOpen = true)
    (hparse : v.parse text = .ok q) (h : LacksIndex v d folder) :
    (v.query text folder d).1 = .ok (Result.failure notIndexed (some q) true) := by
  rw [query, hparse, h.folder, h.source]
  refine queryIndex_of_unready hopen q hindex fun s hs => ?_
  exact Bool.eq_false_iff.mpr fun hready => h.status s hs (beq_iff_eq.mp hready)

theorem LacksIndex.not_serves [Yaml.Loader] (h : LacksIndex v d folder) {records : List Record} :
    ¬Serves v d folder records := by
  intro hserves
  cases hserves with
  | folder => exact nomatch h.folder
  | source hsource => exact nomatch h.source.symm.trans hsource
  | index _ hstatus hstate => exact h.status _ hstatus hstate

theorem isAnswer_of_parse (h : v.parse text = .ok q) (records : List Record) :
    q.IsAnswer records (q.run records) ∧ ((q.run records).labels = none ↔ q.kind = .list) := by
  obtain ⟨bare, hbare, rfl⟩ := map_eq_ok h
  have hanswer := Query.isAnswer_run ((Query.isProper_of_parse hbare).withDefault v.config) records
  obtain ⟨hcolumns, hkind⟩ := bare.columns_withDefault v.config
  refine ⟨hanswer, ?_⟩
  rw [hanswer.labels, Option.map_eq_none_iff, hcolumns, hkind]
  exact Query.columns_of_parse hbare

theorem digits_of_parse {fault : QueryFault} (h : v.parse text = .error fault) (hwording : fault.isSyntax = false) :
    ∃ n, v.parse text = .error (.digits n) ∧ Text.maxDigits < n := by
  have hparse : Query.parse text = .error fault := by
    unfold parse at h
    cases hbare : Query.parse text with
    | error found =>
      rw [hbare] at h
      exact congrArg Except.error (Except.error.inj h)
    | ok q =>
      rw [hbare] at h
      cases h
  obtain ⟨n, rfl, hlt⟩ := Query.lt_of_parse hparse hwording
  exact ⟨n, h, hlt⟩

theorem isOperand_writable {l : Value} (h : Query.IsOperand l) : l.Writable := by
  cases h with
  | int hless =>
    have hbound : Number.tooLarge < 10 ^ Text.maxDigits := by decide +kernel
    exact ⟨Text.isLong_eq_false_iff.mpr (Nat.lt_trans hless hbound), rfl⟩
  | _ => exact ⟨rfl, rfl⟩

theorem answer_of_parse (h : v.parse text = .ok q) {records : List Record}
    (hrecords : ∀ r ∈ records, r.Inherits Value.Writable) : q.answer records = .ok (q.run records) := by
  obtain ⟨bare, hbare, rfl⟩ := map_eq_ok h
  have hsame : (bare.withDefault v.config).conditions = bare.conditions := by
    unfold Query.withDefault
    split <;> rfl
  refine Query.answer_eq_ok.mpr ⟨Query.fault?_eq_none hrecords fun c hc => ?_, rfl⟩
  rw [hsame] at hc
  exact isOperand_writable (Query.conditions_of_parse hbare c hc).comparing.literal

/-! ## The result of a query -/

theorem isReply_of_serves [Yaml.Loader] (hparse : v.parse text = .ok q) {records : List Record}
    (h : Serves v d folder records) : IsReply v d text folder (q.run records) := by
  obtain ⟨hanswer, hlabels⟩ := isAnswer_of_parse hparse records
  refine ⟨Or.inr ⟨q, records, hparse, h, hanswer, hlabels⟩, ?_⟩
  rw [hanswer.needsIndex]
  exact iff_of_false Bool.false_ne_true fun h' => h'.2.not_serves h

theorem isReply_of_lacksIndex [Yaml.Loader] (hparse : v.parse text = .ok q) (h : LacksIndex v d folder) :
    IsReply v d text folder (Result.failure notIndexed (some q) true) where
  result := Or.inl ⟨Result.isFailure_failure (by decide) _ _, fun _ _ _ => h.not_serves⟩
  needsIndex := ⟨fun _ => ⟨⟨q, hparse⟩, h⟩, fun _ => rfl⟩

theorem isReply_of_error [Yaml.Loader] {fault : QueryFault} (hparse : v.parse text = .error fault) :
    IsReply v d text folder (Result.failure ("Syntax error: " ++ fault.message) none false) := by
  have hnone : ∀ q, v.parse text ≠ .ok q := by
    intro q hq
    cases hparse.symm.trans hq
  refine ⟨Or.inl ⟨Result.isFailure_failure (by simp) none false, fun q _ hq => absurd hq (hnone q)⟩, ?_⟩
  refine iff_of_false Bool.false_ne_true ?_
  rintro ⟨⟨q, hq⟩, -⟩
  exact hnone q hq

inductive Ends [Yaml.Loader] (v : Vault) (d : Disk) (text : String) (folder : Option (List String)) :
    Except VaultFault Result → Prop
  | unread {fault : QueryFault} (hparse : v.parse text = .error fault) (hwording : fault.isSyntax = true) :
      Ends v d text folder (.ok (Result.failure ("Syntax error: " ++ fault.message) none false))
  | digits {fault : QueryFault} (hparse : v.parse text = .error fault) (hwording : fault.isSyntax = false) :
      Ends v d text folder (.error (.query fault))
  | served {q : Query} {records : List Record} (hparse : v.parse text = .ok q) (hserves : Serves v d folder records) :
      Ends v d text folder ((q.answer records).mapError .text)
  | unindexed {q : Query} (hparse : v.parse text = .ok q) (hlacks : LacksIndex v d folder) :
      Ends v d text folder (.ok (Result.failure notIndexed (some q) true))
  | unfetched {q : Query} {source : RecordSource} {fault : FetchFault} (hparse : v.parse text = .ok q)
      (hfolder : folder = none) (hsource : v.records = some source) (hfetch : source v.key = .error fault) :
      Ends v d text folder (.ok (Result.failure fault.message (some q) false))

theorem ends_query [Yaml.Loader] (hopen : v.isOpen = true) (hindex : (v.index d).isOpen = true) (text : String)
    (hfolder : ∀ path ∈ folder, ∃ f records, d.files.folderAt? path = some f ∧ (readNotes f.notes).2 = .ok records) :
    Ends v d text folder (v.query text folder d).1 := by
  cases hparse : v.parse text with
  | error fault =>
    rw [query, hparse]
    dsimp only
    cases hwording : fault.isSyntax with
    | true => exact .unread hparse hwording
    | false => exact .digits hparse hwording
  | ok q =>
    -- if nothing serves the query, the index is missing or the source has failed
    by_cases hserves : ∃ records, Serves v d folder records
    · obtain ⟨records, hserves⟩ := hserves
      rw [query_of_serves hopen hindex hparse hserves]
      exact .served hparse hserves
    cases folder with
    | some path =>
      obtain ⟨f, records, hf, hread⟩ := hfolder path rfl
      exact absurd ⟨_, .folder hf hread⟩ hserves
    | none =>
      cases hsource : v.records with
      | none =>
        have hlacks : LacksIndex v d none :=
          ⟨rfl, hsource, fun s hs hstate => hserves ⟨_, .index hsource hs hstate⟩⟩
        rw [query_of_lacksIndex hopen hindex hparse hlacks]
        exact .unindexed hparse hlacks
      | some source =>
        cases hfetch : source v.key with
        | ok records => exact absurd ⟨_, .source hsource hfetch⟩ hserves
        | error fault =>
          have hquery : (v.query text none d).1 = .ok (Result.failure fault.message (some q) false) := by
            rw [query, hparse, hsource]
            dsimp only
            rw [runSource, hfetch]
            rfl
          rw [hquery]
          exact .unfetched hparse rfl hsource hfetch

/-- Every text has a reply, unless an integer in it has too many digits or a record holds a value without a
text. -/
theorem isReply_of_query [Yaml.Loader] (hopen : v.isOpen = true) (hindex : (v.index d).isOpen = true) (text : String)
    (hfolder : ∀ path ∈ folder, ∃ f records, d.files.folderAt? path = some f ∧ (readNotes f.notes).2 = .ok records) :
    (∀ r, (v.query text folder d).1 = .ok r → IsReply v d text folder r) ∧
      ∀ fault, (v.query text folder d).1 = .error fault →
        (∃ n, v.parse text = .error (.digits n) ∧ Text.maxDigits < n) ∨
          ∃ records, Serves v d folder records ∧ ∃ r ∈ records, ¬r.Inherits Value.Writable := by
  have hends := ends_query hopen hindex text hfolder
  generalize (v.query text folder d).1 = outcome at hends
  cases hends with
  | unread hparse =>
    refine ⟨?_, fun _ h => nomatch h⟩
    rintro _ ⟨⟩
    exact isReply_of_error hparse
  | digits hparse hwording =>
    refine ⟨fun _ h => (nomatch h), fun _ _ => Or.inl ?_⟩
    exact digits_of_parse hparse hwording
  | served hparse hserves =>
    refine ⟨fun r hr => ?_, fun fault hfault => Or.inr ⟨_, hserves, ?_⟩⟩
    · obtain ⟨-, rfl⟩ := Query.answer_eq_ok.mp (mapError_eq_ok hr)
      exact isReply_of_serves hparse hserves
    -- records that can all be written have an answer
    · by_contra hwritable
      push Not at hwritable
      rw [answer_of_parse hparse hwritable] at hfault
      cases hfault
  | unindexed hparse hlacks =>
    refine ⟨?_, fun _ h => nomatch h⟩
    rintro _ ⟨⟩
    exact isReply_of_lacksIndex hparse hlacks
  | unfetched hparse hfolder hsource hfetch =>
    have hnot : ∀ records, ¬Serves v d folder records := by
      rintro records hserves
      cases hserves with
      | folder => cases hfolder
      | source hother hfetched =>
        obtain rfl := Option.some.inj (hsource.symm.trans hother)
        cases hfetch.symm.trans hfetched
      | index hnone => cases hnone.symm.trans hsource
    refine ⟨?_, fun _ h => nomatch h⟩
    rintro _ ⟨⟩
    refine ⟨Or.inl ⟨Result.isFailure_failure (FetchFault.message_ne _) _ _, fun _ records _ => hnot records⟩, ?_⟩
    refine iff_of_false Bool.false_ne_true fun h => ?_
    cases h.2.source.symm.trans hsource

end

/-! ## A query without a result -/

def sameText : String := "LIST WHERE m = \"a\""

def sameQuery : Query := { kind := .list, conditions := [⟨"m", .equal, .text "a"⟩] }

theorem parse_sameText : Query.parse sameText = .ok sameQuery := rfl

theorem answer_sameQuery {n : Int} (h : (mapOf n).textFault? = some .digits) :
    sameQuery.answer [recordWith "m" (mapOf n)] = .error .digits := by
  have hcondition : (⟨"m", .equal, .text "a"⟩ : Condition).fault? (recordWith "m" (mapOf n)) =
      (mapOf n).textFault?.or none := rfl
  have hconditions : Query.conditionsFault? [⟨"m", .equal, .text "a"⟩] [recordWith "m" (mapOf n)] = some .digits := by
    rw [Query.conditionsFault?, List.findSome?_cons, hcondition, h]
    rfl
  have hfault : sameQuery.fault? [recordWith "m" (mapOf n)] =
      (Query.conditionsFault? [⟨"m", .equal, .text "a"⟩] [recordWith "m" (mapOf n)]).or none := rfl
  rw [Query.answer, hfault, hconditions]
  rfl

def sourceVault (records : List Record) : Vault := { openVault with records := some (.ofRecords records) }

theorem not_always_isReply : ¬∀ (v : Vault) (d : Disk) (text : String), v.isOpen = true → (v.index d).isOpen = true →
    ∃ r, (v.query text none d).1 = .ok r := by
  intro hall
  obtain ⟨n, hn⟩ := exists_textFault
  obtain ⟨r, hr⟩ := hall (sourceVault [recordWith "m" (mapOf n)]) ⟨[], []⟩ sameText rfl rfl
  have hparse : (sourceVault [recordWith "m" (mapOf n)]).parse sameText = .ok sameQuery := by
    rw [parse, parse_sameText]
    rfl
  have hserves : Serves (sourceVault [recordWith "m" (mapOf n)]) ⟨[], []⟩ none [recordWith "m" (mapOf n)] :=
    .source rfl rfl
  rw [query_of_serves rfl rfl hparse hserves, answer_sameQuery hn] at hr
  cases hr

/-! ## Results of one vault -/

def byStateText : String := "LIST GROUP BY state LIMIT 2"

/-- A vault whose source fails without saying why. -/
def silentVault : Vault := { openVault with records := some fun _ => .error ⟨"RuntimeError", "", by decide⟩ }

theorem readNotes_statedNote :
    ∃ records, (readNotes (Folder.notes [("a.md", .file statedNote)])).2 = .ok records := by
  obtain ⟨records, hrecords, -⟩ := exists_of_toOption_map (f := fun _ => ()) (b := ())
    (x := (readNotes [("a.md", statedNote)]).2) (by decide +kernel)
  rw [notes_single]
  exact ⟨records, hrecords⟩

theorem isReply_byState : openVault.isOpen = true ∧ (openVault.index oldIndexed).isOpen = true ∧
    (∃ q : Query, ∃ r records, (openVault.query byStateText (some ["new"]) oldIndexed).1 = .ok r ∧
      q.groupBy = some "state" ∧ q.IsAnswer records r ∧ r.labels = none) ∧
    ∃ r, (silentVault.query byStateText none oldIndexed).1 = .ok r ∧ r.IsFailure ∧ r.outcome.needsIndex = false := by
  have hindex := reached_oldIndexed.isOpen
  obtain ⟨read, hread⟩ := readNotes_statedNote
  obtain ⟨q, hq, hshape⟩ := exists_of_toOption_map (x := openVault.parse byStateText)
    (f := fun q => (q.groupBy, q.kind)) (b := (some "state", .list)) (by decide +kernel)
  obtain ⟨hgroupBy, hkind⟩ := Prod.mk.inj hshape
  refine ⟨rfl, hindex, ?_, ?_⟩
  · obtain ⟨r, hr, -⟩ := exists_of_toOption_map (x := (openVault.query byStateText (some ["new"]) oldIndexed).1)
      (f := fun _ => ()) (b := ()) (by decide +kernel)
    have hreply : IsReply openVault oldIndexed byStateText (some ["new"]) r := by
      refine (isReply_of_query rfl hindex byStateText fun path hpath => ?_).1 r hr
      obtain rfl := Option.some.inj hpath
      exact ⟨_, read, folderAt?_oldIndexed, hread⟩
    rcases hreply.result with ⟨-, hnot⟩ | ⟨q', records, hq', -, hanswer, hlabels⟩
    · exact absurd (Serves.folder folderAt?_oldIndexed hread) (hnot q _ hq)
    · obtain rfl := Except.ok.inj (hq.symm.trans hq')
      exact ⟨q, r, records, hr, hgroupBy, hanswer, hlabels.mpr hkind⟩
  · have hsilent : (silentVault.index oldIndexed).isOpen = true := hindex
    have hquery : (silentVault.query byStateText none oldIndexed).1 =
        .ok (Result.failure "RuntimeError" (some q) false) := by
      rw [query, show silentVault.parse byStateText = .ok q from hq]
      rfl
    have hreply : IsReply silentVault oldIndexed byStateText none _ :=
      (isReply_of_query rfl hsilent byStateText fun path hpath => by cases hpath).1 _ hquery
    refine ⟨_, hquery, ?_, rfl⟩
    rcases hreply.result with ⟨hfailure, -⟩ | ⟨_, _, _, hserves, -⟩
    · exact hfailure
    · cases hserves with
      | source hsource hfetch =>
        obtain rfl := Option.some.inj hsource
        cases hfetch
      | index hsource => cases hsource

end Vault

end NoteQuery

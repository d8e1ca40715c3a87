import NoteQuery.Proofs.Note.FrontMatter
import NoteQuery.Proofs.Value.Native

/-!
# Keys of front matter

No map that is read from YAML has one key twice, at any depth, and neither has the front matter of a
note.
-/

namespace NoteQuery

open Value (Keyed keyedItems_iff)

namespace Yaml

/-! ## Scalars -/

theorem keyed_timeParts {parts : TimeParts} {v : Value} (h : parts.value = .ok v) : Keyed v := by
  rw [TimeParts.value] at h
  split at h
  · obtain ⟨date, -, h⟩ := bind_eq_ok h
    obtain rfl := Except.ok.inj h
    trivial
  · obtain ⟨offset, -, h⟩ := bind_eq_ok h
    obtain ⟨date, -, h⟩ := bind_eq_ok h
    obtain ⟨clock, -, h⟩ := bind_eq_ok h
    obtain rfl := Except.ok.inj h
    trivial

theorem keyed_timeValue {text : List Char} {v : Value} (h : timeValue text = .ok v) : Keyed v := by
  rw [timeValue] at h
  generalize timeParts? _ = parts at h
  cases parts with
  | none => cases h
  | some parts => exact keyed_timeParts (mapError_eq_ok h)

theorem keyed_binaryValue {text : List Char} {mark : Mark} {v : Value} (h : binaryValue text mark = .ok v) :
    Keyed v := by
  rw [binaryValue] at h
  split at h
  · split at h
    · obtain rfl := Except.ok.inj h
      trivial
    · cases h
  · cases h

theorem keyed_scalarValue {tag : Tag} {text : List Char} {mark : Mark} {v : Value}
    (h : scalarValue tag text mark = .ok v) : Keyed v := by
  unfold scalarValue at h
  split at h
  · obtain rfl := Except.ok.inj h
    trivial
  · obtain ⟨b, -, rfl⟩ := map_eq_ok (mapError_eq_ok h)
    trivial
  · obtain ⟨n, -, rfl⟩ := map_eq_ok (mapError_eq_ok h)
    trivial
  · obtain ⟨x, -, rfl⟩ := map_eq_ok (mapError_eq_ok h)
    trivial
  · exact keyed_timeValue (mapError_eq_ok h)
  · exact keyed_binaryValue h
  · obtain rfl := Except.ok.inj h
    trivial

/-! ## Collections -/

theorem keyed_of_draft {fuel : Nat} {node : Node} {v : Value} (h : node.draft fuel = .ok (.value v)) : Keyed v := by
  unfold Node.draft at h
  split at h
  · obtain rfl := Draft.value.inj (Except.ok.inj h)
    trivial
  · cases h
  · split at h
    case h_1 | h_2 | h_3 | h_4 | h_5 => cases h
    case h_6 | h_7 | h_8 => cases h
    obtain ⟨text, -, h⟩ := bind_eq_ok h
    obtain ⟨w, hw, h⟩ := bind_eq_ok h
    obtain rfl := Draft.value.inj (Except.ok.inj h)
    exact keyed_scalarValue hw

/-- A draft whose value is keyed, if it is not built later. -/
def DraftKeyed (draft : Draft) : Prop := ∀ v, draft = .value v → Keyed v

theorem draftKeyed_of_draft {fuel : Nat} {node : Node} {draft : Draft} (h : node.draft fuel = .ok draft) :
    DraftKeyed draft := by
  rintro v rfl
  exact keyed_of_draft h

theorem draftKeyed_of_sequence {fuel : Nat} {node : Node} {drafts : List Draft}
    (h : sequenceDrafts fuel node = .ok drafts) : ∀ draft ∈ drafts, DraftKeyed draft := by
  intro draft hdraft
  unfold sequenceDrafts at h
  split at h
  · obtain ⟨item, -, hitem⟩ := exists_of_mapM h draft hdraft
    exact draftKeyed_of_draft hitem
  · cases h

theorem draftKeyed_of_mapping {fuel : Nat} {node : Node} {drafts : List (Value × Draft)}
    (h : mappingDrafts fuel node = .ok drafts) : ∀ draft ∈ drafts, DraftKeyed draft.2 := by
  intro draft hdraft
  unfold mappingDrafts at h
  split at h
  · obtain ⟨merged, -, h⟩ := bind_eq_ok h
    obtain ⟨entry, -, hentry⟩ := exists_of_mapM h draft hdraft
    obtain ⟨key, -, hentry⟩ := bind_eq_ok hentry
    obtain ⟨value, hvalue, hentry⟩ := bind_eq_ok hentry
    obtain rfl := Except.ok.inj hentry
    exact draftKeyed_of_draft hvalue
  · cases h

theorem draftKeyed_of_pairs {fuel : Nat} {activity : Activity} {node : Node} {drafts : List (Draft × Draft)}
    (h : pairDrafts fuel activity node = .ok drafts) :
    ∀ draft ∈ drafts, DraftKeyed draft.1 ∧ DraftKeyed draft.2 := by
  intro draft hdraft
  unfold pairDrafts at h
  split at h
  · obtain ⟨item, -, hitem⟩ := exists_of_mapM h draft hdraft
    dsimp only at hitem
    split at hitem
    · obtain ⟨key, hkey, hitem⟩ := bind_eq_ok hitem
      obtain ⟨value, hvalue, hitem⟩ := bind_eq_ok hitem
      obtain rfl := Except.ok.inj hitem
      exact ⟨draftKeyed_of_draft hkey, draftKeyed_of_draft hvalue⟩
    · cases hitem
    · cases hitem
  · cases h

theorem both_eq_ok {α β : Type} {a : Built α} {b : Built β} {pair : α × β} (h : both a b = .ok pair) :
    a = .ok pair.1 ∧ b = .ok pair.2 := by
  unfold both at h
  split at h
  · obtain rfl := Except.ok.inj h
    exact ⟨rfl, rfl⟩
  all_goals cases h

theorem mem_of_all {α : Type} : ∀ {bs : List (Built α)} {values : List α}, all bs = .ok values →
    ∀ v ∈ values, Except.ok v ∈ bs
  | [], values, h, v, hv => by
    obtain rfl := Except.ok.inj h
    cases hv
  | b :: bs, values, h, v, hv => by
    rw [all] at h
    obtain ⟨pair, hpair, rfl⟩ := map_eq_ok h
    obtain ⟨hfirst, hrest⟩ := both_eq_ok hpair
    rcases List.mem_cons.mp hv with rfl | hv
    · exact hfirst ▸ List.mem_cons_self
    · exact List.mem_cons_of_mem _ (mem_of_all hrest v hv)

section Finish

variable {finish : Draft → Built Value} (hfinish : ∀ draft, DraftKeyed draft → ∀ v, finish draft = .ok v → Keyed v)
include hfinish

theorem keyed_sequence {fuel depth : Nat} {node : Node} {v : Value}
    (h : (do
      let drafts ← atDepth depth (sequenceDrafts fuel node)
      return .seq (← all (drafts.map finish))) = Except.ok v) : Keyed v := by
  obtain ⟨drafts, hdrafts, h⟩ := bind_eq_ok h
  obtain ⟨values, hvalues, h⟩ := bind_eq_ok h
  obtain rfl := Except.ok.inj h
  rw [Keyed, keyedItems_iff]
  intro value hvalue
  obtain ⟨draft, hdraft, heq⟩ := List.mem_map.mp (mem_of_all hvalues value hvalue)
  exact hfinish draft (draftKeyed_of_sequence (mapError_eq_ok hdrafts) draft hdraft) value heq

theorem keyed_pairs {fuel depth : Nat} {activity : Activity} {node : Node} {v : Value}
    (h : (do
      let drafts ← atDepth depth (pairDrafts fuel activity node)
      let items ← all (drafts.map fun (k, v) => both (finish k) (finish v))
      return .seq (items.map fun (k, v) => @Value.list true [k, v])) = Except.ok v) : Keyed v := by
  obtain ⟨drafts, hdrafts, h⟩ := bind_eq_ok h
  obtain ⟨items, hitems, h⟩ := bind_eq_ok h
  obtain rfl := Except.ok.inj h
  rw [Keyed, keyedItems_iff]
  intro value hvalue
  obtain ⟨item, hitem, rfl⟩ := List.mem_map.mp hvalue
  obtain ⟨draft, hdraft, heq⟩ := List.mem_map.mp (mem_of_all hitems item hitem)
  obtain ⟨hkey, hvalue⟩ := both_eq_ok heq
  obtain ⟨hkeyDraft, hvalueDraft⟩ := draftKeyed_of_pairs (mapError_eq_ok hdrafts) draft hdraft
  rw [Keyed, keyedItems_iff, List.forall_mem_cons, List.forall_mem_singleton]
  exact ⟨hfinish draft.1 hkeyDraft item.1 hkey, hfinish draft.2 hvalueDraft item.2 hvalue⟩

theorem keyed_mapping {fuel depth : Nat} {node : Node} {isSet : Bool} {v : Value}
    (h : (do
      let drafts ← atDepth depth (mappingDrafts fuel node)
      let values ← all (drafts.map fun (_, draft) => finish draft)
      let entries := Entries.ofList ((drafts.map (·.1)).zip values)
      return if isSet then .set (entries.map (·.1)) else .map entries) = Except.ok v) : Keyed v := by
  obtain ⟨drafts, hdrafts, h⟩ := bind_eq_ok h
  obtain ⟨values, hvalues, h⟩ := bind_eq_ok h
  obtain rfl := Except.ok.inj h
  split
  · trivial
  · rw [Keyed]
    refine Entries.keyedEntries_ofList fun entry hentry => ?_
    have hvalue := (List.of_mem_zip hentry).2
    obtain ⟨draft, hdraft, heq⟩ := List.mem_map.mp (mem_of_all hvalues entry.2 hvalue)
    exact hfinish draft.2 (draftKeyed_of_mapping (mapError_eq_ok hdrafts) draft hdraft) entry.2 heq

end Finish

def finishAt (fuel depth : Nat) : Draft → Built Value
  | .value v => .ok v
  | .later inner => build fuel (depth + 1) inner

theorem keyed_build : ∀ (fuel depth : Nat) {node : Node} {v : Value}, build fuel depth node = .ok v → Keyed v
  | 0, _, _, _, h => by
    obtain rfl := Except.ok.inj h
    trivial
  | fuel + 1, depth, node, v, h => by
    have hfinish : ∀ draft, DraftKeyed draft → ∀ v, finishAt fuel depth draft = .ok v → Keyed v := by
      intro draft hdraft v hv
      cases draft with
      | value w =>
        obtain rfl := Except.ok.inj hv
        exact hdraft w rfl
      | later inner => exact keyed_build fuel (depth + 1) hv
    rw [build] at h
    split at h
    · exact keyed_sequence hfinish h
    · exact keyed_pairs hfinish h
    · exact keyed_pairs hfinish h
    · exact keyed_mapping hfinish h

theorem keyed_toValue {node : Node} {v : Value} (h : node.toValue = .ok v) : Keyed v := by
  rw [Node.toValue] at h
  obtain ⟨draft, hdraft, h⟩ := bind_eq_ok h
  cases draft with
  | value w =>
    obtain rfl := Except.ok.inj h
    exact keyed_of_draft hdraft
  | later inner => exact keyed_build _ _ (mapError_eq_ok h)

theorem keyed_read {text : List Char} {v : Value} (h : read text = .ok v) : Keyed v := by
  rw [read] at h
  obtain ⟨node, -, h⟩ := bind_eq_ok h
  cases node with
  | none =>
    obtain rfl := Except.ok.inj h
    trivial
  | some node => exact keyed_toValue h

def LoadsKeyed [Loader] : Prop := ∀ block v, load block = .ok v → Keyed v

theorem loadsKeyed_standard : @LoadsKeyed standard := fun _ _ => keyed_read

end Yaml

namespace Note

theorem keyed_blockEntries [Yaml.Loader] (hload : Yaml.LoadsKeyed) {block : Option (List Char)} {entries : Entries}
    (h : blockEntries block = .ok entries) : Value.KeyedEntries entries := by
  cases block with
  | none =>
    obtain rfl := Except.ok.inj h
    trivial
  | some yaml =>
    obtain ⟨v, hv, h⟩ := bind_eq_ok h
    have hkeyed := hload yaml v (mapError_eq_ok hv)
    cases v with
    | map read =>
      obtain ⟨-, rfl⟩ := entriesOf_eq_ok_iff.mp h
      rw [Keyed] at hkeyed
      refine Entries.keyedEntries_ofList fun entry hentry => ?_
      obtain ⟨old, hold, rfl⟩ := List.mem_map.mp hentry
      exact (Value.keyedEntries_iff.mp hkeyed).2 old hold
    | _ =>
      obtain rfl := Except.ok.inj h
      trivial

theorem keyed_of_toRecord [Yaml.Loader] (hload : Yaml.LoadsKeyed) {path : String} {content : List UInt8} {r : Record}
    (h : toRecord path content = .ok r) : Value.KeyedEntries r.frontMatter := by
  obtain ⟨text, body, -, hread, -⟩ := exists_of_toRecord h
  rw [frontMatter_eq] at hread
  obtain ⟨entries, hentries, heq⟩ := map_eq_ok hread
  rw [← (Prod.mk.inj heq).1]
  exact keyed_blockEntries hload hentries

end Note

end NoteQuery

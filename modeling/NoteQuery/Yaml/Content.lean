import NoteQuery.Yaml.Loader
import NoteQuery.Yaml.Scalars

/-!
# The value of a document

Builds values from nodes, outer collections first: of several faults the one nearest to the
root counts, and on one level the first.
-/

namespace NoteQuery.Yaml

abbrev NodeEntries := List (Node × Node)

/-! ## Merging -/

def mergeItem (start : Mark) (entriesOf : Mark → NodeEntries → Except Fault NodeEntries) :
    Node → Except Fault NodeEntries
  | .mapping _ entries m => entriesOf m entries
  | .enclosing true _ => .ok []
  | other => .error (.marked (some (.mapping, some start)) (.badMerges other.shape) other.start)

/-- What a merged node adds: the entries of a mapping, or those of several, the last first. -/
def mergePart (start : Mark) (entriesOf : Mark → NodeEntries → Except Fault NodeEntries) :
    Node → Except Fault NodeEntries
  | .mapping _ entries m => entriesOf m entries
  | .enclosing true _ => .ok []
  | .sequence _ items _ => do return (← items.mapM (mergeItem start entriesOf)).reverse.flatten
  | other => .error (.marked (some (.mapping, some start)) (.badMerge other.shape) other.start)

def isMerge (entry : Node × Node) : Bool := entry.1.tag? == some .merge

/-- The key of the default value is an ordinary text. -/
def plainKey : Node → Node
  | .scalar .value text m => .scalar .str text m
  | .sequence .value items m => .sequence .str items m
  | .mapping .value entries m => .mapping .str entries m
  | key => key

/-- The entries of a mapping after its merges. Those merged in come first, so that its own
replace them. -/
def mergedEntries : Nat → Mark → NodeEntries → Except Fault NodeEntries
  | 0, _, entries => .ok entries
  | fuel + 1, start, entries => do
    let merged ← (entries.filter isMerge).mapM fun entry => mergePart start (mergedEntries fuel) entry.2
    return merged.flatten ++ (entries.filter (!isMerge ·)).map fun entry => (plainKey entry.1, entry.2)

/-! ## Building -/

/-- A value, or a collection whose contents are built after those of the ones around it. -/
inductive Draft
  | value (v : Value)
  | later (node : Node)

def Node.draft (fuel : Nat) (node : Node) : Except Fault Draft :=
  match node, node.tag? with
  | .enclosing isMapping _, _ => .ok (.value (.loop isMapping))
  | _, none => .ok (.later node)
  | _, some tag =>
    match tag with
    | .seq | .map | .set | .omap | .pairs => .ok (.later node)
    | .merge | .value | .other _ => .error (.marked none (.noConstructor tag.uri) node.start)
    | _ => do
      let text ← node.scalarText fuel
      return .value (← scalarValue tag text node.start)

def keyValue (fuel : Nat) (start : Mark) (key : Node) : Except Fault Value := do
  match ← key.draft fuel with
  | .value (.loop _) | .later _ => throw (.marked (some (.mapping, some start)) .unhashableKey key.start)
  | .value v => return v

def mappingDrafts (fuel : Nat) (node : Node) : Except Fault (List (Value × Draft)) :=
  match node with
  | .mapping _ entries start => do
    let entries ← mergedEntries fuel start entries
    entries.mapM fun (key, value) => do return (← keyValue fuel start key, ← value.draft fuel)
  | _ => .error (.marked none (.notMapping node.shape) node.start)

def sequenceDrafts (fuel : Nat) (node : Node) : Except Fault (List Draft) :=
  match node with
  | .sequence _ items _ => items.mapM (·.draft fuel)
  | _ => .error (.marked none (.notSequence node.shape) node.start)

def pairDrafts (fuel : Nat) (activity : Activity) (node : Node) : Except Fault (List (Draft × Draft)) :=
  let fail {α : Type} (problem : Problem) (mark : Mark) : Except Fault α :=
    .error (.marked (some (activity, some node.start)) problem mark)
  match node with
  | .sequence _ items _ =>
    items.mapM fun item =>
      match item with
      | .mapping _ [(key, value)] _ => do return (← key.draft fuel, ← value.draft fuel)
      | .mapping _ entries m => fail (.notSingle entries.length) m
      | other => fail (.notMappingHere other.shape) other.start
  | _ => fail (.notSequenceHere node.shape) node.start

/-- What was built, or the fault that counts with its depth. -/
abbrev Built (α : Type) := Except (Nat × Fault) α

/-- Both, or of two faults the one of less depth. -/
def both {α β : Type} : Built α → Built β → Built (α × β)
  | .ok a, .ok b => .ok (a, b)
  | .error e, .ok _ => .error e
  | .ok _, .error e => .error e
  | .error (m, f), .error (n, g) => .error (if n < m then (n, g) else (m, f))

def all {α : Type} : List (Built α) → Built (List α)
  | [] => .ok []
  | b :: bs => (both b (all bs)).map fun (v, vs) => v :: vs

def atDepth {α : Type} (depth : Nat) (result : Except Fault α) : Built α :=
  result.mapError fun fault => (depth, fault)

def build : (fuel depth : Nat) → Node → Built Value
  | 0, _, _ => .ok .null
  | fuel + 1, depth, node => do
    let finish : Draft → Built Value
      | .value v => .ok v
      | .later inner => build fuel (depth + 1) inner
    let pairs (activity : Activity) : Built Value := do
      let drafts ← atDepth depth (pairDrafts fuel activity node)
      let items ← all (drafts.map fun (k, v) => both (finish k) (finish v))
      return .seq (items.map fun (k, v) => @Value.list true [k, v])
    match node.tag? with
    | some .seq =>
      let drafts ← atDepth depth (sequenceDrafts fuel node)
      return .seq (← all (drafts.map finish))
    | some .omap => pairs .orderedMap
    | some .pairs => pairs .pairs
    | tag =>
      let drafts ← atDepth depth (mappingDrafts fuel node)
      let values ← all (drafts.map fun (_, draft) => finish draft)
      let entries := Entries.ofList ((drafts.map (·.1)).zip values)
      return if tag == some .set then .set (entries.map (·.1)) else .map entries

mutual

def Node.height : Node → Nat
  | .sequence _ items _ => heightOfItems items + 1
  | .mapping _ entries _ => heightOfEntries entries + 1
  | _ => 1

def heightOfItems : List Node → Nat
  | [] => 0
  | item :: items => max item.height (heightOfItems items)

def heightOfEntries : List (Node × Node) → Nat
  | [] => 0
  | (key, value) :: entries => max (max key.height value.height) (heightOfEntries entries)

end

def Node.toValue (node : Node) : Except Fault Value := do
  match ← node.draft node.height with
  | .value v => return v
  | .later _ => (build (node.height + 1) 0 node).mapError (·.2)

/-- The value of the only document of a text; null if it is empty. -/
def read (text : List Char) : Except Fault Value := do
  match ← Node.ofText? text with
  | none => return .null
  | some node => node.toValue

instance standard : Loader := ⟨read⟩

end NoteQuery.Yaml

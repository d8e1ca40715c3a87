import NoteQuery.Yaml.Tag
import NoteQuery.Yaml.Tokens

/-!
# The node of a document

Reads the tokens of a text as a tree of tagged nodes. An alias stands for the node that its
anchor names; one inside that very node closes a loop.
-/

namespace NoteQuery.Yaml

inductive Node
  | scalar (tag : Tag) (text : List Char) (start : Mark)
  | sequence (tag : Tag) (items : List Node) (start : Mark)
  | mapping (tag : Tag) (entries : List (Node × Node)) (start : Mark)
  | enclosing (isMapping : Bool) (start : Mark)
  deriving Inhabited

namespace Node

def start : Node → Mark
  | .scalar _ _ m | .sequence _ _ m | .mapping _ _ m | .enclosing _ m => m

def tag? : Node → Option Tag
  | .scalar tag _ _ | .sequence tag _ _ | .mapping tag _ _ => some tag
  | .enclosing _ _ => none

def shape : Node → String
  | .scalar _ _ _ => "scalar"
  | .sequence _ _ _ | .enclosing false _ => "sequence"
  | .mapping _ _ _ | .enclosing true _ => "mapping"

end Node

/-- What is left to read, and the tag handles and anchors met so far. -/
structure Reader where
  tokens : List Token
  beyond : Fault
  handles : List (String × String)
  anchors : List (String × Node)

abbrev Read := StateT Reader (Except Fault)

namespace Read

def peek : Read Token := do
  let r ← get
  match r.tokens with
  | [] => throw r.beyond
  | t :: _ => return t

def advance : Read Unit := modify fun r => { r with tokens := r.tokens.drop 1 }

def fail {α : Type} (activity : Activity) (start : Mark) (problem : Problem) (mark : Mark) : Read α :=
  throw (.marked (some (activity, some start)) problem mark)

def commonHandles : List (String × String) := [("!", "!"), ("!!", Tag.space)]

def empty (m : Mark) : Node := .scalar .null [] m

/-! ## Properties and anchors -/

/-- The anchor and the tag before a node, in either order, and where they begin. -/
structure Properties where
  anchor : Option String
  tag : Option (Option String × String)
  start : Option Mark
  tagStart : Mark

def anchor? : Read (Option (String × Mark)) := do
  let t ← peek
  match t.kind with
  | .anchor name => do advance; return some (name, t.start)
  | _ => return none

def tag? : Read (Option ((Option String × String) × Mark)) := do
  let t ← peek
  match t.kind with
  | .tag handle suffix => do advance; return some ((handle, suffix), t.start)
  | _ => return none

def properties : Read Properties := do
  match ← anchor? with
  | some (name, start) =>
    match ← tag? with
    | some (tag, tagStart) => return ⟨some name, some tag, some start, tagStart⟩
    | none => return ⟨some name, none, some start, start⟩
  | none =>
    match ← tag? with
    | some (tag, start) =>
      let anchor ← anchor?
      return ⟨anchor.map (·.1), some tag, some start, start⟩
    | none => return ⟨none, none, none, ⟨0, 0, 0⟩⟩

def tagUri (p : Properties) : Read (Option String) := do
  match p.tag with
  | none => return none
  | some (none, suffix) => return if suffix == "!" then none else some suffix
  | some (some handle, suffix) =>
    match ((← get).handles.find? (·.1 == handle)) with
    | some (_, tagStart) => return some (tagStart ++ suffix)
    | none => fail .node (p.start.getD p.tagStart) (.undefinedHandle handle) p.tagStart

def checkAnchor (anchor : Option String) (start : Mark) : Read Unit := do
  match anchor with
  | none => return ()
  | some name =>
    match (← get).anchors.find? (·.1 == name) with
    | none => return ()
    | some (_, node) => fail (.firstAnchor name) node.start .secondAnchor start

def bindAnchor (anchor : Option String) (node : Node) : Read Unit :=
  match anchor with
  | none => return ()
  | some name => modify fun r => { r with anchors := (name, node) :: r.anchors.filter (·.1 != name) }

def aliased (name : String) (mark : Mark) : Read Node := do
  match (← get).anchors.find? (·.1 == name) with
  | some (_, node) => return node
  | none => throw (.marked none (.undefinedAlias name) mark)

def anchored (anchor : Option String) (isMapping : Bool) (start : Mark) (read : Read Node) : Read Node := do
  checkAnchor anchor start
  bindAnchor anchor (.enclosing isMapping start)
  let node ← read
  bindAnchor anchor node
  return node

/-! ## Nodes -/

/-- Where a node stands: in a block, as a value of a mapping in a block, or in a flow collection. -/
inductive Place
  | block
  | blockValue
  | flow
  deriving DecidableEq

def Place.activity : Place → Activity
  | .flow => .flowNode
  | _ => .blockNode

mutual

def node : Nat → Place → Read Node
  | 0, _ => do throw (← get).beyond
  | fuel + 1, place => do
    let first ← peek
    match first.kind with
    | .reference name => do advance; aliased name first.start
    | _ =>
      let p ← properties
      let uri ← tagUri p
      let t ← peek
      let start := p.start.getD t.start
      let tagged (default : Tag) : Tag := (uri.map Tag.ofUri).getD default
      let sequence (items : Read (List Node)) : Read Node :=
        anchored p.anchor false start (do return .sequence (tagged .seq) (← items) start)
      let mapping (entries : Read (List (Node × Node))) : Read Node :=
        anchored p.anchor true start (do return .mapping (tagged .map) (← entries) start)
      let scalar (text : List Char) (plain : Bool) : Read Node := do
        checkAnchor p.anchor start
        let node := .scalar (tagged (if plain || p.tag.isSome then Tag.ofPlain text else .str)) text start
        bindAnchor p.anchor node
        return node
      match t.kind, place with
      -- as the value of a key, a sequence may stand where the key does
      | .blockEntry, .blockValue => sequence (indentlessItems fuel)
      | .scalar text plain, _ => do advance; scalar text plain
      | .flowSequenceStart, _ => sequence (do advance; flowItems fuel t.start true)
      | .flowMappingStart, _ => mapping (do advance; flowEntries fuel t.start true)
      | .blockSequenceStart, .block | .blockSequenceStart, .blockValue =>
        sequence (do advance; blockItems fuel t.start)
      | .blockMappingStart, .block | .blockMappingStart, .blockValue =>
        mapping (do advance; blockEntries fuel t.start)
      | kind, _ =>
        -- an anchor or a tag with nothing behind it belongs to an empty scalar
        if p.anchor.isSome || p.tag.isSome then scalar [] true
        else fail place.activity start (.noContent kind.name) t.start

def blockItems : Nat → Mark → Read (List Node)
  | 0, _ => do throw (← get).beyond
  | fuel + 1, start => do
    let t ← peek
    match t.kind with
    | .blockEntry =>
      advance
      let item ←
        (match (← peek).kind with
        | .blockEntry | .blockEnd => return empty t.finish
        | _ => node fuel .block : Read Node)
      return item :: (← blockItems fuel start)
    | .blockEnd => do advance; return []
    | kind => fail .blockCollection start (.noBlockEnd kind.name) t.start

/-- The items of a sequence that is indented no deeper than the mapping around it. -/
def indentlessItems : Nat → Read (List Node)
  | 0 => do throw (← get).beyond
  | fuel + 1 => do
    let t ← peek
    match t.kind with
    | .blockEntry =>
      advance
      let item ←
        (match (← peek).kind with
        | .blockEntry | .key | .value | .blockEnd => return empty t.finish
        | _ => node fuel .block : Read Node)
      return item :: (← indentlessItems fuel)
    | _ => return []

def blockEntries : Nat → Mark → Read (List (Node × Node))
  | 0, _ => do throw (← get).beyond
  | fuel + 1, start => do
    let t ← peek
    let part (after : Mark) : Read Node := do
      match (← peek).kind with
      | .key | .value | .blockEnd => return empty after
      | _ => node fuel .blockValue
    let value : Read Node := do
      let t ← peek
      match t.kind with
      | .value => do advance; part t.finish
      | _ => return empty t.start
    match t.kind with
    | .key =>
      advance
      let k ← part t.finish
      let v ← value
      return (k, v) :: (← blockEntries fuel start)
    | .blockEnd => do advance; return []
    | kind => fail .blockMapping start (.noBlockEnd kind.name) t.start

/-- The items of a flow sequence up to its end; a key among them begins a mapping of one entry. -/
def flowItems : Nat → Mark → (first : Bool) → Read (List Node)
  | 0, _, _ => do throw (← get).beyond
  | fuel + 1, start, first => do
    let t ← peek
    let part (after : Mark) : Read Node := do
      match (← peek).kind with
      | .value | .flowEntry | .flowSequenceEnd => return empty after
      | _ => node fuel .flow
    let value : Read Node := do
      let t ← peek
      match t.kind with
      | .value =>
        advance
        match (← peek).kind with
        | .flowEntry | .flowSequenceEnd => return empty t.finish
        | _ => node fuel .flow
      | _ => return empty t.start
    if t.kind matches .flowSequenceEnd then
      advance
      return []
    else
      if !first then
        if t.kind matches .flowEntry then advance
        else fail .flowSequence start (.noSequenceEnd t.kind.name) t.start
      let t ← peek
      match t.kind with
      | .key =>
        advance
        let k ← part t.finish
        let v ← value
        -- a pair between the items is a mapping by itself
        return .mapping .map [(k, v)] t.start :: (← flowItems fuel start false)
      | .flowSequenceEnd => do advance; return []
      | _ =>
        let item ← node fuel .flow
        return item :: (← flowItems fuel start false)

def flowEntries : Nat → Mark → (first : Bool) → Read (List (Node × Node))
  | 0, _, _ => do throw (← get).beyond
  | fuel + 1, start, first => do
    let t ← peek
    let value : Read Node := do
      let t ← peek
      match t.kind with
      | .value =>
        advance
        match (← peek).kind with
        | .flowEntry | .flowMappingEnd => return empty t.finish
        | _ => node fuel .flow
      | _ => return empty t.start
    if t.kind matches .flowMappingEnd then
      advance
      return []
    else
      if !first then
        if t.kind matches .flowEntry then advance
        else fail .flowMapping start (.noMappingEnd t.kind.name) t.start
      let t ← peek
      match t.kind with
      | .key =>
        advance
        let k ←
          (match (← peek).kind with
          | .value | .flowEntry | .flowMappingEnd => return empty t.finish
          | _ => node fuel .flow : Read Node)
        let v ← value
        return (k, v) :: (← flowEntries fuel start false)
      | .flowMappingEnd => do advance; return []
      | _ =>
        -- a key by itself has an empty value
        let k ← node fuel .flow
        let after ← peek
        return (k, empty after.start) :: (← flowEntries fuel start false)

end

/-! ## Documents -/

def directives : Nat → (version : Bool) → (handles : List (String × String)) → Read Unit
  | 0, _, _ => do throw (← get).beyond
  | fuel + 1, version, handles => do
    let t ← peek
    match t.kind with
    | .version major =>
      advance
      if version then throw (.marked none .duplicateVersion t.start)
      if major ≠ 1 then throw (.marked none .incompatibleVersion t.start)
      directives fuel true handles
    | .tagHandle handle start =>
      advance
      if handles.any (·.1 == handle) then throw (.marked none (.duplicateHandle handle) t.start)
      directives fuel version (handles ++ [(handle, start)])
    | .directive => do advance; directives fuel version handles
    | _ => modify fun r => { r with handles := handles ++ commonHandles }

def skipDocumentEnds : Nat → Read Unit
  | 0 => return ()
  | fuel + 1 => do
    if (← peek).kind matches .documentEnd then
      advance
      skipDocumentEnds fuel

def documentStart (fuel : Nat) : Read Unit := do
  directives fuel false []
  let t ← peek
  match t.kind with
  | .documentStart => advance
  | kind => throw (.marked none (.noDocumentStart kind.name) t.start)

def documentContent (fuel : Nat) : Read Node := do
  let t ← peek
  match t.kind with
  | .version _ | .tagHandle _ _ | .directive | .documentStart | .documentEnd | .streamEnd =>
    return empty t.start
  | _ => node fuel .block

def firstDocument (fuel : Nat) : Read (Option Node) := do
  match (← peek).kind with
  | .streamEnd => return none
  | .version _ | .tagHandle _ _ | .directive | .documentStart =>
    documentStart fuel
    return some (← documentContent fuel)
  | _ =>
    modify fun r => { r with handles := commonHandles }
    return some (← node fuel .block)

def singleDocument (fuel : Nat) : Read (Option Node) := do
  match ← firstDocument fuel with
  | none => return none
  | some root =>
    skipDocumentEnds fuel
    let t ← peek
    match t.kind with
    | .streamEnd => return some root
    | _ =>
      documentStart fuel
      fail .singleDocument root.start .anotherDocument t.start

end Read

def Node.ofText? (text : List Char) : Except Fault (Option Node) :=
  match text.findIdx? (!isAllowed ·) with
  | some position => .error (.unprintable position (text.getD position ' '))
  | none =>
    let tokens := Tokens.ofText text
    (Read.singleDocument (4 * tokens.list.length + 4)
      ⟨tokens.list, tokens.beyond, [], []⟩).map (·.1)

end NoteQuery.Yaml

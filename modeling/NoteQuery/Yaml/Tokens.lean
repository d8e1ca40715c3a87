import NoteQuery.Yaml.Scalar
import NoteQuery.Yaml.Token

/-!
# The tokens of a text

Cuts a text into tokens. Indentation opens and closes blocks, and a colon turns what stands
before it on its line into a key, so that tokens are also put in before earlier ones.
-/

namespace NoteQuery.Yaml

/-- A token that a colon after it would make a key. -/
structure PossibleKey where
  level : Nat
  /-- Its place among the tokens. -/
  number : Nat
  /-- Nothing else than a key can stand here. -/
  required : Bool
  mark : Mark

/-- The state of cutting: the tokens so far, the number of open flow collections, the
indentation of the block at hand and of those around it, and whether a key may begin here. -/
structure Scan where
  cursor : Cursor
  tokens : Array Token
  level : Nat
  indent : Int
  outer : List Int
  keyAllowed : Bool
  keys : List PossibleKey
  ended : Bool

/-- The tokens of a text, and the fault that whoever reads on beyond them meets. -/
structure Tokens where
  list : List Token
  beyond : Fault

namespace Scan

def column (s : Scan) : Nat := s.cursor.column

def mark (s : Scan) : Mark := s.cursor.mark

def emit (s : Scan) (kind : TokenKind) (start finish : Mark) : Scan :=
  { s with tokens := s.tokens.push ⟨kind, start, finish⟩ }

def insertAt (s : Scan) (key : PossibleKey) (kind : TokenKind) : Scan :=
  { s with tokens := s.tokens.insertIdxIfInBounds key.number ⟨kind, key.mark, key.mark⟩ }

def emitLength (s : Scan) (kind : TokenKind) (length : Nat) : Scan :=
  let after := s.cursor.skip length
  { s.emit kind s.mark after.mark with cursor := after }

def emitTo (s : Scan) (kind : TokenKind) (after : Cursor) : Scan :=
  { s.emit kind s.mark after.mark with cursor := after }

/-! ## Keys -/

def missingColon {α : Type} (s : Scan) (key : PossibleKey) : Except Fault α :=
  .error (.marked (some (.simpleKey, some key.mark)) .noColon s.mark)

/-- A key ends on its line and within 1024 characters. -/
def isStale (s : Scan) (key : PossibleKey) : Bool :=
  key.mark.line != s.mark.line || 1024 < s.mark.index - key.mark.index

def dropStale (s : Scan) : Except Fault Scan :=
  match s.keys.find? fun key => s.isStale key && key.required with
  | some key => s.missingColon key
  | none => .ok { s with keys := s.keys.filter (!s.isStale ·) }

def dropKey (s : Scan) : Except Fault Scan :=
  match s.keys.find? (·.level == s.level) with
  | none => .ok s
  | some key =>
    if key.required then s.missingColon key
    else .ok { s with keys := s.keys.filter (·.level != s.level) }

def saveKey (s : Scan) : Except Fault Scan :=
  if s.keyAllowed then do
    let s ← s.dropKey
    let required := s.level == 0 && s.indent == (s.column : Int)
    return { s with keys := s.keys ++ [⟨s.level, s.tokens.size, required, s.mark⟩] }
  else .ok s

def allowKey (allowed : Bool) (s : Scan) : Scan := { s with keyAllowed := allowed }

/-! ## Blocks -/

def closeBlocks (column : Int) (mark : Mark) : Int → List Int → Array Token → Int × List Int × Array Token
  | indent, [], tokens => (indent, [], tokens)
  | indent, outer :: rest, tokens =>
    if column < indent then closeBlocks column mark outer rest (tokens.push ⟨.blockEnd, mark, mark⟩)
    else (indent, outer :: rest, tokens)

def unwind (s : Scan) (column : Int) : Scan :=
  if s.level == 0 then
    let (indent, outer, tokens) := closeBlocks column s.mark s.indent s.outer s.tokens
    { s with indent, outer, tokens }
  else s

def openBlock (s : Scan) (column : Nat) (emit : Scan → Scan) : Scan :=
  if s.indent < (column : Int) then
    emit { s with indent := column, outer := s.indent :: s.outer }
  else s

def openHere (s : Scan) (kind : TokenKind) : Scan := s.openBlock s.column (·.emit kind s.mark s.mark)

/-! ## One token -/

def skipBlanks : Nat → Scan → Scan
  | 0, s => s
  | steps + 1, s =>
    let c := s.cursor.skipSpaces.skipComment
    match c.lineBreak with
    | ([], _) => { s with cursor := c }
    | (_, after) => skipBlanks steps { s with cursor := after, keyAllowed := s.keyAllowed || s.level == 0 }

def toNextToken (s : Scan) : Scan :=
  let c := s.cursor
  let c := if c.mark.index == 0 && (c.peek.map Char.toNat) == some 0xfeff then c.next else c
  skipBlanks (c.rest.length + 1) { s with cursor := c }

def streamEnd (s : Scan) : Except Fault Scan := do
  let s ← (s.unwind (-1)).dropKey
  return { s.emit .streamEnd s.mark s.mark with keyAllowed := false, keys := [], ended := true }

def directiveName (start : Mark) (c : Cursor) : Except Fault (List Char × Cursor) :=
  let (name, c) := c.span isNameChar
  if !name.isEmpty && isSpaceOrEnd c.peek then .ok (name, c)
  else failAt .directive start (.notAlphanumeric c.peek) c

def directive (s : Scan) : Except Fault Scan := do
  let s ← (s.unwind (-1)).dropKey
  let start := s.mark
  let (name, c) ← directiveName start s.cursor.next
  let (kind, c) ←
    (if name == "YAML".toList then do
      let (major, c) ← version start c
      pure (.version major, c)
    else if name == "TAG".toList then do
      let ((handle, tagStart), c) ← handleDefinition start c
      pure (.tagHandle handle tagStart, c)
    else pure (.directive, c.skipWhile (!isBreak ·)) : Except Fault (TokenKind × Cursor))
  let after ← ignoredLine .directive start c
  return { s.emit kind start c.mark with cursor := after, keyAllowed := false }

def documentMarker (s : Scan) (kind : TokenKind) : Except Fault Scan := do
  let s ← (s.unwind (-1)).dropKey
  return (s.allowKey false).emitLength kind 3

def flowStart (s : Scan) (kind : TokenKind) : Except Fault Scan := do
  let s ← s.saveKey
  return { s.emitLength kind 1 with level := s.level + 1, keyAllowed := true }

/-- The end of a flow collection. One that was never begun ends the tokens. -/
def flowEnd (s : Scan) (kind : TokenKind) : Except Fault Scan := do
  let s ← s.dropKey
  return { s.emitLength kind 1 with level := s.level - 1, keyAllowed := false, ended := s.level == 0 }

def flowEntry (s : Scan) : Except Fault Scan := do
  let s ← s.dropKey
  return (s.allowKey true).emitLength .flowEntry 1

def blockEntry (s : Scan) : Except Fault Scan := do
  if s.level == 0 && !s.keyAllowed then throw (.marked none .sequenceEntry s.mark)
  let s := if s.level == 0 then s.openHere .blockSequenceStart else s
  let s ← s.dropKey
  return (s.allowKey true).emitLength .blockEntry 1

def key (s : Scan) : Except Fault Scan := do
  if s.level == 0 && !s.keyAllowed then throw (.marked none .mappingKey s.mark)
  let s := if s.level == 0 then s.openHere .blockMappingStart else s
  let s ← s.dropKey
  return (s.allowKey (s.level == 0)).emitLength .key 1

def value (s : Scan) : Except Fault Scan := do
  match s.keys.find? (·.level == s.level) with
  | some key =>
    let s := { s with keys := s.keys.filter (·.level != s.level) }
    let s := s.insertAt key .key
    let s := if s.level == 0 then s.openBlock key.mark.column (·.insertAt key .blockMappingStart) else s
    return (s.allowKey false).emitLength .value 1
  | none =>
    if s.level == 0 && !s.keyAllowed then throw (.marked none .mappingValue s.mark)
    let s := if s.level == 0 then s.openHere .blockMappingStart else s
    let s ← s.dropKey
    return (s.allowKey (s.level == 0)).emitLength .value 1

def nameToken (s : Scan) (activity : Activity) (kind : String → TokenKind) : Except Fault Scan := do
  let s ← s.saveKey
  let (name, after) ← anchorName activity s.cursor
  return (s.allowKey false).emitTo (kind name) after

def tagToken (s : Scan) : Except Fault Scan := do
  let s ← s.saveKey
  let ((handle, suffix), after) ← tag s.cursor
  return (s.allowKey false).emitTo (.tag handle suffix) after

def blockScalarToken (s : Scan) (folded : Bool) : Except Fault Scan := do
  let s ← (s.allowKey true).dropKey
  let (text, after) ← blockScalar folded s.indent s.cursor
  return s.emitTo (.scalar text false) after

def quotedToken (s : Scan) (double : Bool) : Except Fault Scan := do
  let s ← s.saveKey
  let (text, after) ← quotedScalar double s.cursor
  return (s.allowKey false).emitTo (.scalar text false) after

def plainToken (s : Scan) : Except Fault Scan := do
  let s ← s.saveKey
  let (text, finish, broke, after) :=
    plainFrom (s.level != 0) (s.indent + 1) (s.cursor.rest.length + 1) [] s.mark false s.cursor
  return { s.emit (.scalar text true) s.mark finish with cursor := after, keyAllowed := broke }

def beginsPlain (s : Scan) (ch : Char) : Bool :=
  !(isBlankOrEnd (some ch) || "-?:,[]\x7b\x7d#&*!|>'\"%@\x60".toList.contains ch) ||
    (!isBlankOrEnd (s.cursor.peekAt 1) && (ch == '-' || (s.level == 0 && (ch == '?' || ch == ':'))))

def token (s : Scan) : Except Fault Scan :=
  let c := s.cursor
  let apart := isBlankOrEnd (c.peekAt 1)
  match c.peek with
  | none => s.streamEnd
  | some ch =>
    if c.column == 0 && ch == '%' then s.directive
    else if c.column == 0 && c.atMarker '-' then s.documentMarker .documentStart
    else if c.column == 0 && c.atMarker '.' then s.documentMarker .documentEnd
    else if ch == '[' then s.flowStart .flowSequenceStart
    else if ch == '\x7b' then s.flowStart .flowMappingStart
    else if ch == ']' then s.flowEnd .flowSequenceEnd
    else if ch == '\x7d' then s.flowEnd .flowMappingEnd
    else if ch == ',' then s.flowEntry
    else if ch == '-' && apart then s.blockEntry
    -- within brackets the marks of keys and values need no blank behind them
    else if ch == '?' && (s.level != 0 || apart) then s.key
    else if ch == ':' && (s.level != 0 || apart) then s.value
    else if ch == '*' then s.nameToken .reference .reference
    else if ch == '&' then s.nameToken .anchor .anchor
    else if ch == '!' then s.tagToken
    else if ch == '|' && s.level == 0 then s.blockScalarToken false
    else if ch == '>' && s.level == 0 then s.blockScalarToken true
    else if ch == '\'' then s.quotedToken false
    else if ch == '"' then s.quotedToken true
    else if s.beginsPlain ch then s.plainToken
    else .error (.marked (some (.nextToken, none)) (.noToken (some ch)) s.mark)

def step (s : Scan) : Except Fault Scan := do
  let s ← s.toNextToken.dropStale
  let s ← (s.unwind s.column).token
  s.dropStale

/-- How many tokens are settled: no token can be put in before them any more. -/
def settled (s : Scan) : Nat := s.keys.foldl (fun n key => min n key.number) s.tokens.size

def nothingMore (s : Scan) : Fault := .marked none (.noContent TokenKind.streamEnd.name) s.mark

/-- Reads the tokens to the end, or up to a fault: then only the settled ones are kept. -/
def run : Nat → Scan → Tokens
  | 0, s => ⟨s.tokens.toList, s.nothingMore⟩
  | steps + 1, s =>
    if s.ended then ⟨s.tokens.toList, s.nothingMore⟩
    else
      match s.step with
      | .error fault => ⟨s.tokens.toList.take s.settled, fault⟩
      | .ok next => run steps next

end Scan

def isAllowed (c : Char) : Bool :=
  let n := c.toNat
  c == '\t' || c == '\n' || c == '\r' || (0x20 ≤ n && n ≤ 0x7e) || n == 0x85 || (0xa0 ≤ n && n ≤ 0xfffd) ||
    0x10000 ≤ n

def Tokens.ofText (text : List Char) : Tokens :=
  Scan.run (text.length + 2) ⟨⟨text, ⟨0, 0, 0⟩⟩, #[], 0, -1, [], true, [], false⟩

end NoteQuery.Yaml

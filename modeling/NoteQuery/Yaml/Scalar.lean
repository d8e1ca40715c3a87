import NoteQuery.Bytes.Utf8
import NoteQuery.Yaml.Fault

/-!
# Scalars, tags and anchors

Recognisers for the parts of a YAML text that carry text of their own. Each takes a cursor
and returns what it read with the cursor after it.
-/

namespace NoteQuery.Yaml

def isNameChar (c : Char) : Bool :=
  c.isDigit || ('A' ≤ c && c ≤ 'Z') || ('a' ≤ c && c ≤ 'z') || c == '-' || c == '_'

def isUriChar (c : Char) : Bool := isNameChar c || ";/?:@&=+$,.!~*'()[]%".toList.contains c

def failAt {α : Type} (activity : Activity) (start : Mark) (problem : Problem) (c : Cursor) :
    Except Fault α :=
  .error (.marked (some (activity, some start)) problem c.mark)

/-! ## Double- and single-quoted scalars -/

def escaped? (c : Char) : Option Char :=
  match c with
  | '0' => some (Char.ofNat 0)
  | 'a' => some (Char.ofNat 7)
  | 'b' => some (Char.ofNat 8)
  | 't' => some '\t'
  | '\t' => some '\t'
  | 'n' => some '\n'
  | 'v' => some (Char.ofNat 11)
  | 'f' => some (Char.ofNat 12)
  | 'r' => some '\r'
  | 'e' => some (Char.ofNat 27)
  | ' ' => some ' '
  | '"' => some '"'
  | '\\' => some '\\'
  | '/' => some '/'
  | 'N' => some (Char.ofNat 0x85)
  | '_' => some (Char.ofNat 0xa0)
  | 'L' => some (Char.ofNat 0x2028)
  | 'P' => some (Char.ofNat 0x2029)
  | _ => none

def escapeDigits? (c : Char) : Option Nat :=
  if c == 'x' then some 2 else if c == 'u' then some 4 else if c == 'U' then some 8 else none

def hexCode (start : Mark) (count : Nat) (c : Cursor) : Except Fault (Char × Cursor) :=
  let digits := c.rest.take count
  let good := digits.takeWhile fun d => (Text.hexValue? d).isSome
  if good.length < count then
    failAt .doubleQuoted start (.noEscapeDigits count (c.peekAt good.length)) c
  else
    let code := digits.foldl (fun n d => 16 * n + (Text.hexValue? d).getD 0) 0
    if 0x10ffff < code then .error (.unbuildable (.character code))
    -- half of a pair is no character by itself
    else if 0xd800 ≤ code && code < 0xe000 then .error (.unbuildable (.surrogate code))
    else .ok (Char.ofNat code, c.skip count)

/-- Line ends and the blanks that begin lines inside quotes. Document markers may not stand
there. -/
def quotedBreaks (start : Mark) : Nat → Cursor → Except Fault (List Char × Cursor)
  | 0, c => .ok ([], c)
  | steps + 1, c =>
    if c.atDocumentMarker then failAt .quotedScalar start .markerInQuotes c
    else
      let c := c.skipWhile fun ch => ch == ' ' || ch == '\t'
      match c.lineBreak with
      | ([], _) => .ok ([], c)
      | (br, after) => do
        let (brs, after) ← quotedBreaks start steps after
        return (br ++ brs, after)

/-- What a line end and the breaks after it stand for: a single break folds into a space. -/
def foldedBreak (br breaks : List Char) : List Char :=
  (if br != ['\n'] then br else if breaks.isEmpty then [' '] else []) ++ breaks

def quotedSpaces (start : Mark) (steps : Nat) (c : Cursor) : Except Fault (List Char × Cursor) :=
  let (blanks, after) := c.span fun ch => ch == ' ' || ch == '\t'
  match after.peek with
  | none => failAt .quotedScalar start .endInQuotes after
  | some ch =>
    if isBreak ch then do
      let (br, after) := after.lineBreak
      let (breaks, after) ← quotedBreaks start steps after
      return (foldedBreak br breaks, after)
    else .ok (blanks, after)

def isQuotedPlain (c : Char) : Bool :=
  !(c == '\'' || c == '"' || c == '\\' || c == ' ' || c == '\t' || isBreak c)

def quotedWord (double : Bool) (start : Mark) : Nat → Cursor → Except Fault (List Char × Cursor)
  | 0, c => .ok ([], c)
  | steps + 1, c =>
    let (run, c) := c.span isQuotedPlain
    let continueWith (read : List Char) (c : Cursor) : Except Fault (List Char × Cursor) := do
      let (more, c) ← quotedWord double start steps c
      return (run ++ read ++ more, c)
    match c.peek with
    | none => .ok (run, c)
    | some ch =>
      -- between single quotes two of them write one, and a backslash is a character like any other
      if !double && ch == '\'' && c.peekAt 1 == some '\'' then continueWith ['\''] c.next.next
      else if (double && ch == '\'') || (!double && (ch == '"' || ch == '\\')) then
        continueWith [ch] c.next
      else if double && ch == '\\' then
        let c := c.next
        match c.peek with
        | none => failAt .doubleQuoted start (.unknownEscape none) c
        | some e =>
          match escaped? e, escapeDigits? e with
          | some r, _ => continueWith [r] c.next
          | none, some count => do
            let (r, c) ← hexCode start count c.next
            continueWith [r] c
          | none, none =>
            -- a line end behind a backslash is none
            if isBreak e then do
              let (breaks, c) ← quotedBreaks start steps c.lineBreak.2
              continueWith breaks c
            else failAt .doubleQuoted start (.unknownEscape (some e)) c
      else .ok (run, c)

def quotedRest (double : Bool) (start : Mark) : Nat → Cursor → Except Fault (List Char × Cursor)
  | 0, c => .ok ([], c)
  | steps + 1, c => do
    let (word, c) ← quotedWord double start (c.rest.length + 1) c
    if c.peek == some (if double then '"' else '\'') then return (word, c.next)
    else
      let (spaces, c) ← quotedSpaces start (c.rest.length + 1) c
      let (more, c) ← quotedRest double start steps c
      return (word ++ spaces ++ more, c)

def quotedScalar (double : Bool) (c : Cursor) : Except Fault (List Char × Cursor) :=
  quotedRest double c.mark (c.rest.length + 1) c.next

/-! ## Block scalars -/

/-- Whether final line ends are kept, dropped, or one of them kept. -/
inductive Chomping
  | clip
  | strip
  | keep
  deriving DecidableEq

def chomping? (c : Option Char) : Option Chomping :=
  if c == some '+' then some .keep else if c == some '-' then some .strip else none

def indentDigit (start : Mark) (c : Cursor) : Except Fault (Option Nat × Cursor) :=
  match c.peek.filter Char.isDigit with
  | none => .ok (none, c)
  | some d =>
    if d == '0' then failAt .blockScalar start .zeroIndent c else .ok (some (d.toNat - 48), c.next)

def blockIndicators (start : Mark) (c : Cursor) : Except Fault ((Chomping × Option Nat) × Cursor) := do
  let (read, c) ←
    (match chomping? c.peek with
    | some chomping => do
      let (digit, c) ← indentDigit start c.next
      pure ((chomping, digit), c)
    | none => do
      let (digit, c) ← indentDigit start c
      match digit.bind fun _ => chomping? c.peek with
      | some chomping => pure ((chomping, digit), c.next)
      | none => pure ((.clip, digit), c) : Except Fault ((Chomping × Option Nat) × Cursor))
  if isSpaceOrEnd c.peek then return (read, c)
  else failAt .blockScalar start (.noIndicator c.peek) c

def ignoredLine (activity : Activity) (start : Mark) (c : Cursor) : Except Fault Cursor :=
  let c := c.skipSpaces.skipComment
  if isEnd c.peek then .ok c.lineBreak.2 else failAt activity start (.noCommentOrBreak c.peek) c

/-- Empty lines before the first line of a block scalar, and their greatest indentation. -/
def leadingBreaks : (steps widest : Nat) → Cursor → List Char × Nat × Cursor
  | 0, widest, c => ([], widest, c)
  | steps + 1, widest, c =>
    match c.peek with
    | none => ([], widest, c)
    | some ch =>
      if ch == ' ' then leadingBreaks steps (max widest c.next.column) c.next
      else if isBreak ch then
        let (br, after) := c.lineBreak
        let (brs, widest, c) := leadingBreaks steps widest after
        (br ++ brs, widest, c)
      else ([], widest, c)

def blockBreaks (indent : Nat) : Nat → Cursor → List Char × Cursor
  | 0, c => ([], c)
  | steps + 1, c =>
    let c := c.indentTo indent (c.rest.length)
    match c.lineBreak with
    | ([], _) => ([], c)
    | (br, after) =>
      let (brs, after) := blockBreaks indent steps after
      (br ++ brs, after)

def isSpaceOrTab (c : Option Char) : Bool := c == some ' ' || c == some '\t'

/-- The lines of a block scalar, the breaks before the next one read already. Returns the text
without its final breaks, the last line end, and the breaks after it. -/
def blockLines (folded : Bool) (indent : Nat) :
    Nat → Cursor → List Char × List Char × List Char × Cursor
  | 0, c => ([], [], [], c)
  | steps + 1, c =>
    let leading := !isSpaceOrTab c.peek
    let (line, c) := c.span (!isBreak ·)
    let (br, c) := c.lineBreak
    let (breaks, c) := blockBreaks indent (c.rest.length + 1) c
    if c.column == indent && c.peek.isSome then
      let joint :=
        if folded && br == ['\n'] && leading && !isSpaceOrTab c.peek then
          (if breaks.isEmpty then [' '] else [])
        else br
      let (more, lastBreak, lastBreaks, c) := blockLines folded indent steps c
      (line ++ joint ++ breaks ++ more, lastBreak, lastBreaks, c)
    else (line, br, breaks, c)

def blockScalar (folded : Bool) (parent : Int) (c : Cursor) : Except Fault (List Char × Cursor) := do
  let start := c.mark
  let ((chomping, digit), c) ← blockIndicators start c.next
  let c ← ignoredLine .blockScalar start c
  let least := (max (parent + 1) 1).toNat
  let (breaks, indent, c) :=
    match digit with
    -- the first line that is not blank tells the indentation, as long as it is deep enough
    | none =>
      let (breaks, widest, c) := leadingBreaks (c.rest.length + 1) 0 c
      (breaks, max least widest, c)
    | some n =>
      let indent := least + n - 1
      let (breaks, c) := blockBreaks indent (c.rest.length + 1) c
      (breaks, indent, c)
  let (body, lastBreak, lastBreaks, c) :=
    if c.column == indent && c.peek.isSome then
      let (body, lastBreak, lastBreaks, c) := blockLines folded indent (c.rest.length + 1) c
      (breaks ++ body, lastBreak, lastBreaks, c)
    else ([], [], breaks, c)
  return (body ++ (if chomping == .strip then [] else lastBreak) ++
    (if chomping == .keep then lastBreaks else []), c)

/-! ## Plain scalars -/

/-- Whether a plain scalar ends before `ch`, which `after` follows. -/
def plainEnds (inFlow : Bool) (ch : Char) (after : Option Char) : Bool :=
  isBlankOrEnd (some ch) ||
    (ch == ':' && (isBlankOrEnd after || (inFlow && (after.map ",[]\x7b\x7d".toList.contains).getD false))) ||
    (inFlow && ",?[]\x7b\x7d".toList.contains ch)

def plainRun (inFlow : Bool) : List Char → Mark → List Char × Cursor
  | [], m => ([], ⟨[], m⟩)
  | ch :: rest, m =>
    if plainEnds inFlow ch rest.head? then ([], ⟨ch :: rest, m⟩)
    else
      let (run, after) := plainRun inFlow rest (m.after ch rest)
      (ch :: run, after)

/-- Line ends and the spaces that begin lines inside a plain scalar; none if a document marker
stops it. -/
def plainBreaks : Nat → Cursor → Option (List Char) × Cursor
  | 0, c => (some [], c)
  | steps + 1, c =>
    match c.peek with
    | none => (some [], c)
    | some ch =>
      if ch == ' ' then plainBreaks steps c.next
      else if isBreak ch then
        let (br, after) := c.lineBreak
        if after.atDocumentMarker then (none, after)
        else
          let (brs, after) := plainBreaks steps after
          (brs.map (br ++ ·), after)
      else (some [], c)

/-- Spaces inside a plain scalar, empty where it has to end; and whether a line ended. -/
def plainSpaces (c : Cursor) : List Char × Bool × Cursor :=
  let (spaces, c) := c.span (· == ' ')
  match c.lineBreak with
  | ([], _) => (spaces, false, c)
  | (br, after) =>
    if after.atDocumentMarker then ([], true, after)
    else
      match plainBreaks (after.rest.length + 1) after with
      | (none, after) => ([], true, after)
      | (some breaks, after) => (foldedBreak br breaks, true, after)

/-- A plain scalar read from its runs: the text, the place where it ends, the place after the
spaces that follow it, and whether a line ended there. -/
def plainFrom (inFlow : Bool) (indent : Int) :
    Nat → (spaces : List Char) → (finish : Mark) → (brokeLine : Bool) → Cursor →
      List Char × Mark × Bool × Cursor
  | 0, _, finish, broke, c => ([], finish, broke, c)
  | steps + 1, spaces, finish, broke, c =>
    if c.peek == some '#' then ([], finish, broke, c)
    else
      match plainRun inFlow c.rest c.mark with
      | ([], _) => ([], finish, broke, c)
      | (run, after) =>
        let finish := after.mark
        let (next, broke, c) := plainSpaces after
        -- spaces belong to the scalar only if it goes on behind them
        if next.isEmpty || c.peek == some '#' || (!inFlow && (c.column : Int) < indent) then
          (spaces ++ run, finish, broke, c)
        else
          let (more, finish, broke, c) := plainFrom inFlow indent steps next finish broke c
          (spaces ++ run ++ more, finish, broke, c)

/-! ## Anchors, tags and directives -/

def anchorName (activity : Activity) (c : Cursor) : Except Fault (String × Cursor) :=
  let start := c.mark
  let (name, c) := c.next.span isNameChar
  if name.isEmpty then failAt activity start (.notAlphanumeric c.peek) c
  else if isBlankOrEnd c.peek || (c.peek.map "?:,]\x7d%@\x60".toList.contains).getD false then
    .ok (String.ofList name, c)
  else failAt activity start (.notAlphanumeric c.peek) c

def uriBytes (activity : Activity) (start : Mark) : Nat → Cursor → Except Fault (List UInt8 × Cursor)
  | 0, c => .ok ([], c)
  | steps + 1, c =>
    if c.peek == some '%' then
      let c := c.next
      match (c.peekAt 0).bind Text.hexValue?, (c.peekAt 1).bind Text.hexValue? with
      | some h, some l => do
        let (bs, c) ← uriBytes activity start steps (c.skip 2)
        return (UInt8.ofNat (16 * h + l) :: bs, c)
      | none, _ => failAt activity start (.noUriEscape (c.peekAt 0)) c
      | _, none => failAt activity start (.noUriEscape (c.peekAt 1)) c
    else .ok ([], c)

def uriFrom (activity : Activity) (start : Mark) : Nat → Cursor → Except Fault (List Char × Cursor)
  | 0, c => .ok ([], c)
  | steps + 1, c =>
    let (run, c) := c.span fun ch => isUriChar ch && ch != '%'
    if c.peek == some '%' then do
      let mark := c.mark
      let (bytes, c) ← uriBytes activity start (c.rest.length) c
      match Bytes.decodeUtf8 bytes with
      | .error fault => .error (.marked (some (activity, some start)) (.badUriBytes fault.message) mark)
      | .ok chars =>
        let (more, c) ← uriFrom activity start steps c
        return (run ++ chars ++ more, c)
    else .ok (run, c)

def uri (activity missing : Activity) (start : Mark) (c : Cursor) : Except Fault (String × Cursor) := do
  let (text, after) ← uriFrom activity start (c.rest.length + 1) c
  if text.isEmpty && c.peek != some '%' then failAt missing start (.noUri c.peek) c
  else return (String.ofList text, after)

def tagHandle (activity : Activity) (start : Mark) (c : Cursor) : Except Fault (String × Cursor) :=
  if c.peek != some '!' then failAt activity start (.noBang c.peek) c
  else if c.peekAt 1 == some ' ' then .ok ("!", c.next)
  else
    let (name, after) := c.next.span isNameChar
    if after.peek == some '!' then .ok (String.ofList ('!' :: name ++ ['!']), after.next)
    else failAt activity start (.noBang after.peek) after

def tag (c : Cursor) : Except Fault ((Option String × String) × Cursor) := do
  let start := c.mark
  let (read, c) ←
    (if c.peekAt 1 == some '<' then do
      let (suffix, c) ← uri .tag .tagUri start (c.skip 2)
      if c.peek == some '>' then pure ((none, suffix), c.next)
      else failAt .tagUri start (.noTagEnd c.peek) c
    else if isBlankOrEnd (c.peekAt 1) then pure ((none, "!"), c.next)
    else
      let ahead := c.next.rest.takeWhile fun ch => !isSpaceOrEnd (some ch)
      if ahead.contains '!' then do
        let (handle, c) ← tagHandle .tag start c
        let (suffix, c) ← uri .tag .tagUri start c
        pure ((some handle, suffix), c)
      else do
        let (suffix, c) ← uri .tag .tagUri start c.next
        pure ((some "!", suffix), c) : Except Fault ((Option String × String) × Cursor))
  if isSpaceOrEnd c.peek then return (read, c) else failAt .tag start (.noSpace c.peek) c

def directiveNumber (start : Mark) (c : Cursor) : Except Fault (Nat × Cursor) :=
  let (digits, after) := c.span Char.isDigit
  if digits.isEmpty then failAt .directive start (.noDigit c.peek) c
  else .ok (Text.digitsValue digits, after)

def version (start : Mark) (c : Cursor) : Except Fault (Nat × Cursor) := do
  let (major, c) ← directiveNumber start c.skipSpaces
  if c.peek != some '.' then failAt .directive start (.noDigitOrPoint c.peek) c
  else
    let (_, c) ← directiveNumber start c.next
    if isSpaceOrEnd c.peek then return (major, c)
    else failAt .directive start (.noDigitOrSpace c.peek) c

def handleDefinition (start : Mark) (c : Cursor) : Except Fault ((String × String) × Cursor) := do
  let (handle, c) ← tagHandle .directive start c.skipSpaces
  if c.peek != some ' ' then failAt .directive start (.noSpace c.peek) c
  else
    let (tagStart, c) ← uri .directive .tagDirective start c.skipSpaces
    if isSpaceOrEnd c.peek then return ((handle, tagStart), c)
    else failAt .directive start (.noSpace c.peek) c

end NoteQuery.Yaml

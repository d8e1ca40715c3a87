import NoteQuery.Text.Word

/-!
# Places in a YAML text

A cursor is the rest of the text with its place. Lines end at a carriage return, a line feed,
both together, or one of the three Unicode line ends.
-/

namespace NoteQuery.Yaml

structure Mark where
  index : Nat
  line : Nat
  column : Nat
  deriving DecidableEq, Inhabited

structure Cursor where
  rest : List Char
  mark : Mark

def isBreak (c : Char) : Bool :=
  c == '\r' || c == '\n' || c.toNat == 0x85 || c.toNat == 0x2028 || c.toNat == 0x2029

def isEnd : Option Char → Bool
  | none => true
  | some c => isBreak c

def isSpaceOrEnd : Option Char → Bool
  | none => true
  | some c => isBreak c || c == ' '

def isBlankOrEnd : Option Char → Bool
  | none => true
  | some c => isBreak c || c == ' ' || c == '\t'

/-- The place after `c`, which `rest` follows. The byte order mark takes no column. -/
def Mark.after (m : Mark) (c : Char) (rest : List Char) : Mark :=
  if (c == '\r' && rest.head? != some '\n') || (c != '\r' && isBreak c) then ⟨m.index + 1, m.line + 1, 0⟩
  else if c.toNat == 0xfeff then ⟨m.index + 1, m.line, m.column⟩
  else ⟨m.index + 1, m.line, m.column + 1⟩

namespace Cursor

def peek (c : Cursor) : Option Char := c.rest.head?

def peekAt (c : Cursor) (k : Nat) : Option Char := c.rest[k]?

def column (c : Cursor) : Nat := c.mark.column

def next (c : Cursor) : Cursor :=
  match c.rest with
  | [] => c
  | ch :: rest => ⟨rest, c.mark.after ch rest⟩

def skip : Nat → Cursor → Cursor
  | 0, c => c
  | n + 1, c => skip n c.next

def spanFrom (p : Char → Bool) : List Char → Mark → List Char × Cursor
  | [], m => ([], ⟨[], m⟩)
  | ch :: rest, m =>
    if p ch then
      let (run, after) := spanFrom p rest (m.after ch rest)
      (ch :: run, after)
    else ([], ⟨ch :: rest, m⟩)

def span (c : Cursor) (p : Char → Bool) : List Char × Cursor := spanFrom p c.rest c.mark

def skipWhile (c : Cursor) (p : Char → Bool) : Cursor := (c.span p).2

def skipSpaces (c : Cursor) : Cursor := c.skipWhile (· == ' ')

def indentTo (column : Nat) : Nat → Cursor → Cursor
  | 0, c => c
  | steps + 1, c => if c.column < column && c.peek == some ' ' then indentTo column steps c.next else c

/-- Splits off a line end, if there is one: what it stands for in a scalar, and the place
after it. All but the Unicode line and paragraph separators stand for a line feed. -/
def lineBreak (c : Cursor) : List Char × Cursor :=
  match c.rest with
  | [] => ([], c)
  | '\r' :: '\n' :: _ => (['\n'], c.next.next)
  | ch :: _ =>
    if ch.toNat == 0x2028 || ch.toNat == 0x2029 then ([ch], c.next)
    else if isBreak ch then (['\n'], c.next)
    else ([], c)

def skipComment (c : Cursor) : Cursor :=
  if c.peek == some '#' then c.skipWhile (!isBreak ·) else c

/-- Whether the text goes on with three of `c` and then a blank or its end. -/
def atMarker (c : Cursor) (ch : Char) : Bool :=
  c.peekAt 0 == some ch && c.peekAt 1 == some ch && c.peekAt 2 == some ch && isBlankOrEnd (c.peekAt 3)

def atDocumentMarker (c : Cursor) : Bool := c.atMarker '-' || c.atMarker '.'

end Cursor

end NoteQuery.Yaml

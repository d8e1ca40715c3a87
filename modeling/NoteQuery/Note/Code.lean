import NoteQuery.Text.Segment

/-!
# Code in notes

Tags and markers count only outside code. Code blocks stand between two runs of three
backticks, inline code between single ones.
-/

namespace NoteQuery.Note

def fence : List Char := ['\x60', '\x60', '\x60']

def afterFirst? (needle : List Char) : List Char → Option (List Char)
  | [] => if needle.isEmpty then some [] else none
  | c :: cs => (Text.after? needle (c :: cs)).orElse fun _ => afterFirst? needle cs

def afterBlock? (cs : List Char) : Option (List Char) := (Text.after? fence cs).bind (afterFirst? fence)

/-- The rest after inline code that begins here: one character at least between backticks. -/
def afterInline? : List Char → Option (List Char)
  | '\x60' :: cs =>
    match cs.span (· != '\x60') with
    | (_ :: _, _ :: rest) => some rest
    | _ => none
  | _ => none

/-- Drops what `after?` recognises. The first argument bounds the number of steps. -/
def dropPieces (after? : List Char → Option (List Char)) : Nat → List Char → List Char
  | 0, cs => cs
  | _ + 1, [] => []
  | steps + 1, c :: cs =>
    match after? (c :: cs) with
    | some rest => dropPieces after? steps rest
    | none => c :: dropPieces after? steps cs

def withoutBlocks (cs : List Char) : List Char := dropPieces afterBlock? cs.length cs

def withoutInline (cs : List Char) : List Char := dropPieces afterInline? cs.length cs

def withoutCode (cs : List Char) : List Char := withoutInline (withoutBlocks cs)

end NoteQuery.Note

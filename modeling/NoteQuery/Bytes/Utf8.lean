import NoteQuery.Text.Word

/-!
# UTF-8

Strict decoding. A fault names the bytes that begin no character and what is wrong with
them.
-/

namespace NoteQuery.Bytes

inductive Utf8Problem
  | start
  | continuation
  | ending
  deriving DecidableEq

/-- Where decoding failed: the bytes of the fault, the first of them, and the problem. -/
structure Utf8Fault where
  position : Nat
  count : Nat
  first : UInt8
  problem : Utf8Problem
  deriving DecidableEq

def Utf8Problem.text : Utf8Problem → String
  | .start => "invalid start byte"
  | .continuation => "invalid continuation byte"
  | .ending => "unexpected end of data"

def Utf8Fault.message (f : Utf8Fault) : String :=
  (if f.count = 1 then
    "'utf-8' codec can't decode byte 0x" ++ String.ofList (Text.hexadecimal 2 f.first.toNat) ++
      " in position " ++ toString f.position
  else
    "'utf-8' codec can't decode bytes in position " ++ toString f.position ++ "-" ++
      toString (f.position + f.count - 1)) ++ ": " ++ f.problem.text

/-- The number of continuation bytes after a first byte, the significant bits of the first
byte, and the range of the second byte. None for bytes that begin no character. -/
def leadInfo? (b : Nat) : Option (Nat × Nat × Nat × Nat) :=
  if b < 0x80 then some (0, b, 0, 0)
  else if b < 0xc2 then none
  else if b < 0xe0 then some (1, b - 0xc0, 0x80, 0xc0)
  else if b < 0xf0 then
    some (2, b - 0xe0, if b = 0xe0 then 0xa0 else 0x80, if b = 0xed then 0xa0 else 0xc0)
  else if b < 0xf5 then
    some (3, b - 0xf0, if b = 0xf0 then 0x90 else 0x80, if b = 0xf4 then 0x90 else 0xc0)
  else none

/-- What stands after a first byte: the code point and the rest, or how many continuation
bytes there are and the problem after them. -/
inductive Tail
  | complete (code : Nat) (rest : List UInt8)
  | broken (count : Nat) (problem : Utf8Problem)

/-- Reads `left` continuation bytes, the next one in `[low, high)`. -/
def readTail : (left code low high done : Nat) → List UInt8 → Tail
  | 0, code, _, _, _, bs => .complete code bs
  | _ + 1, _, _, _, done, [] => .broken done .ending
  | left + 1, code, low, high, done, b :: bs =>
    if low ≤ b.toNat ∧ b.toNat < high then readTail left (code * 64 + (b.toNat - 0x80)) 0x80 0xc0 (done + 1) bs
    else .broken done .continuation

/-- Decodes bytes from a position on. The first argument bounds the number of characters. -/
def decodeFrom : (steps position : Nat) → List UInt8 → Except Utf8Fault (List Char)
  | 0, _, _ => .ok []
  | _ + 1, _, [] => .ok []
  | steps + 1, position, b :: bs =>
    match leadInfo? b.toNat with
    | none => .error ⟨position, 1, b, .start⟩
    | some (left, code, low, high) =>
      match readTail left code low high 0 bs with
      | .complete code rest => (decodeFrom steps (position + left + 1) rest).map (Char.ofNat code :: ·)
      | .broken done problem => .error ⟨position, done + 1, b, problem⟩

def decodeUtf8 (bs : List UInt8) : Except Utf8Fault (List Char) := decodeFrom bs.length 0 bs

def encodeUtf8 (cs : List Char) : List UInt8 := cs.flatMap String.utf8EncodeChar

end NoteQuery.Bytes

import NoteQuery.Text.Word

/-!
# SHA-1

The digest of a byte sequence: blocks of sixteen words are mixed one after the other into
five words, and the padding makes the length part of the last block.
-/

namespace NoteQuery.Bytes

structure Digest where
  a : UInt32
  b : UInt32
  c : UInt32
  d : UInt32
  e : UInt32

namespace Digest

def rotate (x n : UInt32) : UInt32 := (x <<< n) ||| (x >>> (32 - n))

def start : Digest := ⟨0x67452301, 0xefcdab89, 0x98badcfe, 0x10325476, 0xc3d2e1f0⟩

def add (x y : Digest) : Digest := ⟨x.a + y.a, x.b + y.b, x.c + y.c, x.d + y.d, x.e + y.e⟩

def roundTerm (x : Digest) (round : Nat) : UInt32 :=
  if round < 20 then ((x.b &&& x.c) ||| (~~~x.b &&& x.d)) + 0x5a827999
  else if round < 40 then (x.b ^^^ x.c ^^^ x.d) + 0x6ed9eba1
  else if round < 60 then ((x.b &&& x.c) ||| (x.b &&& x.d) ||| (x.c &&& x.d)) + 0x8f1bbcdc
  else (x.b ^^^ x.c ^^^ x.d) + 0xca62c1d6

def round (x : Digest) (entry : UInt32 × Nat) : Digest :=
  ⟨rotate x.a 5 + x.roundTerm entry.2 + x.e + entry.1, x.a, rotate x.b 30, x.c, x.d⟩

def nextWord (words : List UInt32) : UInt32 :=
  let back (k : Nat) : UInt32 := words.getD (k - 1) 0
  rotate (back 3 ^^^ back 8 ^^^ back 14 ^^^ back 16) 1

def schedule (block : List UInt32) : List UInt32 :=
  ((List.range 64).foldl (fun words _ => nextWord words :: words) block.reverse).reverse

def addBlock (x : Digest) (block : List UInt32) : Digest := x.add ((schedule block).zipIdx.foldl round x)

def hex (x : Digest) : String :=
  String.ofList ([x.a, x.b, x.c, x.d, x.e].flatMap fun w => Text.hexadecimal 8 w.toNat)

end Digest

def bigEndian (count n : Nat) : List UInt8 :=
  (List.range count).map fun i => UInt8.ofNat (n / Nat.pow 256 (count - 1 - i))

/-- A one bit, zeros, and the length in bits fill the last block. -/
def padded (bs : List UInt8) : List UInt8 :=
  bs ++ 0x80 :: List.replicate ((119 - bs.length % 64) % 64) 0 ++ bigEndian 8 (8 * bs.length)

def bigEndianWords : List UInt8 → List UInt32
  | a :: b :: c :: d :: bs =>
    UInt32.ofNat (((a.toNat * 256 + b.toNat) * 256 + c.toNat) * 256 + d.toNat) :: bigEndianWords bs
  | _ => []

/-- Mixes in blocks of sixteen words. The first argument bounds their number. -/
def digestBlocks : Nat → Digest → List UInt32 → Digest
  | 0, x, _ => x
  | _ + 1, x, [] => x
  | steps + 1, x, words => digestBlocks steps (x.addBlock (words.take 16)) (words.drop 16)

def sha1 (bs : List UInt8) : Digest :=
  let words := bigEndianWords (padded bs)
  digestBlocks words.length Digest.start words

end NoteQuery.Bytes

/-!
# Sets of code points given by range edges

A set is kept as the increasing list of its edges: the first range begins at the first edge
and ends before the second, and so on. A code point belongs to the set when an odd number of
edges are at or below it. Runs of letters are looked up the same way.
-/

namespace NoteQuery.Text

/-- Bisection: the first place in `[lo, hi)` whose entry is above `code`, or `hi`. -/
def firstAbove (entry : Nat → Nat) (code : Nat) : (steps lo hi : Nat) → Nat
  | 0, lo, _ => lo
  | steps + 1, lo, hi =>
    if lo < hi then
      let mid := (lo + hi) / 2
      if entry mid ≤ code then firstAbove entry code steps (mid + 1) hi
      else firstAbove entry code steps lo mid
    else lo

def edgesUpTo (edges : Array Nat) (code : Nat) : Nat :=
  firstAbove (fun i => edges.getD i 0) code (edges.size.log2 + 1) 0 edges.size

def inRanges (edges : Array Nat) (code : Nat) : Bool := edgesUpTo edges code % 2 == 1

def imageIn? (runs : Array (Nat × Nat × Nat × Nat)) (code : Nat) : Option Nat :=
  let place := firstAbove (fun i => (runs.getD i (0, 0, 1, 0)).1) code (runs.size.log2 + 1) 0 runs.size
  match place with
  | 0 => none
  | before + 1 =>
    let (first, last, step, image) := runs.getD before (0, 0, 1, 0)
    if code ≤ last && (code - first) % step == 0 then some (image + (code - first)) else none

end NoteQuery.Text

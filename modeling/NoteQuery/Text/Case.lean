import NoteQuery.Text.Ranges
import NoteQuery.Text.CaseTable

/-!
# Letter case

Lower-casing, case folding for comparisons, and letters that are taken for one another when
keywords are read.
-/

namespace NoteQuery.Text

def isCased (c : Char) : Bool := inRanges casedEdges c.toNat

/-- Marks and the like, which do not separate a letter from its neighbours. -/
def isTransparent (c : Char) : Bool := inRanges transparentEdges c.toNat

def lowerLetter (c : Char) : List Char :=
  if c.toNat < 128 then [c.toLower]
  else if c.toNat = 0x130 then ['i', Char.ofNat 0x307]
  else [((imageIn? lowerRuns c.toNat).map Char.ofNat).getD c]

/-- Whether the nearest character that is not transparent is a cased letter. -/
def meetsCased : List Char → Bool
  | [] => false
  | c :: cs => if isTransparent c then meetsCased cs else isCased c

/-- Lower-cases `cs`, which follows the reversed text `before`. A capital sigma that ends a
word becomes the final small sigma. -/
def lowerAfter (before : List Char) : List Char → List Char
  | [] => []
  | c :: cs =>
    (if c = 'Σ' then [if meetsCased before && !meetsCased cs then 'ς' else 'σ'] else lowerLetter c) ++
      lowerAfter (c :: before) cs

def lower (cs : List Char) : List Char := lowerAfter [] cs

def foldLetter (c : Char) : List Char :=
  if c.toNat < 128 then [c.toLower]
  else
    match foldExpansions.lookup c.toNat with
    | some codes => codes.map Char.ofNat
    | none => [((imageIn? foldRuns c.toNat).map Char.ofNat).getD c]

/-- Texts that differ only in letter case have the same folding. -/
def fold (cs : List Char) : List Char := cs.flatMap foldLetter

/-- Whether `c` is read as the lower-case letter `letter` of a keyword. Besides the two cases
these are the letters that differ from it in case only: both Turkish `i`, the long `s`, and
the Kelvin sign. -/
def readsAs (letter c : Char) : Bool :=
  c.toLower == letter ||
    (letter == 'i' && (c == 'İ' || c == 'ı')) ||
    (letter == 's' && c == 'ſ') ||
    (letter == 'k' && c.toNat == 0x212a)

/-- The rest of the text after a keyword, given in lower case, read in any letter case. -/
def afterKeyword? : (keyword cs : List Char) → Option (List Char)
  | [], cs => some cs
  | _ :: _, [] => none
  | k :: keyword, c :: cs => if readsAs k c then afterKeyword? keyword cs else none

end NoteQuery.Text

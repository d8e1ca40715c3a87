import NoteQuery.Text.Segment

/-!
# Paths

Paths as texts and as the names on the way. A text may be relative, and it may hold `..`,
which only resolution takes out.
-/

namespace NoteQuery.Path

def isAbsolute (s : String) : Bool := s.toList.head? == some '/'

/-- The names on the way, without empty ones and `.`. -/
def names (s : String) : List String := (Text.segments '/' s).filter fun name => name ≠ "" ∧ name ≠ "."

/-- The slashes that begin a path: two are kept, more count as one. -/
def root (s : String) : String :=
  match (s.toList.takeWhile (· == '/')).length with
  | 0 => ""
  | 2 => "//"
  | _ => "/"

def plain (s : String) : String :=
  let text := root s ++ "/".intercalate (names s)
  if text = "" then "." else text

def ofNames (names : List String) : String := "/" ++ "/".intercalate names

def child (path name : String) : String := if path = "/" then "/" ++ name else path ++ "/" ++ name

/-- Takes out `..` with the name before it. -/
def dropParents (names : List String) : List String :=
  (names.foldl (fun done name => if name = ".." then done.drop 1 else name :: done) []).reverse

def homeText (home : String) : String :=
  let text := String.ofList (Text.dropAll '/' home.toList.reverse).reverse
  if text = "" then "/" else text

def expandHome (home path : String) : String :=
  match names path with
  | "~" :: rest =>
    if isAbsolute path then path else "/".intercalate (homeText home :: rest)
  | _ => path

end NoteQuery.Path

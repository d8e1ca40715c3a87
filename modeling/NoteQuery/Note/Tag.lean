import NoteQuery.Note.Code
import NoteQuery.Text.Case
import NoteQuery.Value.Shown

/-!
# Tags of notes

Tags are declared in the front matter, as a list or as one text with commas, and written in
the body as `#tag` after a blank. They are lower case and without their sign.
-/

namespace NoteQuery.Note

def isLetter (c : Char) : Bool := ('a' ≤ c && c ≤ 'z') || ('A' ≤ c && c ≤ 'Z')

def isTagChar (c : Char) : Bool := isLetter c || c.isDigit || c == '_' || c == '-' || c == '/'

def tagHere? : List Char → Option (List Char × List Char)
  | '#' :: c :: cs => if isLetter c then some ((c :: cs).span isTagChar) else none
  | _ => none

/-- The tag that begins here: at the start of the text, or after a blank. -/
def tag? (atStart : Bool) (cs : List Char) : Option (List Char × List Char) :=
  (if atStart then tagHere? cs else none).orElse fun _ =>
    match cs with
    | c :: cs => if Text.isBlank c then tagHere? cs else none
    | [] => none

/-- The tags of a text in order. The first argument bounds the number of steps. -/
def tagsFrom : Nat → (atStart : Bool) → List Char → List String
  | 0, _, _ => []
  | _ + 1, _, [] => []
  | steps + 1, atStart, c :: cs =>
    match tag? atStart (c :: cs) with
    | some (tag, rest) => String.ofList (Text.lower tag) :: tagsFrom steps false rest
    | none => tagsFrom steps false cs

def distinct (items : List String) : List String :=
  items.foldl (fun done item => if done.contains item then done else done ++ [item]) []

def inlineTags (body : List Char) : List String :=
  let text := withoutCode body
  distinct (tagsFrom (text.length + 1) true text)

def declaredTag (s : String) : String :=
  String.ofList (Text.lower (Text.dropAll '#' (Text.trim s.toList)))

def declarations : Value → List String
  | .text s => Text.segments ',' s
  | .list items => (items.filter fun | .null => false | _ => true).map Value.plain
  | _ => []

/-- Whether a declaration is not written because it holds an integer that is too long. -/
def hasLongTag (frontMatter : Entries) : Bool :=
  match Entries.get? frontMatter "tags" with
  | some (.list items) => items.any (·.hasLong)
  | _ => false

def declaredTags (frontMatter : Entries) : List String :=
  ((declarations ((Entries.get? frontMatter "tags").getD .null)).filter fun s =>
    !(Text.trim s.toList).isEmpty).map declaredTag

/-- The tags of several sources in order, each once and none empty. -/
def mergeTags (sources : List (List String)) : List String := distinct (sources.flatten.filter (· ≠ ""))

end NoteQuery.Note

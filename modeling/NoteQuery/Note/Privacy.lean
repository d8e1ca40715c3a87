import NoteQuery.Note.Code
import NoteQuery.Text.Case
import NoteQuery.Value.Basic

/-!
# Private notes

A note is private by a segment of its path, by its front matter, or by a marker in its body
outside code.
-/

namespace NoteQuery.Note

/-- Whether a segment of a path, in lower case, marks privacy. -/
def marksPrivacy (segment : List Char) : Bool :=
  segment == "_private".toList || segment == "private".toList || Text.startsWith "_private.".toList segment

def isPrivatePath (path : String) : Bool := (Text.cutAt '/' (Text.lower path.toList)).any marksPrivacy

def atGap : List Char → Bool
  | [] => true
  | c :: _ => Text.isBlank c

def atMarker (cs : List Char) : Bool := ((Text.after? "#private".toList cs).map atGap).getD false

/-- Whether the marker stands in a text; `afterGap` if it may begin here. -/
def hasMarker : (afterGap : Bool) → List Char → Bool
  | _, [] => false
  | afterGap, c :: cs => (afterGap && atMarker (c :: cs)) || hasMarker (Text.isBlank c) cs

def isPrivateContent (frontMatter : Entries) (body : List Char) : Bool :=
  (match Entries.get? frontMatter "private" with
  | some (.bool true) => true
  | _ => false) || hasMarker true (withoutCode body)

end NoteQuery.Note

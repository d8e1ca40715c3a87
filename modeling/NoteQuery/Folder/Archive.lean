import NoteQuery.Bytes.Utf8
import NoteQuery.Folder

/-!
# Archives

Notes in one text, as `tail` prints several files: a line with the path of each note between
arrows, `==> daily/monday.md <==`, and then its lines, with an empty one before the next
header. The lines before the first header belong to no note.
-/

namespace NoteQuery

structure Archive where
  preface : List (List Char)
  notes : List (List Char × List (List Char))

namespace Archive

def leftArrow : List Char := "==> ".toList

def rightArrow : List Char := " <==".toList

def header? (line : List Char) : Option (List Char) :=
  (Text.after? leftArrow line).bind fun rest =>
    (Text.after? rightArrow.reverse rest.reverse).map List.reverse

def ofLines : List (List Char) → Archive
  | [] => ⟨[], []⟩
  | line :: lines =>
    let rest := ofLines lines
    match header? line with
    | some path => ⟨[], (path, rest.preface) :: rest.notes⟩
    | none => ⟨line :: rest.preface, rest.notes⟩

def read (text : String) : Archive := ofLines (Text.cutAt '\n' text.toList)

def joinLines (lines : List (List Char)) : List Char := Text.joinWith ['\n'] lines

def loose (a : Archive) : String := String.ofList (joinLines a.preface)

def folder (a : Archive) : Folder :=
  a.notes.foldl (fun f (path, lines) =>
    f.write (Path.names (String.ofList path)) (Bytes.encodeUtf8 (joinLines lines))) []

end Archive

end NoteQuery

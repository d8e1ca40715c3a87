import NoteQuery.Note.Privacy
import NoteQuery.Path

/-!
# Folders

A folder holds files, folders and links by name. Paths are lists of names from the outermost
folder on; links hold such a path as their target.
-/

namespace NoteQuery

inductive FolderItem
  | file (content : List UInt8)
  | folder (items : List (String × FolderItem))
  | link (target : List String)
  deriving Inhabited

abbrev Folder := List (String × FolderItem)

namespace Folder

/-! ## Items -/

/-- The item at a path, no link followed. The empty path is the folder itself. -/
def itemAt? : List String → Folder → Option FolderItem
  | [], f => some (.folder f)
  | [name], f => f.lookup name
  | name :: names, f =>
    match f.lookup name with
    | some (.folder inner) => itemAt? names inner
    | _ => none

def put (name : String) (item : FolderItem) : Folder → Folder
  | [] => [(name, item)]
  | (n, i) :: rest => if n = name then (name, item) :: rest else (n, i) :: put name item rest

/-- Puts an item at a path. Missing folders on the way are made; where something else is on
the way nothing changes. -/
def putAt (item : FolderItem) : List String → Folder → Folder
  | [], f => f
  | [name], f => put name item f
  | name :: names, f =>
    match f.lookup name with
    | none => put name (.folder (putAt item names [])) f
    | some (.folder inner) => put name (.folder (putAt item names inner)) f
    | some _ => f

def dropAt : List String → Folder → Folder
  | [], f => f
  | [name], f => f.filter (·.1 ≠ name)
  | name :: names, f =>
    match f.lookup name with
    | some (.folder inner) => put name (.folder (dropAt names inner)) f
    | _ => f

/-! ## Links -/

/-- The path without links and `..` that a path stands for: `done` are the names so far, the
last first. What does not exist is kept as it is. The first argument bounds the number of
names. -/
def resolveFrom (f : Folder) : Nat → (done rest : List String) → List String
  | 0, done, rest => done.reverse ++ rest
  | _ + 1, done, [] => done.reverse
  | steps + 1, done, name :: rest =>
    if name = ".." then resolveFrom f steps (done.drop 1) rest
    else
      match itemAt? (name :: done).reverse f with
      | some (.link target) => resolveFrom f steps [] (target ++ rest)
      | _ => resolveFrom f steps (name :: done) rest

/-- As many names as a resolution may pass before it counts as endless. -/
def resolutionSteps : Nat := 4096

def resolve (f : Folder) (path : List String) : List String := resolveFrom f resolutionSteps [] path

def find? (f : Folder) (path : List String) : Option FolderItem := itemAt? (f.resolve path) f

def folderAt? (f : Folder) (path : List String) : Option Folder :=
  match f.find? path with
  | some (.folder items) => some items
  | _ => none

def contentAt? (f : Folder) (path : List String) : Option (List UInt8) :=
  match f.find? path with
  | some (.file content) => some content
  | _ => none

/-! ## Changes -/

def write (f : Folder) (path : List String) (content : List UInt8) : Folder :=
  putAt (.file content) (f.resolve path) f

def make (f : Folder) (path : List String) : Folder :=
  let real := f.resolve path
  match itemAt? real f with
  | some _ => f
  | none => putAt (.folder []) real f

/-- The place of a path whose last name is not followed. -/
def place (f : Folder) (path : List String) : List String :=
  f.resolve path.dropLast ++ path.drop (path.length - 1)

def remove (f : Folder) (path : List String) : Folder := dropAt (f.place path) f

def link (f : Folder) (path target : List String) : Folder := putAt (.link target) (f.place path) f

/-! ## Notes -/

def isHidden (name : String) : Bool := name.toList.head? == some '.'

def isNoteName (name : String) : Bool := Text.startsWith ['d', 'm', '.'] name.toList.reverse

mutual

/-- The notes of an item by their paths, where `name` is the path of the item. -/
def notesOfItem (name : String) : FolderItem → List (String × List UInt8)
  | .file content => if isNoteName name then [(name, content)] else []
  | .folder items => notesOfItems (name ++ "/") items
  | .link _ => []

/-- The notes of items with their paths after `before`. Hidden names are passed over. -/
def notesOfItems (before : String) : List (String × FolderItem) → List (String × List UInt8)
  | [] => []
  | (name, item) :: items =>
    (if isHidden name then [] else notesOfItem (before ++ name) item) ++ notesOfItems before items

end

/-- The public notes of a folder in the order of their paths. Links are not followed. -/
def notes (f : Folder) : List (String × List UInt8) :=
  ((notesOfItems "" f).filter fun note => !Note.isPrivatePath note.1).mergeSort fun a b => a.1 ≤ b.1

end Folder

end NoteQuery

import NoteQuery.Json
import NoteQuery.Text.Quoted

/-!
# The status of an index

How the last indexing run of a vault went.
-/

namespace NoteQuery

inductive IndexState
  | pending
  | indexing
  | completed
  | failed
  deriving DecidableEq

namespace IndexState

def text : IndexState → String
  | .pending => "pending"
  | .indexing => "indexing"
  | .completed => "completed"
  | .failed => "failed"

def ofText? (s : String) : Option IndexState :=
  [IndexState.pending, .indexing, .completed, .failed].find? (·.text = s)

end IndexState

/-- The counts of a run, its error message, and when it began and ended. -/
structure IndexStatus where
  state : IndexState
  total : Int
  indexed : Int
  failed : Int
  message : Option String
  startedAt : Option String
  completedAt : Option String
  deriving DecidableEq

namespace IndexStatus

def initial : IndexStatus := ⟨.pending, 0, 0, 0, none, none, none⟩

def isReady (s : IndexStatus) : Bool := s.state == .completed

def start (total : Int) (now : String) (_ : IndexStatus) : IndexStatus :=
  ⟨.indexing, total, 0, 0, none, some now, none⟩

def progress (indexed failed : Int) (s : IndexStatus) : IndexStatus := { s with indexed, failed }

def complete (indexed failed : Int) (now : String) (s : IndexStatus) : IndexStatus :=
  { s with state := .completed, indexed, failed, completedAt := some now }

def fail (message now : String) (s : IndexStatus) : IndexStatus :=
  { s with state := .failed, message := some message, completedAt := some now }

def setState (state : IndexState) (s : IndexStatus) : IndexStatus := { s with state }

/-- Whether its counts fit in the columns of the table, which are signed and of 64 bits. -/
def isStorable (s : IndexStatus) : Bool :=
  [s.total, s.indexed, s.failed].all fun n => -0x8000000000000000 ≤ n && n < 0x8000000000000000

def optionalText (s : Option String) : Json := (s.map Json.text).getD .null

def toJson (s : IndexStatus) : Json :=
  .object [("status", .text s.state.text), ("total_files", .int s.total), ("indexed_files", .int s.indexed),
    ("failed_files", .int s.failed), ("error_message", optionalText s.message),
    ("started_at", optionalText s.startedAt), ("completed_at", optionalText s.completedAt)]

def summary (s : IndexStatus) : String :=
  s.state.text ++ ": " ++ toString s.indexed ++ "/" ++ toString s.total ++ " files" ++
    (if s.failed = 0 then "" else ", " ++ toString s.failed ++ " failed") ++
    (match s.completedAt.filter (· ≠ "") with
    | some time => " (at " ++ time ++ ")"
    | none => "") ++
    (match s.message.filter (· ≠ "") with
    | some message => "\nerror: " ++ message
    | none => "")

end IndexStatus

end NoteQuery

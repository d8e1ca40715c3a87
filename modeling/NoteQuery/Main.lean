import NoteQuery.CommandLine
import NoteQuery.Yaml.Content
import NoteQuery.Folder.Archive

/-!
# The program

Reads notes as an archive from the standard input and runs commands on them, one after the
other, with the word `then` between them. What the archive holds before its first note is the
input of the commands. Nothing is kept between runs of the program.
-/

open NoteQuery

partial def readRest (input : IO.FS.Stream) (read : String) : IO String := do
  let line ← input.getLine
  if line.isEmpty then return read else readRest input (read ++ line)

def surroundings (input : String) : IO CommandLine.Environment := do
  let user := (← IO.getEnv "USER").getD "local"
  return {
    home := (← IO.getEnv "HOME").getD "/"
    storePath := ← IO.getEnv "VAULTQUERY_STORE_PATH"
    user
    now := (← IO.getEnv "NOW").getD "1970-01-01T00:00:00+00:00"
    folder := []
    input }

def main (args : List String) : IO UInt32 := do
  let archive := Archive.read (← readRest (← IO.getStdin) "")
  let env ← surroundings archive.loose
  let outputs := CommandLine.runAll env (CommandLine.commandsOf args) ⟨archive.folder, []⟩
  for o in outputs do
    (← IO.getStdout).putStr o.out
    (← IO.getStderr).putStr o.err
  return (CommandLine.exitOf outputs).toUInt32

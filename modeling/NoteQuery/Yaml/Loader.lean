import NoteQuery.Yaml.Fault

/-!
# YAML loaders

What a process reads blocks of YAML with. Loaders of two processes may list the items of one set
in different orders.
-/

namespace NoteQuery.Yaml

class Loader where
  load : List Char → Except Fault Value

export Loader (load)

end NoteQuery.Yaml

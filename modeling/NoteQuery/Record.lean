import NoteQuery.Value.Basic

/-!
# Records

What is known of one note: its path and name, the hash of its content, its tags, links and
front matter, and whether it is private.
-/

namespace NoteQuery

/-- One indexed vault: a branch of a repository, per user. -/
structure VaultKey where
  user : String
  owner : String
  repo : String
  branch : String
  deriving DecidableEq

namespace VaultKey

def text (key : VaultKey) : String := key.owner ++ "/" ++ key.repo ++ "@" ++ key.branch

end VaultKey

structure WikiLink where
  target : String
  display : Option String
  isEmbed : Bool
  deriving DecidableEq

structure Record where
  path : String
  name : String
  sha : String
  tags : List String
  links : List WikiLink
  frontMatter : Entries
  isPrivate : Bool
  deriving Inhabited

end NoteQuery

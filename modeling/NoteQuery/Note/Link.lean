import NoteQuery.Record
import NoteQuery.Text.Segment

/-!
# Links in notes

A link names its target between double brackets, with a display text after a bar. An
exclamation mark before it embeds the target.
-/

namespace NoteQuery.Note

def trimmed (cs : List Char) : String := String.ofList (Text.trim cs)

def linkEnd? (cs : List Char) : Option (Option String × List Char) :=
  match cs with
  | '|' :: cs =>
    let (display, rest) := cs.span (· != ']')
    if display.isEmpty then none
    else (Text.after? [']', ']'] rest).map fun rest => (some (trimmed display), rest)
  | cs => (Text.after? [']', ']'] cs).map fun rest => (none, rest)

def bracketed? (isEmbed : Bool) (cs : List Char) : Option (WikiLink × List Char) := do
  let inner ← Text.after? ['[', '['] cs
  let (target, rest) := inner.span fun c => c != ']' && c != '|'
  if target.isEmpty then none
  else
    let (display, rest) ← linkEnd? rest
    some (⟨trimmed target, display, isEmbed⟩, rest)

def link? : List Char → Option (WikiLink × List Char)
  | '!' :: cs => bracketed? true cs
  | cs => bracketed? false cs

/-- The links of a text in order. The first argument bounds the number of steps. -/
def linksFrom : Nat → List Char → List WikiLink
  | 0, _ => []
  | _ + 1, [] => []
  | steps + 1, c :: cs =>
    match link? (c :: cs) with
    | some (link, rest) => link :: linksFrom steps rest
    | none => linksFrom steps cs

def links (cs : List Char) : List WikiLink := linksFrom cs.length cs

end NoteQuery.Note

import NoteQuery.Value.Text

/-!
# Values without a text

A value has no text where an integer in it has more digits than are written, and where it contains
itself. Equality, order and containment meet this as far as they look at texts.
-/

namespace NoteQuery.Value

inductive TextFault
  | digits
  | endless
  deriving DecidableEq

def TextFault.message : TextFault → String
  | .digits =>
    "Exceeds the limit (" ++ toString Text.maxDigits ++
      " digits) for integer string conversion; use sys.set_int_max_str_digits() to increase the limit"
  | .endless => "maximum recursion depth exceeded"

def digitsFault (isLong : Bool) : Option TextFault := if isLong then some .digits else none

mutual

/-- Whether the document of a value holds an integer too long to be written. Of several entries
whose keys have one text only the last is part of it. -/
def documentHasLong : Value → Bool
  | .int n => Text.isLong n
  | .list items => documentItemsHaveLong items
  | .map entries => documentEntriesHaveLong entries
  | .set items => itemsHaveLong items
  | _ => false

def documentItemsHaveLong : List Value → Bool
  | [] => false
  | item :: items => documentHasLong item || documentItemsHaveLong items

def documentEntriesHaveLong : List (Value × Value) → Bool
  | [] => false
  | (key, value) :: entries =>
    (!(entries.any fun other => other.1.toText == key.toText) && documentHasLong value) ||
      documentEntriesHaveLong entries

end

mutual

/-- Why a value has no text. The keys of a map are written first, at every depth, and then its
document. -/
def textFault? : Value → Option TextFault
  | .int n => digitsFault (Text.isLong n)
  | .list items => itemsFault? items
  | .map entries => (entriesFault? entries).or (digitsFault (documentEntriesHaveLong entries))
  | .set items => digitsFault (itemsHaveLong items)
  | .loop _ => some .endless
  | _ => none

def itemsFault? : List Value → Option TextFault
  | [] => none
  | item :: items => (textFault? item).or (itemsFault? items)

def keysFault? : Value → Option TextFault
  | .list items => itemKeysFault? items
  | .map entries => entriesFault? entries
  | .loop _ => some .endless
  | _ => none

def itemKeysFault? : List Value → Option TextFault
  | [] => none
  | item :: items => (keysFault? item).or (itemKeysFault? items)

def entriesFault? : List (Value × Value) → Option TextFault
  | [] => none
  | (key, value) :: entries => ((textFault? key).or (keysFault? value)).or (entriesFault? entries)

end

end NoteQuery.Value

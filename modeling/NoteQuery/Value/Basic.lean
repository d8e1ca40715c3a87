import NoteQuery.Number.Basic
import NoteQuery.Number.Read
import NoteQuery.Text.Case
import NoteQuery.Time

/-!
# Values

What a field of a note can hold, what a query compares it with, and what a table cell shows.
Fields that a note does not have are `missing`, which differs from an explicit `null`.
-/

namespace NoteQuery

/-- A value. Maps keep the order of their entries, and their keys are values too. -/
inductive Value
  | missing
  | null
  | bool (b : Bool)
  | int (n : Int)
  | float (x : Float)
  | text (s : String)
  /-- A tuple is a list that differs from others in its literal form alone. -/
  | list {isTuple : Bool} (items : List Value)
  | map (entries : List (Value × Value))
  /-- A note, by its path; the name is for display. -/
  | link (path name : String)
  | date (d : Date)
  | dateTime (t : DateTime)
  | bytes (bs : List UInt8)
  | set (items : List Value)
  /-- A collection that encloses this place: a map or a list. -/
  | loop (isMap : Bool)
  deriving Inhabited

abbrev Entries := List (Value × Value)

namespace Value

abbrev seq (items : List Value) : Value := @list false items

def isAbsent : Value → Bool
  | .missing | .null => true
  | _ => false

/-- The number that a value is. Truth values are not numbers. -/
def number? : Value → Option Number
  | .int n => some (.int n)
  | .float x => some (.float x)
  | _ => none

def isNumber (v : Value) : Bool := v.number?.isSome

def textNumber? (s : String) : Option Number :=
  ((Number.readFloat? s.toList).filter (!Number.isNaN ·)).map .float

/-- The number that a value stands for: a truth value for one or zero, a text for the number
that it writes. NaN stands for no number. -/
def asNumber? : Value → Option Number
  | .bool b => some (.float (Number.ofRatio false b.toNat 1))
  | .int n => some (.int n)
  | .float x => if Number.isNaN x then none else some (.float x)
  | .text s => textNumber? s
  | _ => none

def ofNumber : Number → Value
  | .int n => .int n
  | .float x => .float x

/-- Texts that are read as false: a few words in any letter case, and blanks. -/
def isFalseWord (s : String) : Bool :=
  [['f', 'a', 'l', 's', 'e'], ['n', 'o'], ['0'], []].contains (Text.fold (Text.trim s.toList))

/-- The truth value that a value stands for. Lists are true even when empty. -/
def asBool : Value → Bool
  | .missing | .null => false
  | .bool b => b
  | .int n => n != 0
  | .float x => Number.isNaN x || !Number.isFinite x || Number.magnitude x != 0
  | .text s => !isFalseWord s
  | .map entries => !entries.isEmpty
  | .bytes bs => !bs.isEmpty
  | .set items => !items.isEmpty
  | _ => true

/-- The number that decides whether two keys are the same; truth values count. -/
def keyNumber? : Value → Option Number
  | .bool b => some (.int b.toNat)
  | .int n => some (.int n)
  | .float x => some (.float x)
  | _ => none

def sameKey : Value → Value → Bool
  | .text s, .text t => s == t
  | .missing, .missing | .null, .null => true
  | .link p n, .link q m => p == q && n == m
  | .date d, .date e => d == e
  | .dateTime t, .dateTime u => t.same u
  | .bytes bs, .bytes cs => bs == cs
  | a, b =>
    match a.keyNumber?, b.keyNumber? with
    | some m, some n => m.same n
    | _, _ => false

end Value

namespace Entries

/-- Binds a key, in its old place if it is bound already. -/
def insert (key value : Value) : Entries → Entries
  | [] => [(key, value)]
  | (k, v) :: rest =>
    if k.sameKey key then (k, value) :: rest else (k, v) :: insert key value rest

def ofList (entries : List (Value × Value)) : Entries :=
  entries.foldl (fun done (k, v) => insert k v done) []

def isKey (name : String) : Value → Bool
  | .text s => s == name
  | _ => false

def get? (entries : Entries) (name : String) : Option Value :=
  (entries.find? fun entry => isKey name entry.1).map (·.2)

def erase (entries : Entries) (name : String) : Entries :=
  entries.filter fun entry => !isKey name entry.1

/-! ## Look-ups after changes -/

theorem sameKey_text (k : Value) (name : String) : k.sameKey (.text name) = isKey name k := by
  cases k <;> simp [Value.sameKey, isKey, Value.keyNumber?]

theorem get?_insert_self (name : String) (v : Value) : ∀ entries : Entries,
    get? (insert (.text name) v entries) name = some v
  | [] => by simp [insert, get?, isKey]
  | (k, w) :: rest => by
    have ih := get?_insert_self name v rest
    unfold insert
    rw [sameKey_text]
    split
    · rename_i h; simp [get?, h]
    · rename_i h; simp only [get?] at ih; simp [get?, h, ih]

theorem isKey_of_ne {name other : String} (hne : other ≠ name) {k : Value} (h : isKey name k = true) :
    isKey other k = false := by
  cases k <;> simp_all [isKey]
  exact Ne.symm hne

theorem get?_insert_of_ne {name other : String} (hne : other ≠ name) (v : Value) : ∀ entries : Entries,
    get? (insert (.text name) v entries) other = get? entries other
  | [] => by simp [insert, get?, isKey, Ne.symm hne]
  | (k, w) :: rest => by
    have ih := get?_insert_of_ne hne v rest
    unfold insert
    rw [sameKey_text]
    split
    · rename_i h
      simp [get?, isKey_of_ne hne h]
    · simp only [get?] at ih
      cases hk : isKey other k <;> simp [get?, hk, ih]

theorem get?_erase_self (entries : Entries) (name : String) : get? (erase entries name) name = none := by
  simp [get?, erase, List.find?_filter]

theorem get?_erase_of_ne (entries : Entries) {name other : String} (hne : other ≠ name) :
    get? (erase entries name) other = get? entries other := by
  have h : (fun entry : Value × Value => !isKey name entry.1 && isKey other entry.1) =
      fun entry => isKey other entry.1 := by
    funext entry
    cases hk : isKey name entry.1 with
    | true => simp [isKey_of_ne hne hk]
    | false => rfl
  simp [get?, erase, List.find?_filter, h]

end Entries

end NoteQuery

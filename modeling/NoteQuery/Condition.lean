import NoteQuery.Query.Basic
import NoteQuery.Record.Field
import NoteQuery.Value.Fault

/-!
# Conditions

Comparisons of a field's value with a literal. They coerce: two numbers, or texts that write
numbers, compare as numbers, and whatever does not fit compares as text. An absent value is
unequal to everything and satisfies nothing else.
-/

namespace NoteQuery

namespace Value

/-- Equality of values that are no lists. Two texts are equal up to letter case. -/
def scalarEquals (value literal : Value) : Bool :=
  match value, literal with
  | .text s, .text t => Text.fold s.toList == Text.fold t.toList
  | _, _ =>
    if value.isNumber || literal.isNumber then
      match value.asNumber?, literal.asNumber? with
      | some m, some n => m.same n
      | _, _ => false
    else
      match value, literal with
      | .bool b, _ => b == literal.asBool
      | _, .bool b => value.asBool == b
      | _, _ => value.toText == literal.toText

mutual

/-- Loose equality. A list equals a literal when one of its items does that is not absent. -/
def equals (value literal : Value) : Bool :=
  match value with
  | .list items => anyEquals items literal
  | v => scalarEquals v literal

def anyEquals (items : List Value) (literal : Value) : Bool :=
  match items with
  | [] => false
  | item :: rest => (!item.isAbsent && equals item literal) || anyEquals rest literal

end

/-- The order of two values as numbers if both stand for one, otherwise of their texts. -/
def compareLoosely (value literal : Value) : Ordering :=
  match value.asNumber?, literal.asNumber? with
  | some m, some n => m.compare n
  | _, _ => compare value.toText literal.toText

/-- Whether the text of the literal occurs in that of the value, or of an item of a list, in
any letter case. -/
def contains (value literal : Value) : Bool :=
  let needle := Text.fold literal.toText.toList
  let holds (v : Value) : Bool := Text.occursIn needle (Text.fold v.toText.toList)
  match value with
  | .list items => items.any holds
  | v => holds v

/-! ## Texts that cannot be had -/

def scalarEqualsFault? (value literal : Value) : Option TextFault :=
  match value, literal with
  | .text _, .text _ => none
  | _, _ =>
    if value.isNumber || literal.isNumber then none
    else
      match value, literal with
      | .bool _, _ | _, .bool _ => none
      | _, _ => value.textFault?.or literal.textFault?

mutual

/-- The search of a list ends at the first item that equals the literal. -/
def equalsFault? (value literal : Value) : Option TextFault :=
  match value with
  | .list items => anyEqualsFault? items literal
  | .loop false => some .endless
  | v => scalarEqualsFault? v literal

def anyEqualsFault? (items : List Value) (literal : Value) : Option TextFault :=
  match items with
  | [] => none
  | item :: rest =>
    if item.isAbsent then anyEqualsFault? rest literal
    else
      (equalsFault? item literal).or
        (if equals item literal then none else anyEqualsFault? rest literal)

end

def compareFault? (value literal : Value) : Option TextFault :=
  match value.asNumber?, literal.asNumber? with
  | some _, some _ => none
  | _, _ => value.textFault?.or literal.textFault?

def anyContainsFault? (needle : List Char) : List Value → Option TextFault
  | [] => none
  | item :: rest =>
    item.textFault?.or
      (if Text.occursIn needle (Text.fold item.toText.toList) then none else anyContainsFault? needle rest)

def containsFault? (value literal : Value) : Option TextFault :=
  literal.textFault?.or
    (match value with
    | .list items => anyContainsFault? (Text.fold literal.toText.toList) items
    | v => v.textFault?)

end Value

namespace Operator

def holdsFor (value literal : Value) : Operator → Bool
  | .equal => value.equals literal
  | .unequal => !value.equals literal
  | .greater => (value.compareLoosely literal).isGT
  | .less => (value.compareLoosely literal).isLT
  | .atLeast => (value.compareLoosely literal).isGE
  | .atMost => (value.compareLoosely literal).isLE
  | .contains => value.contains literal
  | .unknown _ => false

def holds (op : Operator) (value literal : Value) : Bool :=
  if value.isAbsent then op == .unequal else op.holdsFor value literal

def fault? (op : Operator) (value literal : Value) : Option Value.TextFault :=
  if value.isAbsent then none
  else
    match op with
    | .equal | .unequal => value.equalsFault? literal
    | .greater | .less | .atLeast | .atMost => value.compareFault? literal
    | .contains => value.containsFault? literal
    | .unknown _ => none

def test (op : Operator) (value literal : Value) : Except Value.TextFault Bool :=
  match op.fault? value literal with
  | some fault => .error fault
  | none => .ok (op.holds value literal)

theorem test_eq_ok {op : Operator} {value literal : Value} {b : Bool} :
    op.test value literal = .ok b ↔ op.fault? value literal = none ∧ op.holds value literal = b := by
  unfold test
  cases op.fault? value literal <;> simp

theorem exists_test_eq_ok {op : Operator} {value literal : Value} :
    (∃ b, op.test value literal = .ok b) ↔ op.fault? value literal = none := by
  simp [test_eq_ok]

end Operator

namespace Condition

def matchesRecord (c : Condition) (r : Record) : Bool := c.operator.holds (r.resolve c.field) c.literal

def fault? (c : Condition) (r : Record) : Option Value.TextFault := c.operator.fault? (r.resolve c.field) c.literal

end Condition

end NoteQuery

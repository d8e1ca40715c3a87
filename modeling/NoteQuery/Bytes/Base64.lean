/-!
# Base 64

Decoding of data in the base 64 alphabet, with other characters skipped.
-/

namespace NoteQuery.Bytes

inductive Base64Fault
  /-- One digit more than whole bytes need; the number of digits. -/
  | extraDigit (count : Nat)
  | padding

def Base64Fault.message : Base64Fault → String
  | .extraDigit n =>
    "Invalid base64-encoded string: number of data characters (" ++ toString n ++
      ") cannot be 1 more than a multiple of 4"
  | .padding => "Incorrect padding"

def base64Digit? (c : Char) : Option Nat :=
  if 'A' ≤ c && c ≤ 'Z' then some (c.toNat - 65)
  else if 'a' ≤ c && c ≤ 'z' then some (c.toNat - 71)
  else if c.isDigit then some (c.toNat + 4)
  else if c == '+' then some 62
  else if c == '/' then some 63
  else none

/-- The bytes of digits in groups of four; `place` digits of the group at hand make `held`,
and `pads` padding signs were met since the last digit. Padding that completes a group ends
the data. -/
def base64From : (place held pads count : Nat) → List Char → Except Base64Fault (List UInt8)
  | place, _, _, count, [] =>
    if place = 0 then .ok [] else if place = 1 then .error (.extraDigit count) else .error .padding
  | place, held, pads, count, c :: cs =>
    if c == '=' then
      if 2 ≤ place ∧ 4 ≤ place + (pads + 1) then .ok []
      else base64From place held (if 2 ≤ place then pads + 1 else pads) count cs
    else
      match base64Digit? c with
      | none => base64From place held pads count cs
      | some d =>
        match place with
        | 0 => base64From 1 d 0 (count + 1) cs
        | 1 => (base64From 2 (d % 16) 0 (count + 1) cs).map (UInt8.ofNat (held * 4 + d / 16) :: ·)
        | 2 => (base64From 3 (d % 4) 0 (count + 1) cs).map (UInt8.ofNat (held * 16 + d / 4) :: ·)
        | _ => (base64From 0 0 0 (count + 1) cs).map (UInt8.ofNat (held * 64 + d) :: ·)

def decodeBase64 (cs : List Char) : Except Base64Fault (List UInt8) := base64From 0 0 0 0 cs

end NoteQuery.Bytes

import NoteQuery.Text.Word

/-!
# Dates and date-times

Days of the Gregorian calendar from year 1 to 9999, and points of time on a day, with or
without an offset from universal time.
-/

namespace NoteQuery

structure Date where
  year : Nat
  month : Nat
  day : Nat
  deriving DecidableEq

structure Clock where
  hour : Nat
  minute : Nat
  second : Nat
  micro : Nat
  deriving DecidableEq

/-- A date and a clock time; `offset` is in minutes east of universal time. -/
structure DateTime where
  date : Date
  clock : Clock
  offset : Option Int
  deriving DecidableEq

inductive TimeFault
  | year (n : Nat)
  | month
  | day
  | hour
  | minute
  | second
  | offset (minutes : Int)

namespace Date

def isLeapYear (y : Nat) : Bool := y % 4 == 0 && (y % 100 != 0 || y % 400 == 0)

def daysIn (y m : Nat) : Nat :=
  if m = 2 then (if isLeapYear y then 29 else 28)
  else if m = 4 ∨ m = 6 ∨ m = 9 ∨ m = 11 then 30
  else 31

def of (year month day : Nat) : Except TimeFault Date :=
  if year = 0 ∨ 9999 < year then .error (.year year)
  else if month = 0 ∨ 12 < month then .error .month
  else if day = 0 ∨ daysIn year month < day then .error .day
  else .ok ⟨year, month, day⟩

/-- Days since the first of January of year 1. -/
def dayNumber (d : Date) : Nat :=
  let y := d.year - 1
  let before := (List.range (d.month - 1)).foldl (fun days m => days + daysIn d.year (m + 1)) 0
  y * 365 + y / 4 - y / 100 + y / 400 + before + (d.day - 1)

def chars (d : Date) : List Char :=
  Text.padded 4 d.year ++ '-' :: Text.padded 2 d.month ++ '-' :: Text.padded 2 d.day

def text (d : Date) : String := String.ofList d.chars

end Date

namespace Clock

def of (hour minute second micro : Nat) : Except TimeFault Clock :=
  if 23 < hour then .error .hour
  else if 59 < minute then .error .minute
  else if 59 < second then .error .second
  else .ok ⟨hour, minute, second, micro⟩

/-- Microseconds are written, in six places, only when there are any. -/
def chars (t : Clock) : List Char :=
  Text.padded 2 t.hour ++ ':' :: Text.padded 2 t.minute ++ ':' :: Text.padded 2 t.second ++
    (if t.micro = 0 then [] else '.' :: Text.padded 6 t.micro)

def text (t : Clock) : String := String.ofList t.chars

def micros (t : Clock) : Nat := ((t.hour * 60 + t.minute) * 60 + t.second) * 1000000 + t.micro

end Clock

namespace DateTime

def offsetChars (minutes : Int) : List Char :=
  (if minutes < 0 then '-' else '+') ::
    Text.padded 2 (minutes.natAbs / 60) ++ ':' :: Text.padded 2 (minutes.natAbs % 60)

def chars (t : DateTime) : List Char :=
  t.date.chars ++ ' ' :: t.clock.chars ++
    (match t.offset with
    | none => []
    | some minutes => offsetChars minutes)

def text (t : DateTime) : String := String.ofList t.chars

/-- The point of time in microseconds, by the clock or, with an offset, in universal time. -/
def instant (t : DateTime) : Int :=
  (t.date.dayNumber * 86400000000 + t.clock.micros : Nat) - t.offset.getD 0 * 60000000

/-- Two date-times with offsets are the same when they name one instant; two without, when
they read the same; one of each never. -/
def same (a b : DateTime) : Bool := a.offset.isSome == b.offset.isSome && a.instant == b.instant

end DateTime

end NoteQuery

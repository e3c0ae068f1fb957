import FaultSnapshot.Text.Blank
import FaultSnapshot.Text.Numeral

/-!
# Points in time

A point in time is a date and a time of day in UTC, to the nanosecond; the sixtieth second is a
leap second. It is written as RFC 3339 demands, with as few of 0, 3, 6 or 9 digits of the second as
are exact. It is read with any offset of whole minutes, which is taken off, and with blanks between
the parts.
-/

namespace FaultSnapshot

def isLeapYear (year : Int) : Bool := year % 4 == 0 && (year % 100 != 0 || year % 400 == 0)

def daysInMonth (year : Int) (month : Nat) : Nat :=
  match month with
  | 2 => if isLeapYear year then 29 else 28
  | 4 => 30
  | 6 => 30
  | 9 => 30
  | 11 => 30
  | _ => 31

/-- A day of the Gregorian calendar, carried on into the past. -/
structure Date where
  year : Int
  month : Nat
  day : Nat
  deriving DecidableEq, Repr

namespace Date

/-- The day exists and its year is one the calendar holds. -/
def Valid (d : Date) : Prop :=
  -262143 ≤ d.year ∧ d.year ≤ 262142 ∧ 1 ≤ d.month ∧ d.month ≤ 12 ∧ 1 ≤ d.day ∧
    d.day ≤ daysInMonth d.year d.month

instance (d : Date) : Decidable d.Valid := inferInstanceAs (Decidable (_ ∧ _))

def next (d : Date) : Date :=
  if d.day < daysInMonth d.year d.month then { d with day := d.day + 1 }
  else if d.month < 12 then { d with month := d.month + 1, day := 1 }
  else ⟨d.year + 1, 1, 1⟩

def previous (d : Date) : Date :=
  if 1 < d.day then { d with day := d.day - 1 }
  else if 1 < d.month then { d with month := d.month - 1, day := daysInMonth d.year (d.month - 1) }
  else ⟨d.year - 1, 12, 31⟩

end Date

/-- A time of day; the sixtieth second is a leap second. -/
structure TimeOfDay where
  hour : Nat
  minute : Nat
  second : Nat
  nano : Nat
  deriving DecidableEq, Repr

def TimeOfDay.Valid (t : TimeOfDay) : Prop := t.hour < 24 ∧ t.minute < 60 ∧ t.second ≤ 60 ∧ t.nano < 1000000000

instance (t : TimeOfDay) : Decidable t.Valid := inferInstanceAs (Decidable (_ ∧ _))

/-- A point in time, in UTC. -/
structure Instant where
  date : Date
  time : TimeOfDay
  valid : date.Valid ∧ time.Valid
  deriving DecidableEq

namespace Instant

/-- The point in time of a date and a time of day, if both exist. -/
def of? (date : Date) (time : TimeOfDay) : Option Instant :=
  if h : date.Valid ∧ time.Valid then some ⟨date, time, h⟩ else none

/-- A local date and time of day, with an offset of whole minutes taken off. -/
def ofLocal? (date : Date) (time : TimeOfDay) (offset : Int) : Option Instant :=
  if date.Valid ∧ time.Valid then
    let minutes : Int := time.hour * 60 + time.minute - offset
    let date := if minutes < 0 then date.previous else if 1440 ≤ minutes then date.next else date
    let minutes := (minutes % 1440).toNat
    of? date { time with hour := minutes / 60, minute := minutes % 60 }
  else none

/-! ## Writing -/

/-- The last `width` decimal digits of a number. -/
def padded (n : Nat) : Nat → List Char
  | 0 => []
  | width + 1 => padded (n / 10) width ++ [Nat.digitChar (n % 10)]

/-- A year with four digits, or with its sign where it needs more or is negative. -/
def yearChars (year : Int) : List Char :=
  if 0 ≤ year ∧ year ≤ 9999 then padded year.toNat 4
  else
    let digits := Nat.toDigits 10 year.natAbs
    (if year < 0 then '-' else '+') :: (List.replicate (4 - digits.length) '0' ++ digits)

/-- The digits of the second after the point. -/
def fractionChars (nano : Nat) : List Char :=
  if nano = 0 then []
  else if nano % 1000000 = 0 then '.' :: padded (nano / 1000000) 3
  else if nano % 1000 = 0 then '.' :: padded (nano / 1000) 6
  else '.' :: padded nano 9

/-- The characters of the written form. -/
def chars (t : Instant) : List Char :=
  yearChars t.date.year ++ '-' :: padded t.date.month 2 ++ '-' :: padded t.date.day 2 ++
    'T' :: padded t.time.hour 2 ++ ':' :: padded t.time.minute 2 ++ ':' :: padded t.time.second 2 ++
    fractionChars t.time.nano ++ ['Z']

def text (t : Instant) : String := String.ofList t.chars

/-! ## Reading -/

def skipBlanks (cs : List Char) : List Char := cs.dropWhile Text.isBlank

/-- Reads at least one and at most `most` digits after blanks. -/
def readNumber? (most : Nat) (cs : List Char) : Option (Nat × List Char) :=
  let cs := skipBlanks cs
  let digits := (cs.take most).takeWhile Char.isDigit
  if digits = [] then none else some (Text.digitsValue digits, cs.drop digits.length)

/-- Reads a year: four digits, or any number of them after a sign. -/
def readYear? (cs : List Char) : Option (Int × List Char) :=
  match skipBlanks cs with
  | '-' :: r =>
    match r.takeWhile Char.isDigit with
    | [] => none
    | ds => some (-(Text.digitsValue ds : Int), r.dropWhile Char.isDigit)
  | '+' :: r =>
    match r.takeWhile Char.isDigit with
    | [] => none
    | ds => some ((Text.digitsValue ds : Int), r.dropWhile Char.isDigit)
  | r => (readNumber? 4 r).map fun p => ((p.1 : Int), p.2)

/-- Passes one given character after blanks. -/
def pass? (c : Char) (cs : List Char) : Option (List Char) :=
  match skipBlanks cs with
  | d :: r => if d = c then some r else none
  | [] => none

/-- Reads the digits of the second after a point; those after the ninth do not count. -/
def readFraction? (cs : List Char) : Option (Nat × List Char) :=
  match cs with
  | '.' :: r =>
    match r.takeWhile Char.isDigit with
    | [] => none
    | ds =>
      let kept := ds.take 9
      some (Text.digitsValue (kept ++ List.replicate (9 - kept.length) '0'), r.dropWhile Char.isDigit)
  | r => some (0, r)

def readPair? (cs : List Char) : Option (Nat × List Char) :=
  match cs with
  | a :: b :: r => if a.isDigit ∧ b.isDigit then some (Text.digitsValue [a, b], r) else none
  | _ => none

/-- Reads hours and minutes with colons or blanks between them, in minutes. -/
def readSpan? (cs : List Char) : Option (Nat × List Char) := do
  let (hours, r) ← readPair? cs
  let (minutes, r) ← readPair? (r.dropWhile fun c => c = ':' || Text.isBlank c)
  if hours < 24 ∧ minutes < 60 then some (hours * 60 + minutes, r) else none

/-- Reads an offset from UTC, in minutes. -/
def readOffset? (cs : List Char) : Option (Int × List Char) :=
  match cs with
  | 'Z' :: r => some (0, r)
  | 'z' :: r => some (0, r)
  | '+' :: r => (readSpan? r).map fun p => ((p.1 : Int), p.2)
  | '-' :: r => (readSpan? r).map fun p => (-(p.1 : Int), p.2)
  | '\u2212' :: r => (readSpan? r).map fun p => (-(p.1 : Int), p.2)
  | c :: d :: e :: r => if [c.toUpper, d.toUpper, e.toUpper] = ['U', 'T', 'C'] then some (0, r) else none
  | _ => none

/-- Passes the character between date and time of day. -/
def passDivider? : List Char → Option (List Char)
  | 'T' :: r => some r
  | 't' :: r => some r
  | ' ' :: r => some r
  | _ => none

/-- Reads a date, a time of day and an offset. -/
def readChars? (cs : List Char) : Option Instant := do
  let (year, r) ← readYear? cs
  let (month, r) ← readNumber? 2 (← pass? '-' r)
  let (day, r) ← readNumber? 2 (← pass? '-' r)
  let (hour, r) ← readNumber? 2 (← passDivider? r)
  let (minute, r) ← readNumber? 2 (← pass? ':' r)
  let (second, r) ← readNumber? 2 (← pass? ':' r)
  let (nano, r) ← readFraction? r
  let (offset, r) ← readOffset? (skipBlanks r)
  if skipBlanks r = [] then ofLocal? ⟨year, month, day⟩ ⟨hour, minute, second, nano⟩ offset else none

/-- Reads a date, a time of day and an offset. -/
def read? (s : String) : Option Instant := readChars? s.toList

end Instant

end FaultSnapshot

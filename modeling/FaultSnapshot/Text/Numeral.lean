/-!
# Numerals

Reading of decimal numerals: one or more ASCII digits, after a sign where one is allowed.
-/

namespace FaultSnapshot.Text

/-- The value of a row of digits, the most significant first. -/
def digitsValue (ds : List Char) : Nat := ds.foldl (fun n d => 10 * n + (d.toNat - '0'.toNat)) 0

/-- One or more digits and nothing else. -/
def readDigits? (cs : List Char) : Option Nat :=
  if cs ≠ [] ∧ cs.all Char.isDigit then some (digitsValue cs) else none

/-- Digits after an optional plus, with a value of at most `bound`. -/
def readUnsigned? (bound : Nat) (cs : List Char) : Option Nat :=
  let digits := match cs with
    | '+' :: ds => ds
    | ds => ds
  match readDigits? digits with
  | some n => if n ≤ bound then some n else none
  | none => none

/-- Digits after an optional sign, with a value that fits a signed word of 64 bits. -/
def readSigned? (cs : List Char) : Option Int :=
  match cs with
  | '-' :: ds =>
    match readDigits? ds with
    | some n => if n ≤ UInt64.size / 2 then some (-(n : Int)) else none
    | none => none
  | ds =>
    match readUnsigned? (UInt64.size / 2 - 1) ds with
    | some n => some (n : Int)
    | none => none

end FaultSnapshot.Text

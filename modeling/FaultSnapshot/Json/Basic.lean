import FaultSnapshot.Text.Numeral

/-!
# JSON values

A value as its text gives it: numbers keep their literal, members their order and repetitions, and
a string whose escapes name half of a surrogate pair is `none`.
-/

namespace FaultSnapshot

inductive Json
  | null
  | bool (b : Bool)
  | number (literal : List Char)
  | string (s : Option String)
  | array (items : List Json)
  | object (members : List (Option String × Json))

namespace Json

/-- The number with the decimal digits of a count. -/
def ofNat (n : Nat) : Json := number (Nat.toDigits 10 n)

def ofString (s : String) : Json := string (some s)

def ofMembers (members : List (String × Json)) : Json := object (members.map fun m => (some m.1, m.2))

/-! ## Decoding -/

/-- A number of digits alone, with a value of at most `bound`. -/
def nat? (bound : Nat) : Json → Option Nat
  | number literal =>
    match Text.readDigits? literal with
    | some n => if n ≤ bound then some n else none
    | none => none
  | _ => none

def text? : Json → Option String
  | string s => s
  | _ => none

def orNull? {α : Type} (decode : Json → Option α) : Json → Option (Option α)
  | null => some none
  | j => (decode j).map some

/-- A name, as a string or as the only member of an object, with null under it. -/
def name? : Json → Option String
  | string s => s
  | object [(name, null)] => name
  | _ => none

/-- The values of the known names in an object: a known name stands at most once, other names do
    not count, and every name is text. -/
def membersOf? (known : List String) (members : List (Option String × Json)) : Option (List (Option Json)) :=
  if members.all fun m => m.1.isSome then
    known.mapM fun name =>
      match members.filter fun m => m.1 = some name with
      | [] => some none
      | [m] => some (some m.2)
      | _ => none
  else none

/-- The fields of a record: an object, or an array of all of them in their order. -/
def fields? (known : List String) : Json → Option (List (Option Json))
  | object members => membersOf? known members
  | array items => if items.length = known.length then some (items.map some) else none
  | _ => none

end Json

end FaultSnapshot

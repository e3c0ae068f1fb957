import FaultSnapshot.OrderedMap
import FaultSnapshot.Text.Quoted

/-!
# Data

Plain values and their inspected form: texts in quotes, lists in brackets, tuples in parentheses,
maps and records in braces.
-/

namespace FaultSnapshot

/-- A plain value. -/
inductive Data
  | integer (n : Int)
  | flag (b : Bool)
  | character (c : Char)
  | text (s : String)
  | list (items : List Data)
  | tuple (items : List Data)
  | map (pairs : List (Data × Data))
  | variant (name : String) (arguments : List Data)
  | record (name : String) (fields : List (String × Data))

namespace Data

mutual

def inspect : Data → String
  | integer n => toString n
  | flag b => if b then "true" else "false"
  | character c => Text.quotedChar c
  | text s => Text.quoted s
  | list items => "[" ++ inspectItems items ++ "]"
  | tuple items => "(" ++ inspectItems items ++ ")"
  | map [] => "\x7b\x7d"
  | map pairs => "\x7b" ++ inspectPairs pairs ++ "\x7d"
  | variant name [] => name
  | variant name arguments => name ++ "(" ++ inspectItems arguments ++ ")"
  | record name [] => name
  | record name fields => name ++ " \x7b " ++ inspectFields fields ++ " \x7d"

/-- Items with commas between them. -/
def inspectItems : List Data → String
  | [] => ""
  | [item] => inspect item
  | item :: rest => inspect item ++ ", " ++ inspectItems rest

/-- Keys and values with commas between the pairs. -/
def inspectPairs : List (Data × Data) → String
  | [] => ""
  | [(key, value)] => inspect key ++ ": " ++ inspect value
  | (key, value) :: rest => inspect key ++ ": " ++ inspect value ++ ", " ++ inspectPairs rest

/-- Names and values with commas between the fields. -/
def inspectFields : List (String × Data) → String
  | [] => ""
  | [(name, value)] => name ++ ": " ++ inspect value
  | (name, value) :: rest => name ++ ": " ++ inspect value ++ ", " ++ inspectFields rest

end

/-- The value that holds nothing. -/
def unit : Data := tuple []

/-- A value that may be absent. -/
def optional : Option Data → Data
  | some d => variant "Some" [d]
  | none => variant "None" []

/-- A map of texts to integers, in the order of the keys; of pairs with the same key the last counts. -/
def sortedMap (pairs : List (String × Int)) : Data :=
  map (((OrderedMap.ofList pairs).entries.mergeSort fun a b => a.1 ≤ b.1).map fun e => (text e.1, integer e.2))

end Data

end FaultSnapshot

import FaultSnapshot.Json.Basic

/-!
# Writing of JSON

The compact form has no blanks. The pretty form puts every item and member on a line of its own,
two spaces deeper than the bracket, and leaves empty brackets closed.
-/

namespace FaultSnapshot.Json

/-- A control character as an escape of four hexadecimal digits. -/
def controlEscape (c : Char) : List Char :=
  ['\\', 'u', '0', '0', Nat.digitChar (c.toNat / 16), Nat.digitChar (c.toNat % 16)]

/-- One character of a string. -/
def escape (c : Char) : List Char :=
  if c = '"' || c = '\\' then ['\\', c]
  else if c = '\x08' then ['\\', 'b']
  else if c = '\x0c' then ['\\', 'f']
  else if c = '\n' then ['\\', 'n']
  else if c = '\r' then ['\\', 'r']
  else if c = '\t' then ['\\', 't']
  else if c.toNat < 0x20 then controlEscape c
  else [c]

/-- The characters of a string between quotes. -/
def quote (s : String) : List Char := '"' :: s.toList.flatMap escape ++ ['"']

/-- A string; one that is no text is half of a surrogate pair. -/
def quote? : Option String → List Char
  | some s => quote s
  | none => "\"\\ud800\"".toList

def boolChars (b : Bool) : List Char := if b then "true".toList else "false".toList

mutual

def compact : Json → List Char
  | null => "null".toList
  | bool b => boolChars b
  | number literal => literal
  | string s => quote? s
  | array items => '[' :: compactItems items ++ [']']
  | object members => '\x7b' :: compactMembers members ++ ['\x7d']

/-- Items with commas between them. -/
def compactItems : List Json → List Char
  | [] => []
  | [item] => compact item
  | item :: rest => compact item ++ ',' :: compactItems rest

/-- Members with commas between them. -/
def compactMembers : List (Option String × Json) → List Char
  | [] => []
  | [(name, value)] => quote? name ++ ':' :: compact value
  | (name, value) :: rest => quote? name ++ ':' :: compact value ++ ',' :: compactMembers rest

end

def newLine (depth : Nat) : List Char := '\n' :: List.replicate (2 * depth) ' '

mutual

/-- The pretty form at a depth. -/
def pretty (depth : Nat) : Json → List Char
  | null => "null".toList
  | bool b => boolChars b
  | number literal => literal
  | string s => quote? s
  | array [] => ['[', ']']
  | array items => '[' :: prettyItems (depth + 1) items ++ newLine depth ++ [']']
  | object [] => ['\x7b', '\x7d']
  | object members => '\x7b' :: prettyMembers (depth + 1) members ++ newLine depth ++ ['\x7d']

/-- Items on lines of their own. -/
def prettyItems (depth : Nat) : List Json → List Char
  | [] => []
  | [item] => newLine depth ++ pretty depth item
  | item :: rest => newLine depth ++ pretty depth item ++ ',' :: prettyItems depth rest

/-- Members on lines of their own. -/
def prettyMembers (depth : Nat) : List (Option String × Json) → List Char
  | [] => []
  | [(name, value)] => newLine depth ++ quote? name ++ ':' :: ' ' :: pretty depth value
  | (name, value) :: rest =>
    newLine depth ++ quote? name ++ ':' :: ' ' :: pretty depth value ++ ',' :: prettyMembers depth rest

end

def compactText (j : Json) : String := String.ofList (compact j)

def prettyText (j : Json) : String := String.ofList (pretty 0 j)

end FaultSnapshot.Json

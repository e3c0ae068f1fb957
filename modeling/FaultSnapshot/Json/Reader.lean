import FaultSnapshot.Json.Basic

/-!
# Reading of JSON

The grammar of RFC 8259, read from the left. Each reader answers the value and the characters
after it. Nesting is bounded by the length of the text alone.
-/

namespace FaultSnapshot.Json

/-- The four characters that may stand between tokens. -/
def isSpace (c : Char) : Bool := c = ' ' || c = '\t' || c = '\n' || c = '\r'

/-- The characters after the spaces at the start. -/
def skipSpaces (cs : List Char) : List Char := cs.dropWhile isSpace

/-- The value of a hexadecimal digit in either case. -/
def hexValue? (c : Char) : Option Nat :=
  let n := c.toNat
  if 48 ≤ n ∧ n ≤ 57 then some (n - 48)
  else if 97 ≤ n ∧ n ≤ 102 then some (n - 87)
  else if 65 ≤ n ∧ n ≤ 70 then some (n - 55)
  else none

/-- The value of four hexadecimal digits. -/
def hexValues? (a b c d : Char) : Option Nat := do
  return (((← hexValue? a) * 16 + (← hexValue? b)) * 16 + (← hexValue? c)) * 16 + (← hexValue? d)

/-- The character of an escape of one letter. -/
def shortEscape? : Char → Option Char
  | '"' => some '"'
  | '\\' => some '\\'
  | '/' => some '/'
  | 'b' => some '\x08'
  | 'f' => some '\x0c'
  | 'n' => some '\n'
  | 'r' => some '\r'
  | 't' => some '\t'
  | _ => none

/-- The first half of a surrogate pair. -/
def isHighSurrogate (n : Nat) : Bool := 0xD800 ≤ n && n ≤ 0xDBFF

/-- The second half of a surrogate pair. -/
def isLowSurrogate (n : Nat) : Bool := 0xDC00 ≤ n && n ≤ 0xDFFF

def ofSurrogates (high low : Nat) : Char := Char.ofNat (0x10000 + (high - 0xD800) * 0x400 + (low - 0xDC00))

/-- Puts a character before the characters read after it. -/
def consChar (c : Char) : Option (Option (List Char) × List Char) → Option (Option (List Char) × List Char)
  | some (s, rest) => some (s.map (c :: ·), rest)
  | none => none

/-- Reads on after half of a surrogate pair: the string is no text, its end still counts. -/
def garble : Option (Option (List Char) × List Char) → Option (Option (List Char) × List Char)
  | some (_, rest) => some (none, rest)
  | none => none

/-- Reads the characters of a string up to its closing quote. -/
def readString : List Char → Option (Option (List Char) × List Char)
  | [] => none
  | '"' :: rest => some (some [], rest)
  | '\\' :: 'u' :: a :: b :: c :: d :: rest =>
    match hexValues? a b c d with
    | none => none
    | some high =>
      if isHighSurrogate high then
        match rest with
        | '\\' :: 'u' :: e :: f :: g :: h :: after =>
          match hexValues? e f g h with
          | none => none
          | some low =>
            if isLowSurrogate low then consChar (ofSurrogates high low) (readString after)
            else garble (readString ('\\' :: 'u' :: e :: f :: g :: h :: after))
        | rest => garble (readString rest)
      else if isLowSurrogate high then garble (readString rest)
      else consChar (Char.ofNat high) (readString rest)
  | '\\' :: c :: rest =>
    match shortEscape? c with
    | some d => consChar d (readString rest)
    | none => none
  | c :: rest => if c.toNat < 0x20 || c = '\\' then none else consChar c (readString rest)
termination_by cs => cs.length

def readDigits (cs : List Char) : Option (List Char × List Char) :=
  match cs.takeWhile Char.isDigit with
  | [] => none
  | ds => some (ds, cs.dropWhile Char.isDigit)

/-- Reads the digits before the point: a zero alone, or digits that do not start with zero. -/
def readWhole (cs : List Char) : Option (List Char × List Char) :=
  match readDigits cs with
  | some ('0' :: _ :: _, _) => none
  | other => other

/-- Reads the point and the digits after it, if there are any. -/
def readFraction : List Char → Option (List Char × List Char)
  | '.' :: rest => (readDigits rest).map fun p => ('.' :: p.1, p.2)
  | rest => some ([], rest)

/-- Reads the exponent, if there is one. -/
def readExponent : List Char → Option (List Char × List Char)
  | c :: rest =>
    if c = 'e' || c = 'E' then
      match rest with
      | '+' :: ds => (readDigits ds).map fun p => (c :: '+' :: p.1, p.2)
      | '-' :: ds => (readDigits ds).map fun p => (c :: '-' :: p.1, p.2)
      | ds => (readDigits ds).map fun p => (c :: p.1, p.2)
    else some ([], c :: rest)
  | [] => some ([], [])

/-- Reads a number without sign. -/
def readMagnitude (cs : List Char) : Option (List Char × List Char) := do
  let (whole, rest) ← readWhole cs
  let (fraction, rest) ← readFraction rest
  let (exponent, rest) ← readExponent rest
  return (whole ++ fraction ++ exponent, rest)

def readNumber : List Char → Option (List Char × List Char)
  | '-' :: rest => (readMagnitude rest).map fun p => ('-' :: p.1, p.2)
  | rest => readMagnitude rest

mutual

/-- Reads a value, with the nesting bounded. -/
def readValue : Nat → List Char → Option (Json × List Char)
  | 0, _ => none
  | depth + 1, cs =>
    match skipSpaces cs with
    | 'n' :: 'u' :: 'l' :: 'l' :: rest => some (null, rest)
    | 't' :: 'r' :: 'u' :: 'e' :: rest => some (bool true, rest)
    | 'f' :: 'a' :: 'l' :: 's' :: 'e' :: rest => some (bool false, rest)
    | '"' :: rest => (readString rest).map fun p => (string (p.1.map String.ofList), p.2)
    | '[' :: rest =>
      match skipSpaces rest with
      | ']' :: rest => some (array [], rest)
      | rest => (readItems depth rest).map fun p => (array p.1, p.2)
    | '\x7b' :: rest =>
      match skipSpaces rest with
      | '\x7d' :: rest => some (object [], rest)
      | rest => (readMembers depth rest).map fun p => (object p.1, p.2)
    | rest => (readNumber rest).map fun p => (number p.1, p.2)

/-- Reads the items of an array and its closing bracket. -/
def readItems : Nat → List Char → Option (List Json × List Char)
  | 0, _ => none
  | depth + 1, cs =>
    match readValue depth cs with
    | none => none
    | some (item, rest) =>
      match skipSpaces rest with
      | ',' :: rest => (readItems depth rest).map fun p => (item :: p.1, p.2)
      | ']' :: rest => some ([item], rest)
      | _ => none

/-- Reads the members of an object and its closing bracket. -/
def readMembers : Nat → List Char → Option (List (Option String × Json) × List Char)
  | 0, _ => none
  | depth + 1, cs =>
    match skipSpaces cs with
    | '"' :: rest =>
      match readString rest with
      | none => none
      | some (name, rest) =>
        match skipSpaces rest with
        | ':' :: rest =>
          match readValue depth rest with
          | none => none
          | some (value, rest) =>
            let member := (name.map String.ofList, value)
            match skipSpaces rest with
            | ',' :: rest => (readMembers depth rest).map fun p => (member :: p.1, p.2)
            | '\x7d' :: rest => some ([member], rest)
            | _ => none
        | _ => none
    | _ => none

end

/-- Reads a text that holds one value and spaces. -/
def readChars? (cs : List Char) : Option Json :=
  match readValue (2 * cs.length + 1) cs with
  | some (j, rest) => if skipSpaces rest = [] then some j else none
  | none => none

def read? (s : String) : Option Json := readChars? s.toList

end FaultSnapshot.Json

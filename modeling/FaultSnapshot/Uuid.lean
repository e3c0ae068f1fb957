/-!
# Identifiers of 128 bits

An identifier is a row of 32 hexadecimal digits. It is written in small letters with hyphens after
8, 12, 16 and 20 digits; it is read in that form, without hyphens, in braces and as a URN.
-/

namespace FaultSnapshot

/-- An identifier of 32 hexadecimal digits. -/
structure Uuid where
  digits : List (Fin 16)
  length_eq : digits.length = 32

namespace Uuid

theorem ext {a b : Uuid} (h : a.digits = b.digits) : a = b := by
  cases a; cases b; simp_all

instance : DecidableEq Uuid := fun a b =>
  if h : a.digits = b.digits then .isTrue (ext h) else .isFalse fun e => h (e ▸ rfl)

/-- The small letter or decimal digit of a hexadecimal digit. -/
def digitChar (d : Fin 16) : Char := Nat.digitChar d.val

/-- The value of a hexadecimal digit in either case. -/
def digitOf? (c : Char) : Option (Fin 16) :=
  let n := c.toNat
  if h : 48 ≤ n ∧ n ≤ 57 then some ⟨n - 48, by omega⟩
  else if h : 97 ≤ n ∧ n ≤ 102 then some ⟨n - 87, by omega⟩
  else if h : 65 ≤ n ∧ n ≤ 70 then some ⟨n - 55, by omega⟩
  else none

/-- Characters with a hyphen after 8, 12, 16 and 20 of them. -/
def hyphenate (cs : List Char) : List Char :=
  cs.take 8 ++ '-' :: (cs.drop 8).take 4 ++ '-' :: (cs.drop 12).take 4 ++ '-' :: (cs.drop 16).take 4 ++
    '-' :: cs.drop 20

/-- The characters of the written form. -/
def chars (u : Uuid) : List Char := hyphenate (u.digits.map digitChar)

def text (u : Uuid) : String := String.ofList u.chars

/-- Reads 32 digits. -/
def readPlain? (cs : List Char) : Option Uuid :=
  match cs.mapM digitOf? with
  | some ds => if h : ds.length = 32 then some ⟨ds, h⟩ else none
  | none => none

/-- Reads 32 digits with hyphens at their places. -/
def readHyphenated? (cs : List Char) : Option Uuid :=
  if [8, 13, 18, 23].all fun i => cs[i]? = some '-' then
    readPlain? (cs.take 8 ++ (cs.drop 9).take 4 ++ (cs.drop 14).take 4 ++ (cs.drop 19).take 4 ++ cs.drop 24)
  else none

/-- The characters before a URN of an identifier, which may be written in either case. -/
def urnStart : List Char := "urn:uuid:".toList

/-- Reads any of the accepted forms. -/
def readChars? (cs : List Char) : Option Uuid :=
  match cs.length with
  | 32 => readPlain? cs
  | 36 => readHyphenated? cs
  | 38 => if cs.head? = some '\x7b' ∧ cs.getLast? = some '\x7d' then readHyphenated? cs.tail.dropLast else none
  | 45 => if (cs.take 9).map Char.toLower = urnStart then readHyphenated? (cs.drop 9) else none
  | _ => none

def read? (s : String) : Option Uuid := readChars? s.toList

/-- The digits of a number, the last 32 of them. -/
def digitsOf (n : Nat) : Nat → List (Fin 16)
  | 0 => []
  | k + 1 => digitsOf (n / 16) k ++ [Fin.ofNat 16 n]

theorem length_digitsOf {n k : Nat} : (digitsOf n k).length = k := by
  induction k generalizing n with
  | zero => rfl
  | succ k ih => simp [digitsOf, ih]

/-- The identifier of a number, as far as it fits. -/
def ofNat (n : Nat) : Uuid := ⟨digitsOf n 32, length_digitsOf⟩

end Uuid

end FaultSnapshot

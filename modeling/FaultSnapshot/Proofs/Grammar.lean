import FaultSnapshot.Json.Printer
import FaultSnapshot.Proofs.Numerals
import FaultSnapshot.Proofs.Strings

/-!
# Texts of JSON values

`Spells` says which texts stand for a value: spaces may stand between tokens, and a string has several
spellings. The reader understands every such text (`readChars?_of_spells`), and both printed forms are
among them, so what is printed is read back (`read?_compactText`, `read?_prettyText`).
-/

namespace FaultSnapshot.Json

open Text (IsDigits)

/-! ## Spellings -/

/-- Spaces between tokens. -/
def Gap (cs : List Char) : Prop := ∀ c ∈ cs, isSpace c = true

/-- The digits before the point: a zero alone, or digits that do not start with zero. -/
def IsWhole (ds : List Char) : Prop := IsDigits ds ∧ (ds.head? = some '0' → ds = ['0'])

/-- Nothing, or a point and digits. -/
def IsFraction (cs : List Char) : Prop := cs = [] ∨ ∃ ds, IsDigits ds ∧ cs = '.' :: ds

/-- Nothing, or an exponent with an optional sign. -/
def IsExponent (cs : List Char) : Prop :=
  cs = [] ∨ ∃ e sign ds, (e = 'e' ∨ e = 'E') ∧ (sign = [] ∨ sign = ['+'] ∨ sign = ['-']) ∧ IsDigits ds ∧
    cs = e :: (sign ++ ds)

/-- A number without sign. -/
def IsMagnitude (cs : List Char) : Prop :=
  ∃ whole fraction exponent, IsWhole whole ∧ IsFraction fraction ∧ IsExponent exponent ∧
    cs = whole ++ (fraction ++ exponent)

/-- The literal of a number. -/
def IsNumber (cs : List Char) : Prop := IsMagnitude cs ∨ ∃ ds, IsMagnitude ds ∧ cs = '-' :: ds

mutual

/-- The texts of a value, without spaces around it. -/
def Spells : Json → List Char → Prop
  | null, cs => cs = "null".toList
  | bool b, cs => cs = boolChars b
  | number literal, cs => cs = literal ∧ IsNumber literal
  | string s, cs => SpellsString s cs
  | array items, cs =>
    (items = [] ∧ ∃ gap, Gap gap ∧ cs = '[' :: (gap ++ [']'])) ∨ ∃ inside, SpellsItems items inside ∧ cs = '[' :: inside
  | object members, cs =>
    (members = [] ∧ ∃ gap, Gap gap ∧ cs = '\x7b' :: (gap ++ ['\x7d'])) ∨
      ∃ inside, SpellsMembers members inside ∧ cs = '\x7b' :: inside

/-- The texts of the items of an array, with the closing bracket. -/
def SpellsItems : List Json → List Char → Prop
  | [], _ => False
  | item :: rest, cs =>
    ∃ before text after ending, Gap before ∧ Spells item text ∧ Gap after ∧
      cs = before ++ (text ++ (after ++ ending)) ∧
      ((rest = [] ∧ ending = [']']) ∨ ∃ more, SpellsItems rest more ∧ ending = ',' :: more)

/-- The texts of the members of an object, with the closing bracket. -/
def SpellsMembers : List (Option String × Json) → List Char → Prop
  | [], _ => False
  | (name, value) :: rest, cs =>
    ∃ before title gap between text after ending, Gap before ∧ SpellsString name title ∧ Gap gap ∧ Gap between ∧
      Spells value text ∧ Gap after ∧
      cs = before ++ (title ++ (gap ++ ':' :: (between ++ (text ++ (after ++ ending))))) ∧
      ((rest = [] ∧ ending = ['\x7d']) ∨ ∃ more, SpellsMembers rest more ∧ ending = ',' :: more)

end

/-! ## Reading of tokens -/

theorem skipSpaces_gap {gap : List Char} (spaces : Gap gap) {c : Char} (token : isSpace c = false) (cs : List Char) :
    skipSpaces (gap ++ c :: cs) = c :: cs := by
  rw [skipSpaces, List.dropWhile_append_of_pos spaces, List.dropWhile_cons_of_neg (by simp [token])]

theorem gap_nil : Gap [] := fun _ member => nomatch member

theorem gap_blank : Gap [' '] := by
  intro c member
  rw [List.mem_singleton.mp member]
  rfl

/-- No number goes on with the character. -/
def Stopping (c : Char) : Prop := c.isDigit = false ∧ c ≠ '.' ∧ c ≠ 'e' ∧ c ≠ 'E'

instance (c : Char) : Decidable (Stopping c) := inferInstanceAs (Decidable (_ ∧ _))

/-- No number goes on here. -/
def Stops (rest : List Char) : Prop := ∀ c ∈ rest.head?, Stopping c

theorem stopping_space {c : Char} (space : isSpace c = true) : Stopping c := by
  simp only [isSpace, Bool.or_eq_true, decide_eq_true_eq] at space
  rcases space with ((rfl | rfl) | rfl) | rfl <;> decide

theorem stops_spaces {gap : List Char} (spaces : Gap gap) : Stops gap :=
  fun c first => stopping_space (spaces c (List.mem_of_mem_head? first))

theorem stops_gap {gap : List Char} (spaces : Gap gap) {c : Char} (token : Stopping c) (cs : List Char) :
    Stops (gap ++ c :: cs) := by
  intro d first
  cases gap with
  | nil =>
    obtain rfl : c = d := by simpa using first
    exact token
  | cons e gap =>
    obtain rfl : e = d := by simpa using first
    exact stopping_space (spaces e List.mem_cons_self)

section
variable {ds rest : List Char}

theorem readDigits_digits (digits : IsDigits ds) (ends : ∀ c ∈ rest.head?, c.isDigit = false) :
    readDigits (ds ++ rest) = some (ds, rest) := by
  obtain ⟨taken, left⟩ := Text.span_digits digits.2 ends
  rw [readDigits, taken, left]
  split
  · exact absurd rfl digits.1
  · rfl

theorem readWhole_whole (whole : IsWhole ds) (ends : ∀ c ∈ rest.head?, c.isDigit = false) :
    readWhole (ds ++ rest) = some (ds, rest) := by
  rw [readWhole, readDigits_digits whole.1 ends]
  split
  · rename_i zeros
    simp only [Option.some.injEq, Prod.mk.injEq] at zeros
    have alone := whole.2 (by simp [zeros.1])
    simp [zeros.1] at alone
  · rfl

theorem readFraction_fraction (fraction : IsFraction ds) (ends : ∀ c ∈ rest.head?, c.isDigit = false ∧ c ≠ '.') :
    readFraction (ds ++ rest) = some (ds, rest) := by
  rcases fraction with rfl | ⟨ds, digits, rfl⟩
  · unfold readFraction
    split
    · rename_i after point
      exact absurd rfl (ends '.' (by simp [show rest = '.' :: after from point])).2
    · rfl
  · simp [readFraction, readDigits_digits digits fun c first => (ends c first).1]

theorem readExponent_exponent (exponent : IsExponent ds) (ends : Stops rest) :
    readExponent (ds ++ rest) = some (ds, rest) := by
  rcases exponent with rfl | ⟨e, sign, ds, letter, signed, digits, rfl⟩
  · cases rest with
    | nil => rfl
    | cons c rest =>
      have other := ends c rfl
      simp [readExponent, other.2.2.1, other.2.2.2]
  · have read := readDigits_digits digits fun c first => (ends c first).1
    have either : (e = 'e' || e = 'E') = true := by simpa using letter
    obtain ⟨d, tail, rfl⟩ := List.exists_cons_of_ne_nil digits.1
    have digit : d.isDigit = true := digits.2 d List.mem_cons_self
    rcases signed with rfl | rfl | rfl
    · simp only [readExponent, List.nil_append, List.cons_append, if_pos either]
      split
      · rename_i plus
        simp only [List.cons.injEq] at plus
        exact absurd digit (by rw [plus.1]; decide)
      · rename_i minus
        simp only [List.cons.injEq] at minus
        exact absurd digit (by rw [minus.1]; decide)
      · rw [← List.cons_append, read]
        rfl
    · simp only [readExponent, List.cons_append, List.nil_append, if_pos either]
      rw [← List.cons_append, read]
      rfl
    · simp only [readExponent, List.cons_append, List.nil_append, if_pos either]
      rw [← List.cons_append, read]
      rfl

end

theorem readMagnitude_magnitude {ds rest : List Char} (magnitude : IsMagnitude ds) (ends : Stops rest) :
    readMagnitude (ds ++ rest) = some (ds, rest) := by
  obtain ⟨whole, fraction, exponent, digits, point, power, rfl⟩ := magnitude
  -- After the fraction comes the exponent or the rest, after the digits comes the point or that.
  have afterFraction : ∀ c ∈ (exponent ++ rest).head?, c.isDigit = false ∧ c ≠ '.' := by
    intro c first
    rcases power with rfl | ⟨e, sign, ds, letter, _, _, rfl⟩
    · exact ⟨(ends c first).1, (ends c first).2.1⟩
    · obtain rfl : e = c := by simpa using first
      rcases letter with rfl | rfl <;> decide
  have afterWhole : ∀ c ∈ (fraction ++ (exponent ++ rest)).head?, c.isDigit = false := by
    intro c first
    rcases point with rfl | ⟨ds, _, rfl⟩
    · exact (afterFraction c first).1
    · obtain rfl : '.' = c := by simpa using first
      decide
  simp only [readMagnitude, List.append_assoc, readWhole_whole digits afterWhole,
    readFraction_fraction point afterFraction, readExponent_exponent power ends, Option.bind_eq_bind, Option.bind_some,
    Option.pure_def]

theorem readNumber_number {literal rest : List Char} (number : IsNumber literal) (ends : Stops rest) :
    readNumber (literal ++ rest) = some (literal, rest) := by
  rcases number with magnitude | ⟨ds, magnitude, rfl⟩
  · have read := readMagnitude_magnitude magnitude ends
    unfold readNumber
    split
    · rename_i after minus
      obtain ⟨whole, fraction, exponent, ⟨digits, _⟩, _, _, rfl⟩ := magnitude
      obtain ⟨d, tail, rfl⟩ := List.exists_cons_of_ne_nil digits.1
      have digit : d.isDigit = true := digits.2 d List.mem_cons_self
      simp only [List.cons_append, List.cons.injEq] at minus
      exact absurd digit (by rw [minus.1]; decide)
    · exact read
  · simp [readNumber, readMagnitude_magnitude magnitude ends]

/-! ## Reading of values -/

theorem isSpace_digit {c : Char} (digit : c.isDigit = true) : isSpace c = false := by
  by_contra space
  simp only [Bool.not_eq_false, isSpace, Bool.or_eq_true, decide_eq_true_eq] at space
  rcases space with ((rfl | rfl) | rfl) | rfl <;> cases digit

theorem IsMagnitude.head {cs : List Char} (magnitude : IsMagnitude cs) :
    ∃ c tail, cs = c :: tail ∧ c.isDigit = true := by
  obtain ⟨whole, fraction, exponent, ⟨digits, _⟩, _, _, rfl⟩ := magnitude
  obtain ⟨d, tail, rfl⟩ := List.exists_cons_of_ne_nil digits.1
  exact ⟨d, tail ++ (fraction ++ exponent), rfl, digits.2 d List.mem_cons_self⟩

theorem IsNumber.head {cs : List Char} (number : IsNumber cs) :
    ∃ c tail, cs = c :: tail ∧ (c.isDigit = true ∨ c = '-') := by
  rcases number with magnitude | ⟨ds, _, rfl⟩
  · obtain ⟨c, tail, rfl, digit⟩ := magnitude.head
    exact ⟨c, tail, rfl, .inl digit⟩
  · exact ⟨'-', ds, rfl, .inr rfl⟩

theorem readValue_number {literal gap rest : List Char} (number : IsNumber literal) (spaces : Gap gap)
    (ends : Stops rest) (depth : Nat) :
    readValue (depth + 1) (gap ++ (literal ++ rest)) = some (.number literal, rest) := by
  have read := readNumber_number number ends
  obtain ⟨c, tail, rfl, first⟩ := number.head
  have token : isSpace c = false := by
    rcases first with digit | rfl
    · exact isSpace_digit digit
    · decide
  rw [readValue, List.cons_append, skipSpaces_gap spaces token]
  -- A digit or a minus sign begins none of the other tokens.
  have other : ∀ d : Char, d.isDigit = false → d ≠ '-' → c ≠ d := by
    rintro d plain minus rfl
    rcases first with digit | rfl
    · exact Bool.false_ne_true (plain.symm.trans digit)
    · exact minus rfl
  split
  case h_7 =>
    rw [← List.cons_append, read]
    rfl
  all_goals
    rename_i same
    exact absurd (List.cons.inj same).1 (other _ (by decide) (by decide))

theorem readValue_string {s : Option String} {cs gap : List Char} (spells : SpellsString s cs) (spaces : Gap gap)
    (depth : Nat) (rest : List Char) : readValue (depth + 1) (gap ++ (cs ++ rest)) = some (.string s, rest) := by
  obtain ⟨inside, rfl, read⟩ := spells.read
  rw [readValue, List.cons_append, skipSpaces_gap spaces (by decide)]
  simp [read, Function.comp_def]

theorem readValue_bool {b : Bool} {gap : List Char} (spaces : Gap gap) (depth : Nat) (rest : List Char) :
    readValue (depth + 1) (gap ++ (boolChars b ++ rest)) = some (.bool b, rest) := by
  cases b with
  | true =>
    rw [readValue, show boolChars true ++ rest = 't' :: 'r' :: 'u' :: 'e' :: rest from rfl,
      skipSpaces_gap spaces (by decide)]
    rfl
  | false =>
    rw [readValue, show boolChars false ++ rest = 'f' :: 'a' :: 'l' :: 's' :: 'e' :: rest from rfl,
      skipSpaces_gap spaces (by decide)]
    rfl

theorem readValue_null {gap : List Char} (spaces : Gap gap) (depth : Nat) (rest : List Char) :
    readValue (depth + 1) (gap ++ ("null".toList ++ rest)) = some (.null, rest) := by
  rw [readValue, show "null".toList ++ rest = 'n' :: 'u' :: 'l' :: 'l' :: rest from rfl,
    skipSpaces_gap spaces (by decide)]
  rfl

/-- Every text of a value begins with a token. -/
theorem Spells.head {j : Json} {cs : List Char} (spells : Spells j cs) :
    ∃ c tail, cs = c :: tail ∧ isSpace c = false ∧ c ≠ ']' := by
  cases j with
  | null =>
    obtain rfl : cs = "null".toList := by simpa only [Spells] using spells
    exact ⟨'n', _, rfl, by decide, by decide⟩
  | bool b =>
    obtain rfl : cs = boolChars b := by simpa only [Spells] using spells
    cases b with
    | true => exact ⟨'t', _, rfl, by decide, by decide⟩
    | false => exact ⟨'f', _, rfl, by decide, by decide⟩
  | number literal =>
    rw [Spells] at spells
    obtain ⟨rfl, number⟩ := spells
    obtain ⟨c, tail, rfl, digit | rfl⟩ := number.head
    · refine ⟨c, tail, rfl, isSpace_digit digit, ?_⟩
      rintro rfl
      cases digit
    · exact ⟨'-', tail, rfl, by decide, by decide⟩
  | string s =>
    rw [Spells] at spells
    obtain ⟨inside, rfl, _⟩ := spells.read
    exact ⟨'"', _, rfl, by decide, by decide⟩
  | array items =>
    rw [Spells] at spells
    rcases spells with ⟨_, gap, _, rfl⟩ | ⟨inside, _, rfl⟩
    · exact ⟨'[', _, rfl, by decide, by decide⟩
    · exact ⟨'[', _, rfl, by decide, by decide⟩
  | object members =>
    rw [Spells] at spells
    rcases spells with ⟨_, gap, _, rfl⟩ | ⟨inside, _, rfl⟩
    · exact ⟨'\x7b', _, rfl, by decide, by decide⟩
    · exact ⟨'\x7b', _, rfl, by decide, by decide⟩

/-- After the spaces in front of them, items begin with a token that is not the closing bracket. -/
theorem SpellsItems.skip {items : List Json} {cs : List Char} (spells : SpellsItems items cs) :
    ∃ c tail, SpellsItems items (c :: tail) ∧ c ≠ ']' ∧ (c :: tail).length ≤ cs.length ∧
      ∀ rest, skipSpaces (cs ++ rest) = c :: tail ++ rest := by
  cases items with
  | nil => exact spells.elim
  | cons item items =>
    rw [SpellsItems] at spells
    obtain ⟨before, text, after, ending, spaces, value, spaces', rfl, closes⟩ := spells
    obtain ⟨c, tail, rfl, token, other⟩ := value.head
    refine ⟨c, tail ++ (after ++ ending), ?_, other, by simp, ?_⟩
    · rw [SpellsItems]
      exact ⟨[], c :: tail, after, ending, gap_nil, value, spaces', rfl, closes⟩
    · intro rest
      simp [skipSpaces_gap spaces token]

/-- After the spaces in front of them, members begin with a quote. -/
theorem SpellsMembers.skip {members : List (Option String × Json)} {cs : List Char}
    (spells : SpellsMembers members cs) :
    ∃ tail, SpellsMembers members ('"' :: tail) ∧ ('"' :: tail).length ≤ cs.length ∧
      ∀ rest, skipSpaces (cs ++ rest) = '"' :: tail ++ rest := by
  cases members with
  | nil => exact spells.elim
  | cons member members =>
    obtain ⟨name, value⟩ := member
    rw [SpellsMembers] at spells
    obtain ⟨before, title, gap, between, text, after, ending, spaces, named, spaces₁, spaces₂, valued, spaces₃, rfl,
      closes⟩ := spells
    obtain ⟨inside, rfl, _⟩ := named.read
    refine ⟨inside ++ (['"'] ++ (gap ++ ':' :: (between ++ (text ++ (after ++ ending))))), ?_, by simp, ?_⟩
    · rw [SpellsMembers]
      exact ⟨[], '"' :: (inside ++ ['"']), gap, between, text, after, ending, gap_nil, named, spaces₁, spaces₂, valued,
        spaces₃, by simp, closes⟩
    · intro rest
      simp [skipSpaces_gap spaces (show isSpace '"' = false by decide)]

mutual

/-- Every text of a value is read as this value, if the nesting is not bounded too tightly. -/
theorem readValue_spells : ∀ {j : Json} {cs : List Char}, Spells j cs → ∀ {gap : List Char}, Gap gap →
    ∀ {fuel : Nat} {rest : List Char}, Stops rest → 2 * cs.length ≤ fuel →
      readValue fuel (gap ++ (cs ++ rest)) = some (j, rest)
  | .null, _, spells, gap, spaces, fuel, rest, _, enough => by
    obtain rfl : _ = "null".toList := by simpa only [Spells] using spells
    obtain ⟨depth, rfl⟩ : ∃ depth, fuel = depth + 1 := ⟨fuel - 1, by simp at enough; omega⟩
    exact readValue_null spaces depth rest
  | .bool b, _, spells, gap, spaces, fuel, rest, _, enough => by
    obtain rfl : _ = boolChars b := by simpa only [Spells] using spells
    obtain ⟨depth, rfl⟩ : ∃ depth, fuel = depth + 1 := ⟨fuel - 1, by cases b <;> simp [boolChars] at enough <;> omega⟩
    exact readValue_bool spaces depth rest
  | .number literal, cs, spells, gap, spaces, fuel, rest, ends, enough => by
    rw [Spells] at spells
    obtain ⟨rfl, number⟩ := spells
    obtain ⟨depth, rfl⟩ : ∃ depth, fuel = depth + 1 := by
      obtain ⟨c, tail, rfl, _⟩ := number.head
      exact ⟨fuel - 1, by simp at enough; omega⟩
    exact readValue_number number spaces ends depth
  | .string s, cs, spells, gap, spaces, fuel, rest, _, enough => by
    rw [Spells] at spells
    obtain ⟨depth, rfl⟩ : ∃ depth, fuel = depth + 1 := by
      obtain ⟨_, rfl, _⟩ := spells.read
      exact ⟨fuel - 1, by simp at enough; omega⟩
    exact readValue_string spells spaces depth rest
  | .array items, cs, spells, gap, spaces, fuel, rest, _, enough => by
    rw [Spells] at spells
    rcases spells with ⟨rfl, inside, spaces', rfl⟩ | ⟨inside, spells, rfl⟩
    · obtain ⟨depth, rfl⟩ : ∃ depth, fuel = depth + 1 := ⟨fuel - 1, by simp at enough; omega⟩
      rw [readValue, List.cons_append, skipSpaces_gap spaces (by decide)]
      simp [skipSpaces_gap spaces' (show isSpace ']' = false by decide)]
    · obtain ⟨depth, rfl⟩ : ∃ depth, fuel = depth + 1 := ⟨fuel - 1, by simp at enough; omega⟩
      obtain ⟨c, tail, spells, other, shorter, skip⟩ := spells.skip
      have read : readItems depth (c :: tail ++ rest) = some (items, rest) :=
        readItems_spells spells (by simp at enough shorter ⊢; omega)
      rw [readValue, List.cons_append, skipSpaces_gap spaces (by decide)]
      simp only [skip]
      split
      · rename_i closed
        exact absurd (List.cons.inj closed).1 other
      · rw [read]
        rfl
  | .object members, cs, spells, gap, spaces, fuel, rest, _, enough => by
    rw [Spells] at spells
    rcases spells with ⟨rfl, inside, spaces', rfl⟩ | ⟨inside, spells, rfl⟩
    · obtain ⟨depth, rfl⟩ : ∃ depth, fuel = depth + 1 := ⟨fuel - 1, by simp at enough; omega⟩
      rw [readValue, List.cons_append, skipSpaces_gap spaces (by decide)]
      simp [skipSpaces_gap spaces' (show isSpace '\x7d' = false by decide)]
    · obtain ⟨depth, rfl⟩ : ∃ depth, fuel = depth + 1 := ⟨fuel - 1, by simp at enough; omega⟩
      obtain ⟨tail, spells, shorter, skip⟩ := spells.skip
      have read : readMembers depth ('"' :: tail ++ rest) = some (members, rest) :=
        readMembers_spells spells (by simp at enough shorter ⊢; omega)
      rw [readValue, List.cons_append, skipSpaces_gap spaces (by decide)]
      simp only [skip]
      split
      · rename_i closed
        exact absurd (List.cons.inj closed).1 (by decide)
      · rw [read]
        rfl

theorem readItems_spells : ∀ {items : List Json} {cs : List Char}, SpellsItems items cs →
    ∀ {fuel : Nat} {rest : List Char}, 2 * cs.length ≤ fuel → readItems fuel (cs ++ rest) = some (items, rest)
  | [], _, spells, _, _, _ => spells.elim
  | item :: items, cs, spells, fuel, rest, enough => by
    rw [SpellsItems] at spells
    obtain ⟨before, text, after, ending, spaces, value, spaces', rfl, closes⟩ := spells
    obtain ⟨depth, rfl⟩ : ∃ depth, fuel = depth + 1 := by
      obtain ⟨c, tail, rfl, _⟩ := value.head
      exact ⟨fuel - 1, by simp at enough; omega⟩
    simp only [List.length_append] at enough
    rcases closes with ⟨rfl, rfl⟩ | ⟨more, others, rfl⟩
    · have read : readValue depth (before ++ (text ++ (after ++ ']' :: rest))) = some (item, after ++ ']' :: rest) :=
        readValue_spells value spaces (stops_gap spaces' (by decide) rest) (by simp at enough; omega)
      simp only [List.append_assoc] at read ⊢
      simp [readItems, read, skipSpaces_gap spaces' (show isSpace ']' = false by decide)]
    · have read : readValue depth (before ++ (text ++ (after ++ ',' :: (more ++ rest)))) =
          some (item, after ++ ',' :: (more ++ rest)) :=
        readValue_spells value spaces (stops_gap spaces' (by decide) _) (by simp at enough; omega)
      have readMore : readItems depth (more ++ rest) = some (items, rest) :=
        readItems_spells others (by simp at enough; omega)
      simp only [List.append_assoc, List.cons_append] at read ⊢
      simp [readItems, read, skipSpaces_gap spaces' (show isSpace ',' = false by decide), readMore]

theorem readMembers_spells : ∀ {members : List (Option String × Json)} {cs : List Char}, SpellsMembers members cs →
    ∀ {fuel : Nat} {rest : List Char}, 2 * cs.length ≤ fuel → readMembers fuel (cs ++ rest) = some (members, rest)
  | [], _, spells, _, _, _ => spells.elim
  | (name, value) :: members, cs, spells, fuel, rest, enough => by
    rw [SpellsMembers] at spells
    obtain ⟨before, title, gap, between, text, after, ending, spaces, named, spaces₁, spaces₂, valued, spaces₃, rfl,
      closes⟩ := spells
    obtain ⟨inside, rfl, readName⟩ := named.read
    obtain ⟨depth, rfl⟩ : ∃ depth, fuel = depth + 1 := ⟨fuel - 1, by simp at enough; omega⟩
    simp only [List.length_append, List.length_cons] at enough
    rcases closes with ⟨rfl, rfl⟩ | ⟨more, others, rfl⟩
    · have read : readValue depth (between ++ (text ++ (after ++ '\x7d' :: rest))) =
          some (value, after ++ '\x7d' :: rest) :=
        readValue_spells valued spaces₂ (stops_gap spaces₃ (by decide) rest) (by omega)
      simp only [List.append_assoc, List.cons_append, List.nil_append] at read ⊢
      simp [readMembers, skipSpaces_gap spaces (show isSpace '"' = false by decide), readName, Function.comp_def,
        skipSpaces_gap spaces₁ (show isSpace ':' = false by decide), read,
        skipSpaces_gap spaces₃ (show isSpace '\x7d' = false by decide)]
    · have read : readValue depth (between ++ (text ++ (after ++ ',' :: (more ++ rest)))) =
          some (value, after ++ ',' :: (more ++ rest)) :=
        readValue_spells valued spaces₂ (stops_gap spaces₃ (by decide) _) (by omega)
      have readMore : readMembers depth (more ++ rest) = some (members, rest) :=
        readMembers_spells others (by simp at enough; omega)
      simp only [List.append_assoc, List.cons_append, List.nil_append] at read ⊢
      simp [readMembers, skipSpaces_gap spaces (show isSpace '"' = false by decide), readName, Function.comp_def,
        skipSpaces_gap spaces₁ (show isSpace ':' = false by decide), read,
        skipSpaces_gap spaces₃ (show isSpace ',' = false by decide), readMore]

end

/-- The reader understands every text of a value, with spaces around it. -/
theorem readChars?_of_spells {j : Json} {cs before after : List Char} (spells : Spells j cs) (spaces : Gap before)
    (spaces' : Gap after) : readChars? (before ++ (cs ++ after)) = some j := by
  have read : readValue (2 * (before ++ (cs ++ after)).length + 1) (before ++ (cs ++ after)) = some (j, after) :=
    readValue_spells spells spaces (stops_spaces spaces') (by simp; omega)
  have nothing : skipSpaces after = [] := List.dropWhile_eq_nil_iff.mpr spaces'
  rw [readChars?, read]
  exact if_pos nothing

/-! ## Printing -/

mutual

/-- Numbers hold literals of numbers, and strings and names are texts. -/
def Proper : Json → Prop
  | null => True
  | bool _ => True
  | number literal => IsNumber literal
  | string s => s.isSome = true
  | array items => ProperItems items
  | object members => ProperMembers members

def ProperItems : List Json → Prop
  | [] => True
  | item :: rest => Proper item ∧ ProperItems rest

/-- All names are texts, and all values are proper. -/
def ProperMembers : List (Option String × Json) → Prop
  | [] => True
  | (name, value) :: rest => name.isSome = true ∧ Proper value ∧ ProperMembers rest

end

theorem hexValues?_control :
    ∀ n < 0x20, hexValues? '0' '0' (Nat.digitChar (n / 16)) (Nat.digitChar (n % 16)) = some n := by
  decide

theorem spellsChar_escape (c : Char) : SpellsChar c (escape c) := by
  unfold escape
  split
  · rename_i special
    simp only [Bool.or_eq_true, decide_eq_true_eq] at special
    rcases special with rfl | rfl
    · exact .short rfl
    · exact .short rfl
  · rename_i ordinary
    simp only [Bool.or_eq_true, decide_eq_true_eq, not_or] at ordinary
    split_ifs with backspace feed line ret tab control
    · exact backspace ▸ .short rfl
    · exact feed ▸ .short rfl
    · exact line ▸ .short rfl
    · exact ret ▸ .short rfl
    · exact tab ▸ .short rfl
    · have value := hexValues?_control c.toNat control
      have whole : isHighSurrogate c.toNat = false ∧ isLowSurrogate c.toNat = false := by
        simp only [isHighSurrogate, isLowSurrogate, Bool.and_eq_false_iff, decide_eq_false_iff_not]
        omega
      have spells := SpellsChar.code value whole
      rwa [Char.ofNat_toNat] at spells
    · exact .plain (Nat.not_lt.mp control) ordinary.1 ordinary.2

theorem spellsString_quote (s : String) : SpellsString (some s) (quote s) := by
  refine ⟨_, ?_, rfl⟩
  induction s.toList with
  | nil => exact .nil
  | cons c cs ih => exact .cons (spellsChar_escape c) ih

theorem spellsString_quote? {s : Option String} (text : s.isSome = true) : SpellsString s (quote? s) := by
  obtain ⟨s, rfl⟩ := Option.isSome_iff_exists.mp text
  exact spellsString_quote s

mutual

/-- The compact form is a text of the value. -/
theorem spells_compact : ∀ {j : Json}, Proper j → Spells j (compact j)
  | .null, _ => by rw [Spells, compact]
  | .bool b, _ => by rw [Spells, compact]
  | .number literal, proper => by
    rw [Spells, compact]
    exact ⟨rfl, by rwa [Proper] at proper⟩
  | .string s, proper => by
    rw [Spells, compact]
    exact spellsString_quote? (by rwa [Proper] at proper)
  | .array [], _ => by
    rw [Spells, compact]
    exact .inl ⟨rfl, [], gap_nil, rfl⟩
  | .array (item :: rest), proper => by
    rw [Spells, compact]
    exact .inr ⟨_, spellsItems_compact (by simp) (by rwa [Proper] at proper), rfl⟩
  | .object [], _ => by
    rw [Spells, compact]
    exact .inl ⟨rfl, [], gap_nil, rfl⟩
  | .object (member :: rest), proper => by
    rw [Spells, compact]
    exact .inr ⟨_, spellsMembers_compact (by simp) (by rwa [Proper] at proper), rfl⟩

theorem spellsItems_compact : ∀ {items : List Json}, items ≠ [] → ProperItems items →
    SpellsItems items (compactItems items ++ [']'])
  | [], filled, _ => absurd rfl filled
  | [item], _, proper => by
    rw [ProperItems] at proper
    rw [SpellsItems, compactItems]
    exact ⟨[], _, [], [']'], gap_nil, spells_compact proper.1, gap_nil, rfl, .inl ⟨rfl, rfl⟩⟩
  | item :: next :: rest, _, proper => by
    rw [ProperItems] at proper
    rw [SpellsItems, compactItems]
    · exact ⟨[], _, [], _, gap_nil, spells_compact proper.1, gap_nil, by simp,
        .inr ⟨_, spellsItems_compact (by simp) proper.2, rfl⟩⟩
    · simp

theorem spellsMembers_compact : ∀ {members : List (Option String × Json)}, members ≠ [] → ProperMembers members →
    SpellsMembers members (compactMembers members ++ ['\x7d'])
  | [], filled, _ => absurd rfl filled
  | [(name, value)], _, proper => by
    rw [ProperMembers] at proper
    rw [SpellsMembers, compactMembers]
    exact ⟨[], _, [], [], _, [], ['\x7d'], gap_nil, spellsString_quote? proper.1, gap_nil, gap_nil,
      spells_compact proper.2.1, gap_nil, by simp, .inl ⟨rfl, rfl⟩⟩
  | (name, value) :: next :: rest, _, proper => by
    rw [ProperMembers] at proper
    rw [SpellsMembers, compactMembers]
    · exact ⟨[], _, [], [], _, [], _, gap_nil, spellsString_quote? proper.1, gap_nil, gap_nil,
        spells_compact proper.2.1, gap_nil, by simp, .inr ⟨_, spellsMembers_compact (by simp) proper.2.2, rfl⟩⟩
    · simp

end

theorem gap_newLine (depth : Nat) : Gap (newLine depth) := by
  intro c member
  rcases List.mem_cons.mp member with rfl | blank
  · rfl
  · rw [List.eq_of_mem_replicate blank]
    rfl

mutual

/-- The pretty form is a text of the value. -/
theorem spells_pretty : ∀ {j : Json} (depth : Nat), Proper j → Spells j (pretty depth j)
  | .null, _, _ => by rw [Spells, pretty]
  | .bool b, _, _ => by rw [Spells, pretty]
  | .number literal, _, proper => by
    rw [Spells, pretty]
    exact ⟨rfl, by rwa [Proper] at proper⟩
  | .string s, _, proper => by
    rw [Spells, pretty]
    exact spellsString_quote? (by rwa [Proper] at proper)
  | .array [], _, _ => by
    rw [Spells, pretty]
    exact .inl ⟨rfl, [], gap_nil, rfl⟩
  | .array (item :: rest), depth, proper => by
    rw [Spells, pretty]
    · exact .inr ⟨_, spellsItems_pretty (by simp) (depth + 1) (gap_newLine depth) (by rwa [Proper] at proper), by simp⟩
    · simp
  | .object [], _, _ => by
    rw [Spells, pretty]
    exact .inl ⟨rfl, [], gap_nil, rfl⟩
  | .object (member :: rest), depth, proper => by
    rw [Spells, pretty]
    · rw [Proper] at proper
      exact .inr ⟨_, spellsMembers_pretty (by simp) (depth + 1) (gap_newLine depth) proper, by simp⟩
    · simp

theorem spellsItems_pretty : ∀ {items : List Json}, items ≠ [] → ∀ (depth : Nat) {gap : List Char}, Gap gap →
    ProperItems items → SpellsItems items (prettyItems depth items ++ (gap ++ [']']))
  | [], filled, _, _, _, _ => absurd rfl filled
  | [item], _, depth, gap, spaces, proper => by
    rw [ProperItems] at proper
    rw [SpellsItems, prettyItems]
    exact ⟨newLine depth, _, gap, [']'], gap_newLine depth, spells_pretty depth proper.1, spaces, by simp,
      .inl ⟨rfl, rfl⟩⟩
  | item :: next :: rest, _, depth, gap, spaces, proper => by
    rw [ProperItems] at proper
    rw [SpellsItems, prettyItems]
    · exact ⟨newLine depth, _, [], _, gap_newLine depth, spells_pretty depth proper.1, gap_nil, by simp,
        .inr ⟨_, spellsItems_pretty (by simp) depth spaces proper.2, rfl⟩⟩
    · simp

theorem spellsMembers_pretty : ∀ {members : List (Option String × Json)}, members ≠ [] → ∀ (depth : Nat)
    {gap : List Char}, Gap gap → ProperMembers members →
      SpellsMembers members (prettyMembers depth members ++ (gap ++ ['\x7d']))
  | [], filled, _, _, _, _ => absurd rfl filled
  | [(name, value)], _, depth, gap, spaces, proper => by
    rw [ProperMembers] at proper
    rw [SpellsMembers, prettyMembers]
    exact ⟨newLine depth, _, [], [' '], _, gap, ['\x7d'], gap_newLine depth, spellsString_quote? proper.1, gap_nil,
      gap_blank, spells_pretty depth proper.2.1, spaces, by simp, .inl ⟨rfl, rfl⟩⟩
  | (name, value) :: next :: rest, _, depth, gap, spaces, proper => by
    rw [ProperMembers] at proper
    rw [SpellsMembers, prettyMembers]
    · exact ⟨newLine depth, _, [], [' '], _, [], _, gap_newLine depth, spellsString_quote? proper.1, gap_nil, gap_blank,
        spells_pretty depth proper.2.1, gap_nil, by simp,
        .inr ⟨_, spellsMembers_pretty (by simp) depth spaces proper.2.2, rfl⟩⟩
    · simp

end

theorem read?_compactText {j : Json} (proper : Proper j) : read? j.compactText = some j := by
  have read := readChars?_of_spells (spells_compact proper) gap_nil gap_nil
  simpa [read?, compactText] using read

theorem read?_prettyText {j : Json} (proper : Proper j) : read? j.prettyText = some j := by
  have read := readChars?_of_spells (spells_pretty 0 proper) gap_nil gap_nil
  simpa [read?, prettyText] using read

end FaultSnapshot.Json

import FaultSnapshot.Instant
import FaultSnapshot.Proofs.Numerals
import FaultSnapshot.Uuid

/-!
# Texts of identifiers and points in time

Every identifier and every point in time is read back from its written form (`Uuid.read?_text`,
`Instant.read?_text`), leap seconds and years of any size among them.
-/

namespace FaultSnapshot

/-! ## Identifiers -/

namespace Uuid

theorem digitOf?_digitChar : ∀ d : Fin 16, digitOf? (digitChar d) = some d := by decide

theorem readPlain?_digits (u : Uuid) : readPlain? (u.digits.map digitChar) = some u := by
  have digits : (u.digits.map digitChar).mapM digitOf? = some u.digits := by
    induction u.digits with
    | nil => rfl
    | cons d ds ih => simp [digitOf?_digitChar, ih]
  rw [readPlain?, digits]
  exact dif_pos u.length_eq

theorem groups_eq (cs : List Char) :
    cs.take 8 ++ ((cs.drop 8).take 4 ++ ((cs.drop 12).take 4 ++ ((cs.drop 16).take 4 ++ cs.drop 20))) = cs := by
  have fourth := List.take_append_drop 4 (cs.drop 16)
  have third := List.take_append_drop 4 (cs.drop 12)
  have second := List.take_append_drop 4 (cs.drop 8)
  simp only [List.drop_drop] at fourth third second
  rw [fourth, third, second, List.take_append_drop]

theorem readHyphenated?_hyphenate {cs : List Char} (length : cs.length = 32) :
    readHyphenated? (hyphenate cs) = readPlain? cs := by
  have hyphens : ([8, 13, 18, 23].all fun i => (hyphenate cs)[i]? = some '-') = true := by
    simp [hyphenate, List.getElem?_append, length]
  rw [readHyphenated?, if_pos hyphens]
  congr 1
  simpa [hyphenate, List.take_append, List.drop_append, List.drop_take, length] using groups_eq cs

theorem read?_text (u : Uuid) : read? u.text = some u := by
  have length : (u.digits.map digitChar).length = 32 := by rw [List.length_map, u.length_eq]
  have written : u.chars.length = 36 := by simp [chars, hyphenate, length]
  have read : readHyphenated? u.chars = some u := by
    rw [chars, readHyphenated?_hyphenate length, readPlain?_digits]
  simp [read?, text, readChars?, written, read]

end Uuid

/-! ## Points in time -/

namespace Instant

theorem length_padded (n width : Nat) : (padded n width).length = width := by
  induction width generalizing n with
  | zero => rfl
  | succ width ih => simp [padded, ih]

theorem isDigit_padded {n width : Nat} {c : Char} (member : c ∈ padded n width) : c.isDigit = true := by
  induction width generalizing n with
  | zero => cases member
  | succ width ih =>
    rcases List.mem_append.mp member with before | last
    · exact ih before
    · rw [List.mem_singleton.mp last]
      exact Text.isDigit_digitChar _ (Nat.mod_lt _ (by decide))

theorem digitsValue_padded {n width : Nat} (fits : n < 10 ^ width) : Text.digitsValue (padded n width) = n := by
  induction width generalizing n with
  | zero =>
    obtain rfl : n = 0 := by simpa using fits
    rfl
  | succ width ih =>
    have smaller : n / 10 < 10 ^ width := by
      rw [Nat.pow_succ] at fits
      exact Nat.div_lt_of_lt_mul (by omega)
    rw [padded, Text.digitsValue_append, ih smaller, Text.digitsValue_digitChar _ (Nat.mod_lt _ (by decide))]
    exact Nat.div_add_mod n 10

theorem skipBlanks_digit {ds : List Char} (digits : ∀ d ∈ ds, d.isDigit = true) (filled : ds ≠ []) (rest : List Char) :
    skipBlanks (ds ++ rest) = ds ++ rest := by
  obtain ⟨d, tail, rfl⟩ := List.exists_cons_of_ne_nil filled
  exact List.dropWhile_cons_of_neg (by simp [Text.isBlank_digit (digits d List.mem_cons_self)])

theorem readNumber?_padded {n width : Nat} (fits : n < 10 ^ width) (wide : 0 < width) (rest : List Char) :
    readNumber? width (padded n width ++ rest) = some (n, rest) := by
  have digits : ∀ d ∈ padded n width, d.isDigit = true := fun _ member => isDigit_padded member
  have length := length_padded n width
  have filled : padded n width ≠ [] := List.ne_nil_of_length_pos (by omega)
  have taken : (padded n width ++ rest).take width = padded n width := List.take_left' length
  have row : (padded n width).takeWhile Char.isDigit = padded n width := List.takeWhile_eq_self_iff.mpr digits
  have left : (padded n width ++ rest).drop width = rest := List.drop_left' length
  simp [readNumber?, skipBlanks_digit digits filled, taken, row, filled, length, left, digitsValue_padded fits]

/-- A row of digits after a sign is read up to its end, whatever its length. -/
theorem signed_digits (year : Int) (rest : List Char) :
    let row := List.replicate (4 - (Nat.toDigits 10 year.natAbs).length) '0' ++ Nat.toDigits 10 year.natAbs
    row ≠ [] ∧ (row ++ '-' :: rest).takeWhile Char.isDigit = row ∧
      (row ++ '-' :: rest).dropWhile Char.isDigit = '-' :: rest ∧ Text.digitsValue row = year.natAbs := by
  intro row
  have digits : ∀ d ∈ row, d.isDigit = true := by
    intro d member
    rcases List.mem_append.mp member with zero | digit
    · rw [List.eq_of_mem_replicate zero]
      rfl
    · exact Text.isDigit_toDigits digit
  have ends : ∀ c ∈ ('-' :: rest).head?, c.isDigit = false := by simp
  obtain ⟨taken, left⟩ := Text.span_digits digits ends
  refine ⟨by simp [row, Nat.toDigits_ne_nil], taken, left, ?_⟩
  rw [Text.digitsValue_append, Text.digitsValue_zeros, Nat.mul_zero, Nat.zero_add, Text.digitsValue_toDigits]

theorem readYear?_yearChars (year : Int) (rest : List Char) :
    readYear? (yearChars year ++ '-' :: rest) = some (year, '-' :: rest) := by
  by_cases short : 0 ≤ year ∧ year ≤ 9999
  · rw [yearChars, if_pos short]
    have fits : year.toNat < 10 ^ 4 := by omega
    have read := readNumber?_padded fits (by decide) ('-' :: rest)
    have digits : ∀ d ∈ padded year.toNat 4, d.isDigit = true := fun _ member => isDigit_padded member
    have filled : padded year.toNat 4 ≠ [] := List.ne_nil_of_length_pos (by simp [length_padded])
    have value : ((year.toNat : Nat) : Int) = year := Int.toNat_of_nonneg short.1
    rw [readYear?, skipBlanks_digit digits filled]
    -- A digit is no sign.
    have unsigned : ∀ c r, c.isDigit = false → padded year.toNat 4 ++ '-' :: rest ≠ c :: r := by
      intro c r other same
      obtain ⟨d, tail, row⟩ := List.exists_cons_of_ne_nil filled
      rw [row, List.cons_append, List.cons.injEq] at same
      have digit := digits d (row ▸ List.mem_cons_self)
      exact Bool.false_ne_true (other.symm.trans (same.1 ▸ digit))
    split
    · rename_i minus
      exact absurd minus (unsigned _ _ (by decide))
    · rename_i plus
      exact absurd plus (unsigned _ _ (by decide))
    · rw [read, Option.map_some, value]
  · rw [yearChars, if_neg short]
    obtain ⟨filled, taken, left, value⟩ := signed_digits year rest
    have blank : Text.isBlank '-' = false ∧ Text.isBlank '+' = false := by decide
    by_cases negative : year < 0
    · have same : -((year.natAbs : Nat) : Int) = year := by omega
      simp only [if_pos negative, List.cons_append, readYear?, skipBlanks]
      rw [List.dropWhile_cons_of_neg (by simp [blank.1])]
      simp only [taken, left, value, same]
    · have same : ((year.natAbs : Nat) : Int) = year := by omega
      simp only [if_neg negative, List.cons_append, readYear?, skipBlanks]
      rw [List.dropWhile_cons_of_neg (by simp [blank.2])]
      simp only [taken, left, value, same]

theorem pass?_self {c : Char} (token : Text.isBlank c = false) (rest : List Char) :
    pass? c (c :: rest) = some rest := by
  simp [pass?, skipBlanks, token]

/-- Digits of a fraction count from the left. -/
theorem readFraction?_padded {n width : Nat} (fits : n < 10 ^ width) (wide : 0 < width) (narrow : width ≤ 9)
    {rest : List Char} (ends : ∀ c ∈ rest.head?, c.isDigit = false) :
    readFraction? ('.' :: (padded n width ++ rest)) = some (10 ^ (9 - width) * n, rest) := by
  have digits : ∀ d ∈ padded n width, d.isDigit = true := fun _ member => isDigit_padded member
  obtain ⟨taken, left⟩ := Text.span_digits digits ends
  have length := length_padded n width
  have kept : (padded n width).take 9 = padded n width := List.take_of_length_le (by omega)
  have value : Text.digitsValue (padded n width ++ List.replicate (9 - width) '0') = 10 ^ (9 - width) * n := by
    rw [Text.digitsValue_append, Text.digitsValue_zeros, List.length_replicate, digitsValue_padded fits, Nat.add_zero]
  simp only [readFraction?, taken, left]
  split
  · rename_i none
    rw [none, List.length_nil] at length
    omega
  · rw [kept, length, value]

theorem readFraction?_fractionChars {nano : Nat} (fits : nano < 1000000000) :
    readFraction? (fractionChars nano ++ ['Z']) = some (nano, ['Z']) := by
  have ends : ∀ c ∈ ['Z'].head?, c.isDigit = false := by simp
  unfold fractionChars
  split_ifs with whole milli micro
  · rw [whole]
    rfl
  · rw [List.cons_append, readFraction?_padded (by omega) (by decide) (by decide) ends]
    congr 2
    omega
  · rw [List.cons_append, readFraction?_padded (by omega) (by decide) (by decide) ends]
    congr 2
    omega
  · rw [List.cons_append, readFraction?_padded (by omega) (by decide) (by decide) ends]
    congr 2
    omega

theorem ofLocal?_utc (t : Instant) : ofLocal? t.date t.time 0 = some t := by
  obtain ⟨date, time, valid⟩ := t
  have hour : time.hour < 24 := valid.2.1
  have minute : time.minute < 60 := valid.2.2.1
  have early : ¬ (time.hour : Int) * 60 + time.minute - 0 < 0 := by omega
  have late : ¬ (1440 : Int) ≤ (time.hour : Int) * 60 + time.minute - 0 := by omega
  have minutes : (((time.hour : Int) * 60 + time.minute - 0) % 1440).toNat = time.hour * 60 + time.minute := by omega
  have hours : (time.hour * 60 + time.minute) / 60 = time.hour := by omega
  have rest : (time.hour * 60 + time.minute) % 60 = time.minute := by omega
  simp only [ofLocal?, if_pos valid, if_neg early, if_neg late, minutes, hours, rest]
  exact dif_pos valid

theorem read?_text (t : Instant) : read? t.text = some t := by
  obtain ⟨_, _, _, month, _, day⟩ := t.valid.1
  obtain ⟨hour, minute, second, nano⟩ := t.valid.2
  have days : t.date.day < 100 := by
    have most : daysInMonth t.date.year t.date.month ≤ 31 := by
      unfold daysInMonth
      split <;> try split
      all_goals decide
    omega
  have blanks : Text.isBlank '-' = false ∧ Text.isBlank ':' = false := by decide
  have divider : ∀ rest, passDivider? ('T' :: rest) = some rest := fun _ => rfl
  have offset : readOffset? (skipBlanks ['Z']) = some (0, []) := by decide
  have pairs : ∀ n : Nat, n < 100 → ∀ rest, readNumber? 2 (padded n 2 ++ rest) = some (n, rest) :=
    fun n fits rest => readNumber?_padded fits (by decide) rest
  have written : t.chars = yearChars t.date.year ++ '-' :: (padded t.date.month 2 ++ '-' :: (padded t.date.day 2 ++
      'T' :: (padded t.time.hour 2 ++ ':' :: (padded t.time.minute 2 ++ ':' :: (padded t.time.second 2 ++
        (fractionChars t.time.nano ++ ['Z'])))))) := by simp [chars]
  have read : readChars? t.chars = ofLocal? t.date t.time 0 := by
    -- One piece after another is read; `dsimp only` opens the pair of its value and what is left.
    dsimp only [readChars?, Option.bind_eq_bind]
    rw [written, readYear?_yearChars, Option.bind_some]
    dsimp only
    rw [pass?_self blanks.1, Option.bind_some, pairs _ (by omega), Option.bind_some]
    dsimp only
    rw [pass?_self blanks.1, Option.bind_some, pairs _ days, Option.bind_some]
    dsimp only
    rw [divider, Option.bind_some, pairs _ (by omega), Option.bind_some]
    dsimp only
    rw [pass?_self blanks.2, Option.bind_some, pairs _ (by omega), Option.bind_some]
    dsimp only
    rw [pass?_self blanks.2, Option.bind_some, pairs _ (by omega), Option.bind_some]
    dsimp only
    rw [readFraction?_fractionChars nano, Option.bind_some]
    dsimp only
    rw [offset, Option.bind_some]
    exact if_pos rfl
  simp [read?, text, read, ofLocal?_utc]

end Instant

end FaultSnapshot

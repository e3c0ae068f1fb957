import FaultSnapshot.Proofs.Numerals
import FaultSnapshot.Settings.Environment

/-!
# Counts among the settings

A count is given as a decimal numeral with blanks around it. A numeral without a minus is read as its
value if the setting can hold it. A negative one means zero, as far down as a signed word of 64 bits
goes; below that it is an error, like everything that is no numeral (`Settings.counts_by_value`).
-/

namespace FaultSnapshot

/-! ## Numerals with a sign -/

namespace Text

/-- A decimal numeral of this magnitude: digits after an optional sign, which is a minus or not. -/
inductive IsNumeral : (minus : Bool) → (magnitude : Nat) → List Char → Prop
  | plain {ds : List Char} (digits : IsDigits ds) : IsNumeral false (digitsValue ds) ds
  | plus {ds : List Char} (digits : IsDigits ds) : IsNumeral false (digitsValue ds) ('+' :: ds)
  | minus {ds : List Char} (digits : IsDigits ds) : IsNumeral true (digitsValue ds) ('-' :: ds)

variable {cs ds : List Char} {bound n m : Nat} {minus minus' : Bool}

/-- A row of digits does not begin with a sign. -/
theorem IsDigits.not_sign {sign : Char} (marks : sign.isDigit = false) : ¬ IsDigits (sign :: ds) := by
  intro digits
  have digit := digits.2 sign List.mem_cons_self
  simp [marks] at digit

theorem isNumeral_plus_iff : IsNumeral minus n ('+' :: ds) ↔ minus = false ∧ IsDigits ds ∧ digitsValue ds = n := by
  constructor
  · rintro (digits | digits)
    · exact (digits.not_sign rfl).elim
    · exact ⟨rfl, digits, rfl⟩
  · rintro ⟨rfl, digits, rfl⟩
    exact .plus digits

theorem isNumeral_minus_iff : IsNumeral minus n ('-' :: ds) ↔ minus = true ∧ IsDigits ds ∧ digitsValue ds = n := by
  constructor
  · rintro (digits | _ | digits)
    · exact (digits.not_sign rfl).elim
    · exact ⟨rfl, digits, rfl⟩
  · rintro ⟨rfl, digits, rfl⟩
    exact .minus digits

theorem isNumeral_unsigned_iff (plus : ∀ ds, cs ≠ '+' :: ds) (not_minus : ∀ ds, cs ≠ '-' :: ds) :
    IsNumeral minus n cs ↔ minus = false ∧ IsDigits cs ∧ digitsValue cs = n := by
  constructor
  · rintro (digits | _ | _)
    · exact ⟨rfl, digits, rfl⟩
    · exact absurd rfl (plus _)
    · exact absurd rfl (not_minus _)
  · rintro ⟨rfl, digits, rfl⟩
    exact .plain digits

/-- A text is a numeral in at most one way. -/
theorem IsNumeral.unique (one : IsNumeral minus n cs) (two : IsNumeral minus' m cs) : minus = minus' ∧ n = m := by
  cases one with
  | plain digits =>
    cases two with
    | plain _ => exact ⟨rfl, rfl⟩
    | plus _ => exact (digits.not_sign rfl).elim
    | minus _ => exact (digits.not_sign rfl).elim
  | plus digits =>
    obtain ⟨rfl, _, rfl⟩ := isNumeral_plus_iff.mp two
    exact ⟨rfl, rfl⟩
  | minus digits =>
    obtain ⟨rfl, _, rfl⟩ := isNumeral_minus_iff.mp two
    exact ⟨rfl, rfl⟩

/-- What has a minus is not without one. -/
theorem IsNumeral.not_minus (numeral : IsNumeral false n cs) : ¬ IsNumeral true m cs :=
  fun other => absurd (numeral.unique other).1 Bool.false_ne_true

theorem readUnsigned?_eq_some_iff : readUnsigned? bound cs = some n ↔ IsNumeral false n cs ∧ n ≤ bound := by
  unfold readUnsigned?
  split
  case h_1 ds =>
    refine bounded_eq_some_iff.trans ?_
    rw [isNumeral_plus_iff, eq_self_iff_true, true_and]
  case h_2 plus =>
    refine bounded_eq_some_iff.trans ?_
    by_cases minus : ∃ ds, cs = '-' :: ds
    · obtain ⟨ds, rfl⟩ := minus
      simp [isNumeral_minus_iff, IsDigits.not_sign]
    · push Not at minus
      rw [isNumeral_unsigned_iff plus minus, eq_self_iff_true, true_and]

/-- The texts that are read as a negative number. -/
theorem readSigned?_negative_iff :
    (∃ z : Int, readSigned? cs = some z ∧ z < 0) ↔ ∃ n, IsNumeral true n cs ∧ 1 ≤ n ∧ n ≤ UInt64.size / 2 := by
  unfold readSigned?
  split
  case h_1 ds =>
    simp only [isNumeral_minus_iff, true_and, ← readDigits?_eq_some_iff]
    cases readDigits? ds with
    | none => simp
    | some n =>
      simp
      omega
  case h_2 not_minus =>
    constructor
    · rintro ⟨z, read, negative⟩
      cases unsigned : readUnsigned? (UInt64.size / 2 - 1) cs with
      | none => simp [unsigned] at read
      | some n =>
        simp only [unsigned, Option.some.injEq] at read
        omega
    · rintro ⟨n, numeral, _⟩
      cases numeral with
      | minus digits => exact absurd rfl (not_minus _)

end Text

/-! ## Counts -/

namespace Settings

open Text

variable {size bound n : Nat} {key value : String} {text : List Char} {bad : Fault} {r : Except Fault Nat}

/-- How a text is read as a count below `size`, where `bad` is what is said of a text that is none. -/
structure CountRule (size : Nat) (text : List Char) (bad : Fault) (r : Except Fault Nat) : Prop where
  fits : ∀ n, IsNumeral false n text → n < size → r = .ok n
  beyond : ∀ n, IsNumeral false n text → size ≤ n → r = .error bad
  negative : ∀ n, IsNumeral true n text → 1 ≤ n → n ≤ 2 ^ 63 → r = .ok 0
  below : ∀ n, IsNumeral true n text → 2 ^ 63 < n → r = .error bad
  minus_zero : IsNumeral true 0 text → r = .error bad
  other : (∀ minus n, ¬ IsNumeral minus n text) → r = .error bad

theorem readCount_unsigned (numeral : IsNumeral false n (trimChars value.toList)) (small : n ≤ bound) :
    readCount bound key value = .ok n := by
  simp [readCount, readUnsigned?_eq_some_iff.mpr ⟨numeral, small⟩]

theorem readUnsigned?_eq_none (large : ∀ n, IsNumeral false n text → bound < n) : readUnsigned? bound text = none := by
  cases read : readUnsigned? bound text with
  | none => rfl
  | some n =>
    obtain ⟨numeral, small⟩ := readUnsigned?_eq_some_iff.mp read
    exact absurd small (Nat.not_le.mpr (large n numeral))

theorem readCount_negative (numeral : IsNumeral true n (trimChars value.toList)) (positive : 1 ≤ n)
    (kept : n ≤ UInt64.size / 2) : readCount bound key value = .ok 0 := by
  have unsigned : readUnsigned? bound (trimChars value.toList) = none :=
    readUnsigned?_eq_none fun _ other => absurd numeral other.not_minus
  obtain ⟨z, read, negative⟩ := readSigned?_negative_iff.mpr ⟨n, numeral, positive, kept⟩
  simp [readCount, unsigned, read, negative]

theorem readCount_error (large : ∀ n, IsNumeral false n (trimChars value.toList) → bound < n)
    (lost : ∀ n, IsNumeral true n (trimChars value.toList) → n = 0 ∨ UInt64.size / 2 < n) :
    readCount bound key value = .error (.badCount key (.ofList (trimChars value.toList))) := by
  have not_negative : ∀ z, readSigned? (trimChars value.toList) = some z → ¬ z < 0 := by
    intro z read negative
    obtain ⟨n, numeral, positive, kept⟩ := readSigned?_negative_iff.mp ⟨z, read, negative⟩
    rcases lost n numeral with zero | beyond
    · omega
    · omega
  simp only [readCount, readUnsigned?_eq_none large]
  cases read : readSigned? (trimChars value.toList) with
  | none => rfl
  | some z => simp [not_negative z read]

/-- How the text of a setting is read as a count. -/
theorem readCount_rule (bound : Nat) (key value : String) :
    CountRule (bound + 1) (trimChars value.toList) (.badCount key (.ofList (trimChars value.toList)))
      (readCount bound key value) where
  fits _ numeral small := readCount_unsigned numeral (Nat.le_of_lt_succ small)
  beyond n numeral large := by
    refine readCount_error ?_ fun _ other => absurd other numeral.not_minus
    intro m other
    have same := (numeral.unique other).2
    omega
  negative _ numeral positive kept := readCount_negative numeral positive kept
  below n numeral large := by
    refine readCount_error (fun _ other => absurd numeral other.not_minus) ?_
    intro m other
    have same := (numeral.unique other).2
    exact .inr (same ▸ large)
  minus_zero numeral := by
    refine readCount_error (fun _ other => absurd numeral other.not_minus) ?_
    exact fun _ other => .inl (numeral.unique other).2.symm
  other none := readCount_error (fun n numeral => (none _ n numeral).elim) fun n numeral => (none _ n numeral).elim

/-- A word that holds all counts below `size` keeps what was read. -/
theorem CountRule.word {α : Type} {ofNat : Nat → α} {toNat : α → Nat} (rule : CountRule size text bad r)
    (zero : toNat (ofNat 0) = 0) (same : ∀ n < size, toNat (ofNat n) = n) :
    CountRule size text bad ((r.map ofNat).map toNat) where
  fits n numeral small := by simp [rule.fits n numeral small, Except.map, same n small]
  beyond n numeral large := by simp [rule.beyond n numeral large, Except.map]
  negative n numeral positive kept := by simp [rule.negative n numeral positive kept, Except.map, zero]
  below n numeral large := by simp [rule.below n numeral large, Except.map]
  minus_zero numeral := by simp [rule.minus_zero numeral, Except.map]
  other none := by simp [rule.other none, Except.map]

/-- The window and the limit are read by one rule, each with the size of its own word, from the text
    without the blanks around it. A numeral without a minus is read as its value, or is an error if the
    word is too small for it. A negative numeral is read as zero, unless it is less than the least
    number of a signed word of 64 bits: that is an error, and so are a zero with a minus and every text
    that is no numeral. An error names the variable and says what it holds. -/
theorem counts_by_value (value : String) :
    let text := trimChars value.toList
    CountRule UInt64.size text (.badCount Setting.window.key (.ofList text)) ((readWindow value).map UInt64.toNat) ∧
      CountRule UInt32.size text (.badCount Setting.limit.key (.ofList text)) ((readLimit value).map UInt32.toNat) := by
  constructor
  · exact (readCount_rule _ _ _).word rfl fun n small => UInt64.toNat_ofNat_of_lt' small
  · exact (readCount_rule _ _ _).word rfl fun n small => UInt32.toNat_ofNat_of_lt' small

/-- A negative number of great magnitude is refused as a window and as a limit. -/
theorem negative_refused :
    (¬ ∀ (value : String) (n : Nat), IsNumeral true n (trimChars value.toList) → 1 ≤ n → readWindow value = .ok 0) ∧
      ¬ ∀ (value : String) (n : Nat), IsNumeral true n (trimChars value.toList) → 1 ≤ n → readLimit value = .ok 0 := by
  have trimmed : trimChars "-9223372036854775809".toList = '-' :: "9223372036854775809".toList := by decide
  have digits : IsDigits "9223372036854775809".toList := by decide
  have magnitude : digitsValue "9223372036854775809".toList = 9223372036854775809 := by decide
  have numeral : IsNumeral true 9223372036854775809 (trimChars "-9223372036854775809".toList) := by
    rw [trimmed, isNumeral_minus_iff]
    exact ⟨rfl, digits, magnitude⟩
  constructor
  · intro zero
    exact absurd (zero _ _ numeral (by decide)) (by decide)
  · intro zero
    exact absurd (zero _ _ numeral (by decide)) (by decide)

end Settings

end FaultSnapshot

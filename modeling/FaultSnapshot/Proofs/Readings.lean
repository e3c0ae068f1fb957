import FaultSnapshot.Proofs.Grammar

/-!
# What is read as JSON

The reader finds a value in a text only where the text is a spelling of this value. So a text is read
as a value exactly if it is a text of it (`read?_eq_some_iff`), and each text has one value at most.
-/

namespace FaultSnapshot.Json

open Text (IsDigits)

/-- The text is a spelling of the value, with spaces around it. -/
def IsText (j : Json) (s : String) : Prop :=
  ∃ before text after, Gap before ∧ Spells j text ∧ Gap after ∧ s.toList = before ++ (text ++ after)

variable {cs ds rest : List Char}

/-! ## Numbers -/

theorem isDigits_of_read (read : readDigits cs = some (ds, rest)) : IsDigits ds ∧ cs = ds ++ rest := by
  unfold readDigits at read
  split at read
  · cases read
  · rename_i filled
    obtain ⟨rfl, rfl⟩ := Prod.mk.inj (Option.some.inj read)
    exact ⟨⟨filled, fun _ member => List.mem_takeWhile_imp member⟩, List.takeWhile_append_dropWhile.symm⟩

theorem isWhole_of_read (read : readWhole cs = some (ds, rest)) : IsWhole ds ∧ cs = ds ++ rest := by
  unfold readWhole at read
  split at read
  · cases read
  · rename_i alone
    obtain ⟨digits, split⟩ := isDigits_of_read read
    refine ⟨⟨digits, ?_⟩, split⟩
    intro zero
    cases ds with
    | nil => cases zero
    | cons d tail =>
      obtain rfl : d = '0' := by simpa using zero
      cases tail with
      | nil => rfl
      | cons e tail => exact (alone _ _ _ read).elim

theorem isFraction_of_read (read : readFraction cs = some (ds, rest)) : IsFraction ds ∧ cs = ds ++ rest := by
  unfold readFraction at read
  split at read
  · obtain ⟨⟨es, after⟩, found, same⟩ := Option.map_eq_some_iff.mp read
    obtain ⟨rfl, rfl⟩ := Prod.mk.inj same
    obtain ⟨digits, rfl⟩ := isDigits_of_read found
    exact ⟨.inr ⟨es, digits, rfl⟩, rfl⟩
  · obtain ⟨rfl, rfl⟩ := Prod.mk.inj (Option.some.inj read)
    exact ⟨.inl rfl, rfl⟩

/-- An exponent is read as its letter, its sign and its digits. -/
theorem isExponent_of_digits {e : Char} {es : List Char} (sign : List Char) (letter : e = 'e' ∨ e = 'E')
    (signed : sign = [] ∨ sign = ['+'] ∨ sign = ['-'])
    (read : (readDigits es).map (fun p => (e :: (sign ++ p.1), p.2)) = some (ds, rest)) :
    IsExponent ds ∧ e :: (sign ++ es) = ds ++ rest := by
  obtain ⟨⟨fs, after⟩, found, same⟩ := Option.map_eq_some_iff.mp read
  obtain ⟨rfl, rfl⟩ := Prod.mk.inj same
  obtain ⟨digits, rfl⟩ := isDigits_of_read found
  exact ⟨.inr ⟨e, sign, fs, letter, signed, digits, rfl⟩, by simp⟩

theorem isExponent_of_read (read : readExponent cs = some (ds, rest)) : IsExponent ds ∧ cs = ds ++ rest := by
  unfold readExponent at read
  split at read
  · split at read
    · rename_i e after letter
      have either : e = 'e' ∨ e = 'E' := by simpa using letter
      split at read
      · exact isExponent_of_digits ['+'] either (.inr (.inl rfl)) read
      · exact isExponent_of_digits ['-'] either (.inr (.inr rfl)) read
      · exact isExponent_of_digits [] either (.inl rfl) read
    · obtain ⟨rfl, rfl⟩ := Prod.mk.inj (Option.some.inj read)
      exact ⟨.inl rfl, rfl⟩
  · obtain ⟨rfl, rfl⟩ := Prod.mk.inj (Option.some.inj read)
    exact ⟨.inl rfl, rfl⟩

theorem isMagnitude_of_read (read : readMagnitude cs = some (ds, rest)) : IsMagnitude ds ∧ cs = ds ++ rest := by
  obtain ⟨⟨whole, afterWhole⟩, foundWhole, read⟩ := Option.bind_eq_some_iff.mp read
  obtain ⟨⟨fraction, afterFraction⟩, foundFraction, read⟩ := Option.bind_eq_some_iff.mp read
  obtain ⟨⟨exponent, after⟩, foundExponent, read⟩ := Option.bind_eq_some_iff.mp read
  obtain ⟨rfl, rfl⟩ := Prod.mk.inj (Option.some.inj read)
  obtain ⟨digits, rfl⟩ := isWhole_of_read foundWhole
  obtain ⟨point, rfl⟩ := isFraction_of_read foundFraction
  obtain ⟨power, rfl⟩ := isExponent_of_read foundExponent
  exact ⟨⟨whole, fraction, exponent, digits, point, power, by simp⟩, by simp⟩

theorem isNumber_of_read (read : readNumber cs = some (ds, rest)) : IsNumber ds ∧ cs = ds ++ rest := by
  unfold readNumber at read
  split at read
  · obtain ⟨⟨es, after⟩, found, same⟩ := Option.map_eq_some_iff.mp read
    obtain ⟨rfl, rfl⟩ := Prod.mk.inj same
    obtain ⟨magnitude, rfl⟩ := isMagnitude_of_read found
    exact ⟨.inr ⟨es, magnitude, rfl⟩, rfl⟩
  · obtain ⟨magnitude, split⟩ := isMagnitude_of_read read
    exact ⟨.inl magnitude, split⟩

/-! ## Values -/

/-- The spaces that are skipped. -/
theorem exists_gap (cs : List Char) : ∃ gap, Gap gap ∧ cs = gap ++ skipSpaces cs :=
  ⟨cs.takeWhile isSpace, fun _ member => List.mem_takeWhile_imp member, List.takeWhile_append_dropWhile.symm⟩

theorem Gap.append {gap gap' : List Char} (spaces : Gap gap) (spaces' : Gap gap') : Gap (gap ++ gap') :=
  fun c member => (List.mem_append.mp member).elim (spaces c) (spaces' c)

/-- Spaces may stand before the first item. -/
theorem SpellsItems.spaced {items : List Json} {inside gap : List Char} (spells : SpellsItems items inside)
    (spaces : Gap gap) : SpellsItems items (gap ++ inside) := by
  cases items with
  | nil => exact spells.elim
  | cons item items =>
    rw [SpellsItems] at spells ⊢
    obtain ⟨before, text, after, ending, spaces', value, spaces'', rfl, closes⟩ := spells
    exact ⟨gap ++ before, text, after, ending, spaces.append spaces', value, spaces'', by simp, closes⟩

/-- Spaces may stand before the first member. -/
theorem SpellsMembers.spaced {members : List (Option String × Json)} {inside gap : List Char}
    (spells : SpellsMembers members inside) (spaces : Gap gap) : SpellsMembers members (gap ++ inside) := by
  cases members with
  | nil => exact spells.elim
  | cons member members =>
    obtain ⟨name, value⟩ := member
    rw [SpellsMembers] at spells ⊢
    obtain ⟨before, title, between, beside, text, after, ending, spaces', named, spaces₁, spaces₂, valued, spaces₃, rfl,
      closes⟩ := spells
    exact ⟨gap ++ before, title, between, beside, text, after, ending, spaces.append spaces', named, spaces₁, spaces₂,
      valued, spaces₃, by simp, closes⟩

mutual

/-- What is read as a value is a text of it, with spaces before. -/
theorem spells_of_readValue : ∀ {fuel : Nat} {cs rest : List Char} {j : Json}, readValue fuel cs = some (j, rest) →
    ∃ gap text, Gap gap ∧ Spells j text ∧ cs = gap ++ (text ++ rest)
  | 0, _, _, _, read => by
    rw [readValue] at read
    cases read
  | depth + 1, cs, rest, j, read => by
    obtain ⟨gap, spaces, split⟩ := exists_gap cs
    rw [readValue] at read
    refine ⟨gap, ?_⟩
    split at read
    case h_1 after token =>
      obtain ⟨rfl, rfl⟩ := Prod.mk.inj (Option.some.inj read)
      exact ⟨"null".toList, spaces, by rw [Spells], by rw [split, token]; rfl⟩
    case h_2 after token =>
      obtain ⟨rfl, rfl⟩ := Prod.mk.inj (Option.some.inj read)
      exact ⟨boolChars true, spaces, by rw [Spells], by rw [split, token]; rfl⟩
    case h_3 after token =>
      obtain ⟨rfl, rfl⟩ := Prod.mk.inj (Option.some.inj read)
      exact ⟨boolChars false, spaces, by rw [Spells], by rw [split, token]; rfl⟩
    case h_4 after token =>
      obtain ⟨⟨s, ending⟩, found, same⟩ := Option.map_eq_some_iff.mp read
      obtain ⟨rfl, rfl⟩ := Prod.mk.inj same
      obtain ⟨text, spells, whole⟩ := spellsString_of_read found
      exact ⟨text, spaces, by rwa [Spells], by rw [split, token, whole]⟩
    case h_5 after token =>
      obtain ⟨gap', spaces', split'⟩ := exists_gap after
      split at read
      · rename_i ending closed
        obtain ⟨rfl, rfl⟩ := Prod.mk.inj (Option.some.inj read)
        refine ⟨'[' :: (gap' ++ [']']), spaces, ?_, by rw [split, token, split', closed]; simp⟩
        rw [Spells]
        exact .inl ⟨rfl, gap', spaces', rfl⟩
      · obtain ⟨⟨items, ending⟩, found, same⟩ := Option.map_eq_some_iff.mp read
        obtain ⟨rfl, rfl⟩ := Prod.mk.inj same
        obtain ⟨inside, spells, whole⟩ := spellsItems_of_readItems found
        refine ⟨'[' :: (gap' ++ inside), spaces, ?_, by rw [split, token, split', whole]; simp⟩
        rw [Spells]
        exact .inr ⟨_, spells.spaced spaces', rfl⟩
    case h_6 after token =>
      obtain ⟨gap', spaces', split'⟩ := exists_gap after
      split at read
      · rename_i ending closed
        obtain ⟨rfl, rfl⟩ := Prod.mk.inj (Option.some.inj read)
        refine ⟨'\x7b' :: (gap' ++ ['\x7d']), spaces, ?_, by rw [split, token, split', closed]; simp⟩
        rw [Spells]
        exact .inl ⟨rfl, gap', spaces', rfl⟩
      · obtain ⟨⟨members, ending⟩, found, same⟩ := Option.map_eq_some_iff.mp read
        obtain ⟨rfl, rfl⟩ := Prod.mk.inj same
        obtain ⟨inside, spells, whole⟩ := spellsMembers_of_readMembers found
        refine ⟨'\x7b' :: (gap' ++ inside), spaces, ?_, by rw [split, token, split', whole]; simp⟩
        rw [Spells]
        exact .inr ⟨_, spells.spaced spaces', rfl⟩
    case h_7 =>
      obtain ⟨⟨literal, ending⟩, found, same⟩ := Option.map_eq_some_iff.mp read
      obtain ⟨rfl, rfl⟩ := Prod.mk.inj same
      obtain ⟨number, whole⟩ := isNumber_of_read found
      refine ⟨literal, spaces, ?_, by rw [split, whole]⟩
      rw [Spells]
      exact ⟨rfl, number⟩

theorem spellsItems_of_readItems : ∀ {fuel : Nat} {cs rest : List Char} {items : List Json},
    readItems fuel cs = some (items, rest) → ∃ inside, SpellsItems items inside ∧ cs = inside ++ rest
  | 0, _, _, _, read => by
    rw [readItems] at read
    cases read
  | depth + 1, cs, rest, items, read => by
    rw [readItems] at read
    split at read
    · cases read
    · rename_i item afterItem found
      obtain ⟨before, text, spaces, value, rfl⟩ := spells_of_readValue found
      obtain ⟨after, spaces', split'⟩ := exists_gap afterItem
      split at read
      · rename_i afterComma token
        obtain ⟨⟨items, ending⟩, others, same⟩ := Option.map_eq_some_iff.mp read
        obtain ⟨rfl, rfl⟩ := Prod.mk.inj same
        obtain ⟨more, spells, rfl⟩ := spellsItems_of_readItems others
        refine ⟨before ++ (text ++ (after ++ ',' :: more)), ?_, by rw [split', token]; simp⟩
        rw [SpellsItems]
        exact ⟨before, text, after, _, spaces, value, spaces', rfl, .inr ⟨more, spells, rfl⟩⟩
      · rename_i ending token
        obtain ⟨rfl, rfl⟩ := Prod.mk.inj (Option.some.inj read)
        refine ⟨before ++ (text ++ (after ++ [']'])), ?_, by rw [split', token]; simp⟩
        rw [SpellsItems]
        exact ⟨before, text, after, _, spaces, value, spaces', rfl, .inl ⟨rfl, rfl⟩⟩
      · cases read

theorem spellsMembers_of_readMembers : ∀ {fuel : Nat} {cs rest : List Char} {members : List (Option String × Json)},
    readMembers fuel cs = some (members, rest) → ∃ inside, SpellsMembers members inside ∧ cs = inside ++ rest
  | 0, _, _, _, read => by
    rw [readMembers] at read
    cases read
  | depth + 1, cs, rest, members, read => by
    obtain ⟨before, spaces, split⟩ := exists_gap cs
    rw [readMembers] at read
    split at read
    · rename_i afterQuote quote
      split at read
      · cases read
      · rename_i name afterName foundName
        obtain ⟨title, named, wholeName⟩ := spellsString_of_read foundName
        obtain ⟨gap, spaces₁, split₁⟩ := exists_gap afterName
        split at read
        · rename_i afterColon colon
          split at read
          · cases read
          · rename_i value afterValue foundValue
            obtain ⟨between, text, spaces₂, valued, rfl⟩ := spells_of_readValue foundValue
            obtain ⟨after, spaces₃, split₃⟩ := exists_gap afterValue
            have whole : ∀ ending, skipSpaces afterValue = ending →
                cs = before ++ (title ++ (gap ++ ':' :: (between ++ (text ++ (after ++ ending))))) := by
              rintro ending rfl
              rw [split, quote, wholeName, split₁, colon, ← split₃]
            split at read
            · rename_i afterComma token
              obtain ⟨⟨members, ending⟩, others, same⟩ := Option.map_eq_some_iff.mp read
              obtain ⟨rfl, rfl⟩ := Prod.mk.inj same
              obtain ⟨more, spells, rfl⟩ := spellsMembers_of_readMembers others
              refine ⟨before ++ (title ++ (gap ++ ':' :: (between ++ (text ++ (after ++ ',' :: more))))), ?_,
                by rw [whole _ token]; simp⟩
              rw [SpellsMembers]
              exact ⟨before, title, gap, between, text, after, _, spaces, named, spaces₁, spaces₂, valued, spaces₃, rfl,
                .inr ⟨more, spells, rfl⟩⟩
            · rename_i ending token
              obtain ⟨rfl, rfl⟩ := Prod.mk.inj (Option.some.inj read)
              refine ⟨before ++ (title ++ (gap ++ ':' :: (between ++ (text ++ (after ++ ['\x7d']))))), ?_,
                by rw [whole _ token]; simp⟩
              rw [SpellsMembers]
              exact ⟨before, title, gap, between, text, after, _, spaces, named, spaces₁, spaces₂, valued, spaces₃, rfl,
                .inl ⟨rfl, rfl⟩⟩
            · cases read
        · cases read
    · cases read

end

/-! ## Whole texts -/

/-- A text is read as a value exactly if it is a text of this value. -/
theorem read?_eq_some_iff {s : String} {j : Json} : read? s = some j ↔ j.IsText s := by
  constructor
  · intro read
    unfold read? readChars? at read
    split at read
    · rename_i value after found
      obtain ⟨closed, same⟩ := Option.ite_none_right_eq_some.mp read
      obtain rfl : value = j := Option.some.inj same
      obtain ⟨before, text, spaces, spells, whole⟩ := spells_of_readValue found
      exact ⟨before, text, after, spaces, spells, List.dropWhile_eq_nil_iff.mp closed, whole⟩
    · cases read
  · rintro ⟨before, text, after, spaces, spells, spaces', whole⟩
    rw [read?, whole]
    exact readChars?_of_spells spells spaces spaces'

end FaultSnapshot.Json

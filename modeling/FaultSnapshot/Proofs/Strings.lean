import FaultSnapshot.Json.Reader
import Mathlib.Data.List.Basic

/-!
# Strings of JSON texts

A character of a string has several spellings, and some rows of symbols spell no text, because half of
a surrogate pair stands alone in them. `SpellsString` says which rows of characters are a string and
what they stand for. The reader finds exactly this (`SpellsString.read`, `spellsString_of_read`).
-/

namespace FaultSnapshot.Json

/-! ## Spellings -/

/-- The spellings of a character of a string: itself, an escape of one letter, or its code. -/
inductive SpellsChar : Char → List Char → Prop
  | plain {c : Char} (visible : 0x20 ≤ c.toNat) (quote : c ≠ '"') (slash : c ≠ '\\') : SpellsChar c [c]
  | short {letter c : Char} (escape : shortEscape? letter = some c) : SpellsChar c ['\\', letter]
  | code {c₁ c₂ c₃ c₄ : Char} {n : Nat} (value : hexValues? c₁ c₂ c₃ c₄ = some n)
      (whole : isHighSurrogate n = false ∧ isLowSurrogate n = false) :
      SpellsChar (Char.ofNat n) ['\\', 'u', c₁, c₂, c₃, c₄]
  | pair {c₁ c₂ c₃ c₄ d₁ d₂ d₃ d₄ : Char} {high low : Nat} (first : hexValues? c₁ c₂ c₃ c₄ = some high)
      (second : hexValues? d₁ d₂ d₃ d₄ = some low) (halves : isHighSurrogate high = true ∧ isLowSurrogate low = true) :
      SpellsChar (ofSurrogates high low) ['\\', 'u', c₁, c₂, c₃, c₄, '\\', 'u', d₁, d₂, d₃, d₄]

/-- The spellings of the characters of a string. -/
inductive SpellsChars : List Char → List Char → Prop
  | nil : SpellsChars [] []
  | cons {c : Char} {s part cs : List Char} (first : SpellsChar c part) (rest : SpellsChars s cs) :
      SpellsChars (c :: s) (part ++ cs)

/-- One symbol of a string: a character, an escape of one letter, or a code of four hexadecimal digits. -/
inductive IsSymbol : List Char → Prop
  | plain {c : Char} (visible : 0x20 ≤ c.toNat) (quote : c ≠ '"') (slash : c ≠ '\\') : IsSymbol [c]
  | short {letter c : Char} (escape : shortEscape? letter = some c) : IsSymbol ['\\', letter]
  | code {c₁ c₂ c₃ c₄ : Char} {n : Nat} (value : hexValues? c₁ c₂ c₃ c₄ = some n) :
      IsSymbol ['\\', 'u', c₁, c₂, c₃, c₄]

/-- What may stand between the quotes of a string. -/
inductive IsSymbols : List Char → Prop
  | nil : IsSymbols []
  | cons {symbol cs : List Char} (first : IsSymbol symbol) (rest : IsSymbols cs) : IsSymbols (symbol ++ cs)

/-- The spellings of a string: of a text, or of no text at all. -/
def SpellsString : Option String → List Char → Prop
  | some text, cs => ∃ inside, SpellsChars text.toList inside ∧ cs = '"' :: (inside ++ ['"'])
  | none, cs => ∃ inside, IsSymbols inside ∧ (∀ text, ¬ SpellsChars text inside) ∧ cs = '"' :: (inside ++ ['"'])

theorem IsSymbol.alone {symbol : List Char} (first : IsSymbol symbol) : IsSymbols symbol := by
  simpa using IsSymbols.cons first .nil

theorem IsSymbols.append {cs ds : List Char} (symbols : IsSymbols cs) (more : IsSymbols ds) : IsSymbols (cs ++ ds) := by
  induction symbols with
  | nil => exact more
  | cons first _ ih =>
    rw [List.append_assoc]
    exact .cons first ih

theorem SpellsChar.symbols {c : Char} {part : List Char} (spells : SpellsChar c part) : IsSymbols part := by
  cases spells with
  | plain visible quote slash => exact (IsSymbol.plain visible quote slash).alone
  | short escape => exact (IsSymbol.short escape).alone
  | code value _ => exact (IsSymbol.code value).alone
  | pair first second _ => exact .cons (.code first) (IsSymbol.code second).alone

/-! ## What is read of a spelling -/

theorem readString_plain {c : Char} (visible : 0x20 ≤ c.toNat) (quote : c ≠ '"') (slash : c ≠ '\\')
    (rest : List Char) : readString (c :: rest) = consChar c (readString rest) := by
  have seen : (c.toNat < 0x20 || c = '\\') = false := by simp [slash, visible]
  rw [readString]
  · rw [seen]
    rfl
  · exact quote
  · simp [slash]
  · simp [slash]

theorem not_u_of_shortEscape {letter c : Char} (escape : shortEscape? letter = some c) : letter ≠ 'u' := by
  rintro rfl
  cases escape

theorem readString_short {letter c : Char} (escape : shortEscape? letter = some c) (rest : List Char) :
    readString ('\\' :: letter :: rest) = consChar c (readString rest) := by
  rw [readString]
  · rw [escape]
  · simp [not_u_of_shortEscape escape]

theorem readString_spellsChar {c : Char} {part : List Char} (spells : SpellsChar c part) (rest : List Char) :
    readString (part ++ rest) = consChar c (readString rest) := by
  cases spells with
  | plain visible quote slash => exact readString_plain visible quote slash rest
  | short escape => exact readString_short escape rest
  | code value whole => simp [readString, value, whole]
  | pair first second halves => simp [readString, first, second, halves]

theorem readString_spells {s cs : List Char} (spells : SpellsChars s cs) (rest : List Char) :
    readString (cs ++ '"' :: rest) = some (some s, rest) := by
  induction spells with
  | nil => rw [List.nil_append, readString]
  | cons first _ ih => rw [List.append_assoc, readString_spellsChar first, ih]; rfl

/-- The first half of a pair with something else than a code after it stands alone. -/
theorem readString_half {c₁ c₂ c₃ c₄ : Char} {n : Nat} (value : hexValues? c₁ c₂ c₃ c₄ = some n)
    (high : isHighSurrogate n = true) {rest : List Char} (other : ∀ after, rest ≠ '\\' :: 'u' :: after) :
    readString ('\\' :: 'u' :: c₁ :: c₂ :: c₃ :: c₄ :: rest) = garble (readString rest) := by
  rw [readString, value]
  simp only [high, if_true]
  split
  · rename_i e f g h after
    exact absurd rfl (other (e :: f :: g :: h :: after))
  · rfl

/-! ## What is read was a spelling -/

variable {cs rest : List Char} {s : Option (List Char)}

theorem consChar_eq_some {c : Char} {r : Option (Option (List Char) × List Char)}
    (read : consChar c r = some (s, rest)) : ∃ t, r = some (t, rest) ∧ s = t.map (c :: ·) := by
  cases r with
  | none => cases read
  | some p =>
    obtain ⟨t, after⟩ := p
    obtain ⟨rfl, rfl⟩ := Prod.mk.inj (Option.some.inj read)
    exact ⟨t, rfl, rfl⟩

theorem garble_eq_some {r : Option (Option (List Char) × List Char)} (read : garble r = some (s, rest)) :
    s = none ∧ ∃ t, r = some (t, rest) := by
  cases r with
  | none => cases read
  | some p =>
    obtain ⟨t, after⟩ := p
    obtain ⟨rfl, rfl⟩ := Prod.mk.inj (Option.some.inj read)
    exact ⟨rfl, t, rfl⟩

/-- The characters begin with the inside of a string and its closing quote. If the string is a text,
    the inside is a spelling of it. -/
def HoldsString (cs : List Char) (s : Option (List Char)) (rest : List Char) : Prop :=
  ∃ inside, IsSymbols inside ∧ (∀ text, s = some text → SpellsChars text inside) ∧ cs = inside ++ '"' :: rest

theorem HoldsString.cons (holds : HoldsString cs s rest) {c : Char} {part : List Char} (first : SpellsChar c part) :
    HoldsString (part ++ cs) (s.map (c :: ·)) rest := by
  obtain ⟨inside, symbols, spells, rfl⟩ := holds
  refine ⟨part ++ inside, first.symbols.append symbols, ?_, by simp⟩
  intro text same
  obtain ⟨tail, whole, rfl⟩ := Option.map_eq_some_iff.mp same
  exact .cons first (spells tail whole)

theorem HoldsString.garbled (holds : HoldsString cs s rest) {symbol : List Char} (first : IsSymbol symbol) :
    HoldsString (symbol ++ cs) none rest := by
  obtain ⟨inside, symbols, _, rfl⟩ := holds
  exact ⟨symbol ++ inside, .cons first symbols, fun _ impossible => (nomatch impossible), by simp⟩

/-- Where a character was read, the rest was read before. -/
theorem holds_consChar {c : Char} {part : List Char} (first : SpellsChar c part)
    (ih : ∀ {s rest}, readString cs = some (s, rest) → HoldsString cs s rest)
    (read : consChar c (readString cs) = some (s, rest)) : HoldsString (part ++ cs) s rest := by
  obtain ⟨t, readRest, rfl⟩ := consChar_eq_some read
  exact (ih readRest).cons first

/-- Where half of a pair was read, the rest was read before. -/
theorem holds_garble {symbol : List Char} (first : IsSymbol symbol)
    (ih : ∀ {s rest}, readString cs = some (s, rest) → HoldsString cs s rest)
    (read : garble (readString cs) = some (s, rest)) : HoldsString (symbol ++ cs) s rest := by
  obtain ⟨rfl, t, readRest⟩ := garble_eq_some read
  exact (ih readRest).garbled first

theorem holdsString_of_read : ∀ {s rest}, readString cs = some (s, rest) → HoldsString cs s rest := by
  fun_induction readString cs with
  | case1 => exact fun read => nomatch read
  | case2 after =>
    intro s rest read
    obtain ⟨rfl, rfl⟩ := Prod.mk.inj (Option.some.inj read)
    refine ⟨[], .nil, ?_, rfl⟩
    rintro text ⟨⟩
    exact .nil
  | case3 => exact fun read => nomatch read
  | case4 => exact fun read => nomatch read
  | case5 a b c d high first isHigh e f g h after low second isLow ih =>
    exact fun read => holds_consChar (.pair first second ⟨isHigh, isLow⟩) ih read
  | case6 a b c d high value _ e f g h after _ _ _ ih => exact fun read => holds_garble (.code value) ih read
  | case7 a b c d high value _ after _ ih => exact fun read => holds_garble (.code value) ih read
  | case8 a b c d after low value _ _ ih => exact fun read => holds_garble (.code value) ih read
  | case9 a b c d after n value notHigh notLow ih =>
    exact fun read => holds_consChar (.code value ⟨by simpa using notHigh, by simpa using notLow⟩) ih read
  | case10 letter after _ c escape ih => exact fun read => holds_consChar (.short escape) ih read
  | case11 => exact fun read => nomatch read
  | case12 => exact fun read => nomatch read
  | case13 c after notQuote _ _ visible ih =>
    simp only [Bool.or_eq_true, decide_eq_true_eq, not_or, Nat.not_lt] at visible
    exact fun read => holds_consChar (.plain visible.1 notQuote visible.2) ih read

/-- All symbols up to the closing quote are read. -/
theorem readString_symbols (symbols : IsSymbols cs) (rest : List Char) :
    ∃ s, readString (cs ++ '"' :: rest) = some (s, rest) := by
  -- The second half of a pair is read together with the first, so the induction is on the length.
  induction length : cs.length using Nat.strongRecOn generalizing cs with
  | ind n ih =>
    subst length
    cases symbols with
    | nil => exact ⟨some [], by rw [List.nil_append, readString]⟩
    | @cons symbol tail first others =>
      have filled : 0 < symbol.length := by cases first <;> exact Nat.succ_pos _
      have shorter : tail.length < (symbol ++ tail).length := by
        rw [List.length_append]
        omega
      obtain ⟨s, read⟩ := ih tail.length shorter others rfl
      rw [List.append_assoc]
      cases first with
      | @plain c visible quote slash =>
        exact ⟨s.map (c :: ·), by rw [readString_spellsChar (.plain visible quote slash), read]; rfl⟩
      | @short letter c escape => exact ⟨s.map (c :: ·), by rw [readString_spellsChar (.short escape), read]; rfl⟩
      | @code c₁ c₂ c₃ c₄ n value =>
        by_cases high : isHighSurrogate n = true
        · have alone : (∀ after, tail ++ '"' :: rest ≠ '\\' :: 'u' :: after) →
              ∃ s, readString (['\\', 'u', c₁, c₂, c₃, c₄] ++ (tail ++ '"' :: rest)) = some (s, rest) :=
            fun other => ⟨none, (readString_half value high other).trans (by rw [read]; rfl)⟩
          cases others with
          | nil => exact alone (by simp)
          | @cons symbol more next others =>
            cases next with
            | plain _ _ slash => exact alone (by simp [slash])
            | short escape => exact alone (by simp [not_u_of_shortEscape escape])
            | @code d₁ d₂ d₃ d₄ m second =>
              by_cases low : isLowSurrogate m = true
              · obtain ⟨s, read⟩ := ih more.length (by simp; omega) others rfl
                refine ⟨s.map (ofSurrogates n m :: ·), ?_⟩
                have pair := readString_spellsChar (.pair value second ⟨high, low⟩) (more ++ '"' :: rest)
                simp only [List.cons_append, List.nil_append] at pair ⊢
                rw [pair, read]
                rfl
              · refine ⟨none, ?_⟩
                simp only [List.cons_append, List.nil_append] at read ⊢
                simp [readString, value, high, second, low, read, garble]
        · by_cases low : isLowSurrogate n = true
          · exact ⟨none, by simp [readString, value, high, low, read, garble]⟩
          · refine ⟨s.map (Char.ofNat n :: ·), ?_⟩
            rw [readString_spellsChar (.code value ⟨by simpa using high, by simpa using low⟩), read]
            rfl

/-! ## Strings -/

/-- A spelling of a string is read as this string. -/
theorem SpellsString.read {s : Option String} (spells : SpellsString s cs) :
    ∃ inside, cs = '"' :: (inside ++ ['"']) ∧
      ∀ rest, readString (inside ++ '"' :: rest) = some (s.map String.toList, rest) := by
  cases s with
  | some text =>
    obtain ⟨inside, chars, rfl⟩ := spells
    exact ⟨inside, rfl, readString_spells chars⟩
  | none =>
    obtain ⟨inside, symbols, noText, rfl⟩ := spells
    refine ⟨inside, rfl, ?_⟩
    intro rest
    obtain ⟨s, read⟩ := readString_symbols symbols rest
    obtain ⟨inside', _, chars, same⟩ := holdsString_of_read read
    obtain rfl : inside = inside' := List.append_cancel_right same
    cases s with
    | none => exact read
    | some text => exact absurd (chars text rfl) (noText text)

/-- What is read as a string is a spelling of it. -/
theorem spellsString_of_read (read : readString cs = some (s, rest)) :
    ∃ text, SpellsString (s.map String.ofList) text ∧ '"' :: cs = text ++ rest := by
  obtain ⟨inside, symbols, chars, rfl⟩ := holdsString_of_read read
  refine ⟨'"' :: (inside ++ ['"']), ?_, by simp⟩
  cases s with
  | some text => exact ⟨inside, by simpa using chars text rfl, rfl⟩
  | none =>
    refine ⟨inside, symbols, ?_, rfl⟩
    intro text chars
    rw [readString_spells chars] at read
    cases read

end FaultSnapshot.Json

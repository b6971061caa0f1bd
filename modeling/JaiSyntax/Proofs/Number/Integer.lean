import JaiSyntax.Proofs.Lexer.Words
import JaiSyntax.Proofs.Number.Numeral
/-!
Integer literals. A literal in any base is one token with the value of its numeral, however long it is and
wherever underscores stand in it. A value that does not fit 64 bits is an error, and the largest that does
stands in its place.
-/

set_option autoImplicit false

namespace JaiSyntax

/-! ### Ways to write an integer -/

def integerPrefixes : List (Char × NumberBase) :=
  [('b', .binary), ('B', .binary), ('o', .octal), ('O', .octal), ('x', .hexadecimal),
    ('X', .hexadecimal)]

/-- The ways to write an integer with some digits, the highest one first. -/
inductive WritesInteger : NumberBase → List Nat → List Char → Prop where
  | decimal {values : List Nat} {digits : List Char} (written : SeparatedDigits 10 values digits) :
      WritesInteger .decimal values digits
  | prefixed {base : NumberBase} {letter : Char} {values : List Nat} {digits ending : List Char}
      (known : (letter, base) ∈ integerPrefixes) (written : SeparatedDigits base.radix values digits)
      (ends : ending = [] ∨ ending = ['_']) :
      WritesInteger base values ('0' :: letter :: (digits ++ ending))

def NumberBase.digitsOf : NumberBase → List Char → List Char
  | .decimal, text => text
  | _, text => text.drop 2

theorem NumberBase.radix_known (base : NumberBase) : base.radix ∈ [2, 8, 10, 16] := by
  cases base <;> decide

theorem digitsOf_prefixed {letter : Char} {base : NumberBase} (known : (letter, base) ∈ integerPrefixes)
    (text : List Char) : base.digitsOf text = text.drop 2 := by
  have prefixes : ∀ entry ∈ integerPrefixes, entry.2 ≠ .decimal := by
    decide
  have other := prefixes _ known
  cases base with
  | decimal => exact absurd rfl other
  | binary => rfl
  | octal => rfl
  | hexadecimal => rfl

section Integers

variable {base : NumberBase} {values : List Nat} {text digits ending : List Char} {radix : Nat}
  {digit : Char → Bool}

theorem WritesInteger.numeral? (written : WritesInteger base values text) :
    numeral? base.radix (base.digitsOf text) = some (Nat.ofDigits base.radix values.reverse) := by
  cases written with
  | decimal written =>
      have read := written.numeral? (by decide) (Or.inl rfl)
      rw [List.append_nil] at read
      exact read
  | @prefixed _ letter _ digits ending known written ends =>
      rw [digitsOf_prefixed known]
      exact written.numeral? base.radix_known ends

/-! ### Extents -/

theorem digitsFrom_digit (covered : Nat) {character : Char} (holds : digit character = true)
    (rest : List Char) :
    digitsFrom digit covered (character :: rest) = digitsFrom digit (covered + 1) rest := by
  cases rest with
  | nil => simp only [digitsFrom, if_pos holds]
  | cons next rest => rw [digitsFrom, if_pos holds]

theorem digitsFrom_underscore (noDigit : digit '_' = false) (covered : Nat) {next : Char}
    (holds : digit next = true) (rest : List Char) :
    digitsFrom digit covered ('_' :: next :: rest) = digitsFrom digit (covered + 2) rest := by
  simp [digitsFrom, noDigit, holds]

/-- The scan behind the first digit goes over the others and over the underscores between them. -/
theorem SeparatedDigits.digitsFrom (written : SeparatedDigits radix values digits)
    (passes : ∀ value character, IsDigit radix value character → digit character = true)
    (noDigit : digit '_' = false) (ends : ending = [] ∨ ending = ['_']) (covered : Nat) :
    ∃ first rest, digits = first :: rest ∧ digit first = true ∧
      JaiSyntax.digitsFrom digit (covered + 1) (rest ++ ending) = covered + digits.length := by
  -- An underscore is covered together with the digit behind it, so each step starts behind a digit.
  induction written generalizing covered with
  | @single value character isDigit =>
      refine ⟨character, [], rfl, passes _ _ isDigit, ?_⟩
      rcases ends with rfl | rfl
      · rfl
      · simp [JaiSyntax.digitsFrom, noDigit]
  | @joined value character values digits isDigit later ih =>
      obtain ⟨next, rest, rfl, holds, scanned⟩ := ih (covered + 1)
      refine ⟨character, next :: rest, rfl, passes _ _ isDigit, ?_⟩
      rw [List.cons_append, digitsFrom_digit _ holds, scanned]
      simp only [List.length_cons]
      omega
  | @separated value character values digits isDigit later ih =>
      obtain ⟨next, rest, rfl, holds, scanned⟩ := ih (covered + 2)
      refine ⟨character, '_' :: next :: rest, rfl, passes _ _ isDigit, ?_⟩
      rw [List.cons_append, List.cons_append, digitsFrom_underscore noDigit _ holds, scanned]
      simp only [List.length_cons]
      omega

/-- All the digits belong to the number, and an underscore behind them does not. -/
theorem SeparatedDigits.digitsLength (written : SeparatedDigits radix values digits)
    (passes : ∀ value character, IsDigit radix value character → digit character = true)
    (noDigit : digit '_' = false) (ends : ending = [] ∨ ending = ['_']) :
    JaiSyntax.digitsLength digit (digits ++ ending) = digits.length ∧ digits.length ≠ 0 := by
  obtain ⟨first, rest, rfl, holds, scanned⟩ := written.digitsFrom passes noDigit ends 0
  rw [Nat.zero_add, Nat.zero_add] at scanned
  constructor
  · rw [List.cons_append, JaiSyntax.digitsLength, if_pos holds, scanned]
  · exact Nat.succ_ne_zero rest.length

theorem isDecimalDigit_of (value : Nat) (character : Char) (isDigit : IsDigit 10 value character) :
    isDecimalDigit character = true := isDigit.passes (by decide)

structure ReadsPrefix (letter : Char) (base : NumberBase) (form : NumberForm) (digit : Char → Bool) :
    Prop where
  known : prefixedForm? letter = some (form, digit)
  passes : ∀ value character, IsDigit base.radix value character → digit character = true
  noDigit : digit '_' = false
  lexeme : ∀ length text, numberLexeme ⟨form, length, 0⟩ text = integerLexeme base text (text.drop 2)

theorem readsPrefix {letter : Char} (known : (letter, base) ∈ integerPrefixes) :
    ∃ form digit, ReadsPrefix letter base form digit := by
  have binary (letter : Char) (known : prefixedForm? letter = some (.binary, isBinaryDigit)) :
      ReadsPrefix letter .binary .binary isBinaryDigit :=
    ⟨known, fun _ _ isDigit => isDigit.passes (by decide), rfl, fun _ _ => rfl⟩
  have octal (letter : Char) (known : prefixedForm? letter = some (.octal, isOctalNumeral)) :
      ReadsPrefix letter .octal .octal isOctalNumeral :=
    ⟨known, fun _ _ isDigit => isDigit.passes (by decide), rfl, fun _ _ => rfl⟩
  have hexadecimal (letter : Char) (known : prefixedForm? letter = some (.hexadecimal, isHexNumeral)) :
      ReadsPrefix letter .hexadecimal .hexadecimal isHexNumeral :=
    ⟨known, fun _ _ isDigit => isDigit.passes (by decide), rfl, fun _ _ => rfl⟩
  simp only [integerPrefixes, List.mem_cons, Prod.mk.injEq, List.not_mem_nil, or_false] at known
  rcases known with ⟨rfl, rfl⟩ | ⟨rfl, rfl⟩ | ⟨rfl, rfl⟩ | ⟨rfl, rfl⟩ | ⟨rfl, rfl⟩ | ⟨rfl, rfl⟩
  · exact ⟨_, _, binary 'b' rfl⟩
  · exact ⟨_, _, binary 'B' rfl⟩
  · exact ⟨_, _, octal 'o' rfl⟩
  · exact ⟨_, _, octal 'O' rfl⟩
  · exact ⟨_, _, hexadecimal 'x' rfl⟩
  · exact ⟨_, _, hexadecimal 'X' rfl⟩

/-- An underscore at the end belongs to a literal with a prefix. -/
theorem prefixedExtent_whole (form : NumberForm) (digit : Char → Bool) (letter : Char)
    (digits : List Char) (ends : ending = [] ∨ ending = ['_']) :
    prefixedExtent form digit digits.length ('0' :: letter :: (digits ++ ending)) =
      ⟨form, ('0' :: letter :: (digits ++ ending)).length, 0⟩ := by
  have after : ('0' :: letter :: (digits ++ ending)).drop (digits.length + 2) = ending := by
    rw [List.drop_succ_cons, List.drop_succ_cons, List.drop_left]
  have length : ('0' :: letter :: (digits ++ ending)).length = digits.length + 2 + ending.length := by
    simp only [List.length_cons, List.length_append]
    omega
  simp only [prefixedExtent, after, length]
  rcases ends with rfl | rfl
  · cases form <;> rfl
  · cases form <;> rfl

theorem numberExtent_prefixed {letter : Char} {form : NumberForm}
    (known : prefixedForm? letter = some (form, digit))
    (passes : ∀ value character, IsDigit radix value character → digit character = true)
    (noDigit : digit '_' = false) (written : SeparatedDigits radix values digits)
    (ends : ending = [] ∨ ending = ['_']) :
    numberExtent ('0' :: letter :: (digits ++ ending)) =
      ⟨form, ('0' :: letter :: (digits ++ ending)).length, 0⟩ := by
  obtain ⟨length, some⟩ := written.digitsLength passes noDigit ends
  have positive : ¬ (digits.length == 0) = true := by
    simpa using some
  simp only [numberExtent, known, length, if_neg positive]
  exact prefixedExtent_whole form digit letter digits ends

/-- No prefix has a digit or an underscore as its letter. -/
theorem prefixedForm?_digit {letter : Char} (plain : isDecimalDigit letter = true ∨ letter = '_') :
    prefixedForm? letter = none := by
  rw [prefixedForm?.eq_def]
  split
  all_goals first | rfl | exact absurd plain (by decide)

theorem numberExtent_decimal (written : SeparatedDigits 10 values digits) :
    numberExtent digits = ⟨.decimal, digits.length, 0⟩ := by
  have length := (written.digitsLength isDecimalDigit_of rfl (Or.inl rfl)).1
  rw [List.append_nil] at length
  have whole : decimalExtent (digitsLength isDecimalDigit digits) digits =
      ⟨.decimal, digits.length, 0⟩ := by
    rw [length, decimalExtent, List.drop_length]
    rfl
  have second (letter : Char) (rest : List Char) (same : digits = '0' :: letter :: rest) :
      isDecimalDigit letter = true ∨ letter = '_' := by
    subst same
    cases written with
    | joined _ later =>
        obtain ⟨_, _, same, holds, -⟩ := later.digitsFrom isDecimalDigit_of rfl (Or.inl rfl) 0
        rw [(List.cons.inj same).1]
        exact Or.inl holds
    | separated _ _ => exact Or.inr rfl
  rw [numberExtent.eq_def]
  split
  · next letter rest =>
      rw [prefixedForm?_digit (second letter rest rfl)]
      exact whole
  · exact whole

/-! ### The literal as a token -/

/-- A source that is a single number. -/
theorem lexemes_number {form : NumberForm} {character : Char} {rest : List Char}
    (digit : character.isDigit = true)
    (extent : numberExtent (character :: rest) = ⟨form, (character :: rest).length, 0⟩) :
    lexemes (character :: rest) =
      [numberLexeme ⟨form, (character :: rest).length, 0⟩ (character :: rest)] := by
  have front := frontLexemes_number digit rest
  rw [extent, NumberExtent.length, Nat.add_zero, List.take_length] at front
  have covers : character :: rest =
      joinLexemes [numberLexeme ⟨form, (character :: rest).length, 0⟩ (character :: rest)] ++ [] := by
    rw [joinLexemes, List.flatMap_singleton, (numberLexeme_text _ _).1, List.append_nil]
  exact lexemes_front front covers

/-- A literal alone is the lexeme of its digits. -/
theorem WritesInteger.lexemes (written : WritesInteger base values text) :
    lexemes text = [integerLexeme base text (base.digitsOf text)] := by
  cases written with
  | decimal written =>
      have extent := numberExtent_decimal written
      obtain ⟨first, rest, rfl, holds, -⟩ := written.digitsFrom isDecimalDigit_of rfl (Or.inl rfl) 0
      exact lexemes_number holds extent
  | @prefixed _ letter _ digits ending known written ends =>
      obtain ⟨form, digit, reads⟩ := readsPrefix known
      have extent := numberExtent_prefixed reads.known reads.passes reads.noDigit written ends
      rw [lexemes_number (by decide) extent, reads.lexeme, digitsOf_prefixed known]

theorem filter_fits (number : Nat) :
    (some number).filter (fun number => decide (number ≤ maxWord)) =
      if number < 2 ^ 64 then some number else none := by
  have same : number ≤ maxWord ↔ number < 2 ^ 64 := by
    unfold maxWord
    omega
  simp only [Option.filter_some, same, decide_eq_true_eq]

theorem integerLexeme_of_numeral {number : Nat} (read : numeral? base.radix digits = some number) :
    integerLexeme base text digits =
      ⟨.int, text, .int (if number < 2 ^ 64 then number else maxWord) base,
        if number < 2 ^ 64 then none else some ⟨.intOverflow, text⟩⟩ := by
  rw [integerLexeme, word?, read, filter_fits]
  by_cases fits : number < 2 ^ 64
  · simp only [if_pos fits]
  · simp only [if_neg fits]
    rfl

/-- An integer literal, alone in a source, is one token with the value of its numeral, and an error just if
that does not fit 64 bits. Reading it in 64-bit arithmetic overflows in the same case. -/
theorem lex_integer {number : Nat} (written : WritesInteger base values text)
    (value : number = Nat.ofDigits base.radix values.reverse) :
    lex text =
        ⟨[⟨.int, ⟨0, utf8Length text⟩, .int (if number < 2 ^ 64 then number else 18446744073709551615) base,
            String.ofList text⟩, .endOfFile (utf8Length text)],
          if number < 2 ^ 64 then [] else [⟨⟨0, utf8Length text⟩, .intOverflow⟩]⟩ ∧
      (checkedFrom? (UInt64.ofNat base.radix) 0 (base.digitsOf text)).map UInt64.toNat =
        if number < 2 ^ 64 then some number else none := by
  have read := written.numeral?
  rw [← value] at read
  constructor
  · have pieces := written.lexemes
    rw [integerLexeme_of_numeral read] at pieces
    by_cases fits : number < 2 ^ 64
    · rw [if_pos fits, if_pos fits] at pieces
      rw [lex, pieces, if_pos fits, if_pos fits]
      simp only [tokensFrom, lexErrorsFrom, Nat.zero_add]
      rfl
    · rw [if_neg fits, if_neg fits] at pieces
      rw [lex, pieces, if_neg fits, if_neg fits]
      simp only [tokensFrom, lexErrorsFrom, Nat.zero_add]
      rfl
  · have radix : (UInt64.ofNat base.radix).toNat = base.radix := by
      cases base <;> rfl
    have positive : 1 ≤ (UInt64.ofNat base.radix).toNat := by
      cases base <;> decide
    rw [checkedFrom?_eq _ _ positive, radix, ← filter_fits, ← read]
    rfl

end Integers

/-- Sixteen hexadecimal digits always fit, and seventeen need not. -/
theorem lex_integer_edges :
    WritesInteger .hexadecimal (List.replicate 16 15) ('0' :: 'X' :: (List.replicate 16 'F' ++ [])) ∧
      lex ('0' :: 'X' :: (List.replicate 16 'F' ++ [])) =
        ⟨[⟨.int, ⟨0, 18⟩, .int 18446744073709551615 .hexadecimal, "0XFFFFFFFFFFFFFFFF"⟩, .endOfFile 18],
          []⟩ ∧
      WritesInteger .hexadecimal (List.replicate 17 15) ('0' :: 'x' :: (List.replicate 17 'f' ++ ['_'])) ∧
      lex ('0' :: 'x' :: (List.replicate 17 'f' ++ ['_'])) =
        ⟨[⟨.int, ⟨0, 20⟩, .int 18446744073709551615 .hexadecimal, "0xfffffffffffffffff_"⟩, .endOfFile 20],
          [⟨⟨0, 20⟩, .intOverflow⟩]⟩ := by
  have upper (count : Nat) :
      SeparatedDigits 16 (List.replicate (count + 1) 15) (List.replicate (count + 1) 'F') := by
    induction count with
    | zero => exact .single ⟨by decide, Or.inr (by decide)⟩
    | succ count ih => exact .joined ⟨by decide, Or.inr (by decide)⟩ ih
  have lower (count : Nat) :
      SeparatedDigits 16 (List.replicate (count + 1) 15) (List.replicate (count + 1) 'f') := by
    induction count with
    | zero => exact .single ⟨by decide, Or.inl (by decide)⟩
    | succ count ih => exact .joined ⟨by decide, Or.inl (by decide)⟩ ih
  have fits : WritesInteger .hexadecimal (List.replicate 16 15)
      ('0' :: 'X' :: (List.replicate 16 'F' ++ [])) := .prefixed (by decide) (upper 15) (Or.inl rfl)
  have large : WritesInteger .hexadecimal (List.replicate 17 15)
      ('0' :: 'x' :: (List.replicate 17 'f' ++ ['_'])) := .prefixed (by decide) (lower 16) (Or.inr rfl)
  exact ⟨fits, (lex_integer fits rfl).1, large, (lex_integer large rfl).1⟩

end JaiSyntax

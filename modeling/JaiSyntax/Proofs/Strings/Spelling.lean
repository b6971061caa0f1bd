import JaiSyntax.Proofs.Lexer.Concatenation
import JaiSyntax.Proofs.Number.Numeral
/-!
How the characters of a string can be written. A character stands for itself, or an escape sequence gives its
code point in digits; digits in braces may also give a number that is no code point. Each way is one piece of
the string body, whatever follows it, or part of a run of plain content.
-/

set_option autoImplicit false

namespace JaiSyntax

open SourceUnit

/-! ### Numerals -/

section Numerals

variable {radix number value : Nat} {digits : List Char} {character : Char}

namespace IsDigit

theorem hex (digit : IsDigit 16 value character) : isHexDigit character = true :=
  digit.passes (by decide)

theorem octal (digit : IsDigit 8 value character) : isOctalDigit character = true :=
  digit.passes (by decide)

end IsDigit

theorem IsNumeral.hexDigits (numeral : IsNumeral 16 digits number) :
    ∀ character ∈ digits, isHexDigit character = true :=
  numeral.forall_digits (fun _ _ digit => digit.hex)

theorem IsNumeral.octalDigits (numeral : IsNumeral 8 digits number) :
    ∀ character ∈ digits, isOctalDigit character = true :=
  numeral.forall_digits (fun _ _ digit => digit.octal)

theorem IsNumeral.scalar (numeral : IsNumeral radix digits character.toNat) (known : radix ∈ [2, 8, 10, 16]) :
    numeralScalar? radix digits = some character := by
  have small : character.toNat ≤ maxWord := by
    have bound : character.toNat < 4294967296 := character.val.toNat_lt
    unfold maxWord
    omega
  rw [numeralScalar?, word?, numeral.numeral? known, Option.filter_some, if_pos (decide_eq_true small)]
  exact scalar?_eq_some_iff.mpr rfl

/-- A numeral of no code point stands for no character, however long it is. -/
theorem IsNumeral.no_scalar (numeral : IsNumeral radix digits number) (known : radix ∈ [2, 8, 10, 16])
    (unassigned : ∀ character : Char, character.toNat ≠ number) : numeralScalar? radix digits = none := by
  have none : scalar? number = none :=
    Option.eq_none_iff_forall_ne_some.mpr fun character found =>
      unassigned character (scalar?_eq_some_iff.mp found)
  rw [numeralScalar?, word?, numeral.numeral? known, Option.filter_some]
  by_cases small : number ≤ maxWord
  · rw [if_pos (decide_eq_true small)]
    exact none
  · rw [if_neg (by simpa using small)]
    rfl

end Numerals

/-! ### Ways to write a character -/

/-- The escape sequences with a fixed number of hexadecimal digits after their letter. -/
def fixedEscapes : List (Char × Nat × EscapeForm) :=
  [('x', 2, .hex), ('u', 4, .unicode4), ('U', 8, .unicode8)]

def bracedEscapeText (digits : List Char) : List Char :=
  ['\\', 'u', '\x7b'] ++ digits ++ ['\x7d']

/-- The ways to write a character between the quotes of a string, and to write no character by a number in
braces that is no code point. -/
inductive WrittenAs : Option Char → List Char → Prop where
  | raw {character : Char} (noQuote : character ≠ '"') (noBackslash : character ≠ '\\') :
      WrittenAs (some character) [character]
  | fixed {letter character : Char} {count : Nat} {form : EscapeForm} {digits : List Char}
      (known : (letter, count, form) ∈ fixedEscapes) (size : digits.length = count)
      (numeral : IsNumeral 16 digits character.toNat) :
      WrittenAs (some character) ('\\' :: letter :: digits)
  | octal {character : Char} {digits : List Char} (size : digits.length = 3)
      (numeral : IsNumeral 8 digits character.toNat) : WrittenAs (some character) ('\\' :: digits)
  | braced {character : Char} {digits : List Char} (some : digits ≠ [])
      (numeral : IsNumeral 16 digits character.toNat) :
      WrittenAs (Option.some character) (bracedEscapeText digits)
  | unassigned {number : Nat} {digits : List Char} (some : digits ≠ [])
      (numeral : IsNumeral 16 digits number)
      (unassigned : ∀ character : Char, character.toNat ≠ number) :
      WrittenAs none (bracedEscapeText digits)

/-- A piece of a string that is an escape sequence whatever follows it, with what it stands for. -/
structure Escapes (form : EscapeForm) (piece : List Char) (meaning : Option Char) : Prop where
  scanned (more : List Char) : stringPiece (piece ++ more) = (.escape form, piece.length)
  stands : escapedCharacter? form piece = meaning

section Escapes

variable {digits : List Char}

theorem isPlainContent_eq_false_iff (character : Char) :
    isPlainContent character = false ↔ character = '"' ∨ character = '\\' ∨ character = '\n' := by
  rw [isPlainContent, Bool.not_eq_false', Bool.or_eq_true, Bool.or_eq_true, is_iff, is_iff, is_iff,
    or_assoc]

theorem runLength_take_all {test : Char → Bool} (all : ∀ character ∈ digits, test character = true)
    (more : List Char) : runLength test ((digits ++ more).take digits.length) = digits.length := by
  rw [List.take_left, runLength, List.takeWhile_eq_self_iff.mpr all]

theorem escapedCharacter?_fixed : ∀ entry ∈ fixedEscapes, ∀ text,
    escapedCharacter? entry.2.2 text = numeralScalar? 16 (text.drop 2) := by
  simp [fixedEscapes, escapedCharacter?]

theorem escapeAfterBackslash_fixed {letter : Char} {count : Nat} {form : EscapeForm}
    (known : (letter, count, form) ∈ fixedEscapes) (size : digits.length = count)
    (hex : ∀ character ∈ digits, isHexDigit character = true) (more : List Char) :
    escapeAfterBackslash (letter :: (digits ++ more)) = (form, count + 1) := by
  have run : hexRunLength count (digits ++ more) = count := by
    rw [← size]
    exact runLength_take_all hex more
  have cases : letter = 'x' ∧ count = 2 ∧ form = .hex ∨ letter = 'u' ∧ count = 4 ∧ form = .unicode4 ∨
      letter = 'U' ∧ count = 8 ∧ form = .unicode8 := by
    simpa [fixedEscapes] using known
  rcases cases with ⟨rfl, rfl, rfl⟩ | ⟨rfl, rfl, rfl⟩ | ⟨rfl, rfl, rfl⟩
  · have short : escapeAfterBackslash ('x' :: (digits ++ more)) =
        fixedHexEscape .hex 2 (digits ++ more) := rfl
    rw [short, fixedHexEscape, run]
    rfl
  · -- The first digit is no brace.
    obtain ⟨first, rest, rfl⟩ : ∃ first rest, digits = first :: rest :=
      List.exists_cons_of_length_pos (by omega)
    have closed : nextIs '\x7b' (first :: rest ++ more) = false := by
      cases brace : is '\x7b' first with
      | false => exact brace
      | true =>
          have same : first = '\x7b' := (is_iff _ _).mp brace
          have digit := hex first List.mem_cons_self
          rw [same] at digit
          exact absurd digit (by decide)
    have long : escapeAfterBackslash ('u' :: (first :: rest ++ more)) =
        if nextIs '\x7b' (first :: rest ++ more) = true then bracedEscape (first :: rest ++ more)
        else fixedHexEscape .unicode4 4 (first :: rest ++ more) := rfl
    rw [long, closed, if_neg Bool.false_ne_true, fixedHexEscape, run]
    rfl
  · have upper : escapeAfterBackslash ('U' :: (digits ++ more)) =
        if (hexRunLength 8 (digits ++ more) == 8) = true then (.unicode8, 9) else (.single, 1) := rfl
    rw [upper, run]
    rfl

theorem escapeAfterBackslash_octal (size : digits.length = 3)
    (octal : ∀ character ∈ digits, isOctalDigit character = true) (more : List Char) :
    escapeAfterBackslash (digits ++ more) = (.octal, 3) := by
  have run := runLength_take_all octal more
  rw [size] at run
  obtain ⟨first, rest, rfl⟩ : ∃ first rest, digits = first :: rest :=
    List.exists_cons_of_length_pos (by omega)
  have digit := octal first List.mem_cons_self
  -- No letter of another form is an octal digit.
  have other (letter : Char) (none : isOctalDigit letter = false) : is letter first = false := by
    cases same : is letter first with
    | false => rfl
    | true =>
        rw [(is_iff _ _).mp same, none] at digit
        cases digit
  rw [List.cons_append, escapeAfterBackslash, other 'x' (by decide), other 'u' (by decide),
    other 'U' (by decide), digit]
  exact congrArg (Prod.mk EscapeForm.octal) run

theorem escapeAfterBackslash_braced (some : digits ≠ [])
    (hex : ∀ character ∈ digits, isHexDigit character = true) (more : List Char) :
    escapeAfterBackslash ('u' :: '\x7b' :: (digits ++ '\x7d' :: more)) =
      (.unicodeBraced, digits.length + 3) := by
  have run : runLength isHexDigit (digits ++ '\x7d' :: more) = digits.length :=
    runLength_front hex (by rintro unit ⟨⟩; rfl)
  have positive : decide (0 < digits.length) = true :=
    decide_eq_true (List.length_pos_iff.mpr some)
  have braced : escapeAfterBackslash ('u' :: '\x7b' :: (digits ++ '\x7d' :: more)) =
      bracedEscape ('\x7b' :: (digits ++ '\x7d' :: more)) := rfl
  rw [braced, bracedEscape, List.drop_succ_cons, List.drop_zero, run]
  simp only [List.drop_succ_cons, List.drop_left, positive]
  rfl

theorem Escapes.of_escape {form : EscapeForm} {text : List Char} {meaning : Option Char}
    (scanned : ∀ more, escapeAfterBackslash (text ++ more) = (form, text.length))
    (stands : escapedCharacter? form ('\\' :: text) = meaning) :
    Escapes form ('\\' :: text) meaning := by
  refine ⟨fun more => ?_, stands⟩
  have piece : stringPiece ('\\' :: text ++ more) =
      (.escape (escapeAfterBackslash (text ++ more)).1, (escapeAfterBackslash (text ++ more)).2 + 1) := rfl
  rw [piece, scanned]
  rfl

theorem Escapes.backslash {form : EscapeForm} {piece : List Char} {meaning : Option Char}
    (escapes : Escapes form piece meaning) : ∃ text, piece = '\\' :: text := by
  have scanned := escapes.scanned []
  rw [List.append_nil] at scanned
  cases piece with
  | nil => cases scanned
  | cons character text =>
      rw [stringPiece] at scanned
      split at scanned
      · cases scanned
      split at scanned
      · next code =>
          have same : character = '\\' := (is_iff _ _).mp code
          exact ⟨text, congrArg (List.cons · text) same⟩
      split at scanned
      · cases scanned
      · cases scanned

theorem Escapes.braced (some : digits ≠ []) (hex : ∀ character ∈ digits, isHexDigit character = true) :
    Escapes .unicodeBraced (bracedEscapeText digits) (numeralScalar? 16 digits) := by
  apply Escapes.of_escape
  · intro more
    have whole : ['u', '\x7b'] ++ digits ++ ['\x7d'] ++ more =
        'u' :: '\x7b' :: (digits ++ '\x7d' :: more) := by simp
    change escapeAfterBackslash (['u', '\x7b'] ++ digits ++ ['\x7d'] ++ more) =
      (.unicodeBraced, (['u', '\x7b'] ++ digits ++ ['\x7d']).length)
    rw [whole, escapeAfterBackslash_braced some hex]
    simp
  · change numeralScalar? 16 ((digits ++ ['\x7d']).dropLast) = _
    rw [List.dropLast_concat]

theorem WrittenAs.cases {meaning : Option Char} {piece : List Char} (written : WrittenAs meaning piece) :
    (∃ character, character ≠ '"' ∧ character ≠ '\\' ∧ meaning = some character ∧ piece = [character]) ∨
      ∃ form, Escapes form piece meaning := by
  cases written with
  | raw noQuote noBackslash => exact Or.inl ⟨_, noQuote, noBackslash, rfl, rfl⟩
  | @fixed letter character count form digits known size numeral =>
      have scanned (more : List Char) : escapeAfterBackslash (letter :: digits ++ more) =
          (form, (letter :: digits).length) := by
        rw [List.cons_append, escapeAfterBackslash_fixed known size numeral.hexDigits, List.length_cons,
          size]
      have stands : escapedCharacter? form ('\\' :: letter :: digits) = numeralScalar? 16 digits :=
        escapedCharacter?_fixed _ known _
      exact Or.inr ⟨form, .of_escape scanned (stands.trans (numeral.scalar (by decide)))⟩
  | @octal character digits size numeral =>
      have scanned (more : List Char) : escapeAfterBackslash (digits ++ more) =
          (.octal, digits.length) := by
        rw [escapeAfterBackslash_octal size numeral.octalDigits, size]
      exact Or.inr ⟨.octal, .of_escape scanned (numeral.scalar (by decide))⟩
  | braced some numeral =>
      have piece := Escapes.braced some numeral.hexDigits
      rw [numeral.scalar (by decide)] at piece
      exact Or.inr ⟨_, piece⟩
  | unassigned some numeral unassigned =>
      have piece := Escapes.braced some numeral.hexDigits
      rw [numeral.no_scalar (by decide) unassigned] at piece
      exact Or.inr ⟨_, piece⟩

end Escapes

end JaiSyntax

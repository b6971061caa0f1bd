import JaiSyntax.Proofs.Number.Extent
import JaiSyntax.Proofs.Number.Format
/-!
Bit patterns of floats. The count of the digits decides the width of a pattern, and underscores are not
counted: up to eight digits spell a binary32 pattern and stand for the number of that pattern, up to sixteen
spell a binary64 pattern, and more are an error, however small the numeral is. A pattern that is printed with
all its digits is read back.
-/

set_option autoImplicit false

namespace JaiSyntax

/-! ### Digits of a pattern -/

/-- As many of the last digits of a number as are asked for, the highest one first. -/
def lastDigits (radix : Nat) : Nat → Nat → List Nat
  | 0, _ => []
  | count + 1, number => lastDigits radix count (number / radix) ++ [number % radix]

theorem lastDigits_length (radix count number : Nat) : (lastDigits radix count number).length = count := by
  induction count generalizing number with
  | zero => rfl
  | succ count ih => rw [lastDigits, List.length_append, ih, List.length_singleton]

theorem ofDigits_lastDigits (radix count number : Nat) :
    Nat.ofDigits radix (lastDigits radix count number).reverse = number % radix ^ count := by
  induction count generalizing number with
  | zero => simp [lastDigits, Nat.mod_one]
  | succ count ih =>
      rw [lastDigits, List.reverse_append, List.reverse_singleton, List.singleton_append, Nat.ofDigits_cons,
        ih, pow_succ', Nat.mod_mul]

def patternBits? (count number : Nat) : Option Nat :=
  if count ≤ 8 then some (Binary64.ofBinary32 number) else if count ≤ 16 then some number else none

section Patterns

variable {values : List Nat} {digits ending text : List Char} {letter : Char} {radix : Nat}

theorem SeparatedDigits.count (written : SeparatedDigits radix values digits)
    (known : radix ∈ [2, 8, 10, 16]) (ends : ending = [] ∨ ending = ['_']) :
    (withoutSeparators (digits ++ ending)).length = values.length := by
  rw [withoutSeparators_ending ends]
  exact (written.areDigits known).length_eq.symm

theorem SeparatedDigits.ofDigits_lt (written : SeparatedDigits 16 values digits) :
    Nat.ofDigits 16 values.reverse < 16 ^ values.length := by
  have below : ∀ value ∈ values, value < 16 := by
    induction written with
    | single digit => exact List.forall_mem_singleton.mpr digit.below
    | joined digit later ih => exact List.forall_mem_cons.mpr ⟨digit.below, ih⟩
    | separated digit later ih => exact List.forall_mem_cons.mpr ⟨digit.below, ih⟩
  have bound := Nat.ofDigits_lt_base_pow_length (b := 16) (l := values.reverse) (by decide)
    (fun value member => below value (List.mem_reverse.mp member))
  rwa [List.length_reverse] at bound

/-- Up to sixteen digits always fit, and the count alone decides about more, also where they would fit. -/
theorem floatBits?_eq (written : SeparatedDigits 16 values digits) (ends : ending = [] ∨ ending = ['_']) :
    floatBits? (digits ++ ending) = patternBits? values.length (Nat.ofDigits 16 values.reverse) := by
  have read := written.numeral? (by decide) ends
  have count := written.count (by decide) ends
  rw [floatBits?, count, word?, read, filter_fits, patternBits?]
  by_cases short : values.length ≤ 16
  · have fits : Nat.ofDigits 16 values.reverse < 2 ^ 64 :=
      written.ofDigits_lt.trans_le (Nat.pow_le_pow_right (by decide) short)
    rw [if_pos fits]
    simp [short]
  · have wide : ¬ values.length ≤ 8 := fun narrow => short (narrow.trans (by decide))
    simp only [if_neg wide, if_neg short]
    exact Option.bind_fun_none _

/-! ### The literal -/

theorem prefixedForm?_bits (listed : letter ∈ ['h', 'H']) :
    prefixedForm? letter = some (.floatBits, isHexNumeral) := by
  simp only [List.mem_cons, List.not_mem_nil, or_false] at listed
  rcases listed with rfl | rfl
  · rfl
  · rfl

/-- Neither a point nor a marker stands among hexadecimal digits. -/
theorem tail_nil {after fraction exponent rest covered : List Char} (run : IsDigitRun 16 digits)
    (ends : ending = [] ∨ ending = ['_']) (tail : TakesTail 16 ['p', 'P'] after fraction exponent rest)
    (same : covered ++ (fraction ++ exponent) = digits ++ ending) : fraction ++ exponent = [] := by
  have absent {character : Char} (fails : isHexNumeral character = false) (other : character ≠ '_') :
      character ∉ fraction ++ exponent := by
    intro member
    have known : character ∈ digits ++ ending := same ▸ List.mem_append_right covered member
    rcases List.mem_append.mp known with digit | separator
    · exact testsDigits_hexadecimal.not_mem_run run fails other digit
    · rcases ends with rfl | rfl
      · cases separator
      · exact other (List.mem_singleton.mp separator)
  have first := tail.fraction
  have second := tail.exponent
  generalize exponent ++ rest = behind at first second
  cases first with
  | taken integer =>
      have noPoint : '.' ∉ '.' :: _ ++ exponent := absent rfl (by decide)
      exact absurd List.mem_cons_self noPoint
  | omitted none =>
      cases second with
      | omitted none' => rfl
      | @taken marker sign text run rest marks signs power =>
          have plain : isHexNumeral marker = false ∧ marker ≠ '_' := by
            simp only [List.mem_cons, List.not_mem_nil, or_false] at marks
            rcases marks with rfl | rfl
            · decide
            · decide
          obtain ⟨fails, other⟩ := plain
          exact absurd (by simp) (absent fails other)

/-- A literal that is just digits behind the prefix has neither a fraction nor an exponent. -/
theorem numberExtent_bits (listed : letter ∈ ['h', 'H']) (run : IsDigitRun 16 digits)
    (ends : ending = [] ∨ ending = ['_'])
    (covers : ('0' :: letter :: text).take (numberExtent ('0' :: letter :: text)).length =
      '0' :: letter :: (digits ++ ending)) :
    ∃ length, numberExtent ('0' :: letter :: text) = ⟨.floatBits, length, 0⟩ := by
  have found := prefixedForm?_bits listed
  obtain ⟨radix, marks⟩ := prefixedForm?_marks found
  obtain rfl := marks.base.mpr (Or.inr rfl)
  have starts : StartsDigit 16 text := by
    obtain ⟨more, whole⟩ : '0' :: letter :: (digits ++ ending) <+: '0' :: letter :: text :=
      covers ▸ List.take_prefix _ _
    obtain rfl := (List.cons.inj (List.cons.inj whole).2).2
    exact (run.startsDigit.append ending).append more
  obtain ⟨integer, behind, takes, length⟩ := testsDigits_hexadecimal.digitsLength_takes starts
  obtain ⟨ending', after, fraction, exponent, rest, ends', tail, extent⟩ :=
    hexadecimalExtent_takes marks takes
  have some : ¬ (integer.length == 0) = true := fun none => takes.length_ne_zero (beq_iff_eq.mp none)
  have whole : numberExtent ('0' :: letter :: text) =
      ⟨.floatBits, integer.length + 2 + ending'.length, (fraction ++ exponent).length⟩ := by
    simp only [numberExtent, found, length, if_neg some]
    exact extent
  have parts : '0' :: letter :: text =
      ('0' :: letter :: ((integer ++ ending') ++ (fraction ++ exponent))) ++ rest := by
    simp [takes.parts, ends'.parts, tail.parts]
  have width : (numberExtent ('0' :: letter :: text)).length =
      ('0' :: letter :: ((integer ++ ending') ++ (fraction ++ exponent))).length := by
    rw [whole]
    simp only [NumberExtent.length, List.length_cons, List.length_append]
    omega
  have covered : ('0' :: letter :: text).take (numberExtent ('0' :: letter :: text)).length =
      '0' :: letter :: ((integer ++ ending') ++ (fraction ++ exponent)) :=
    (congrArg _ parts).trans (List.take_left' width.symm)
  have same := (List.cons.inj (List.cons.inj (covered.symm.trans covers)).2).2
  rw [tail_nil run ends tail same] at whole
  exact ⟨_, whole⟩

def patternLexeme (text : List Char) (count number : Nat) : Lexeme :=
  floatLexeme .hexadecimal text (patternBits? count number) (.floatBitsTooLong count)

theorem numberLexeme_bits (length : Nat) (written : SeparatedDigits 16 values digits)
    (ends : ending = [] ∨ ending = ['_']) :
    numberLexeme ⟨.floatBits, length, 0⟩ ('0' :: letter :: (digits ++ ending)) =
      patternLexeme ('0' :: letter :: (digits ++ ending)) values.length (Nat.ofDigits 16 values.reverse) := by
  have value := floatBits?_eq written ends
  have count := written.count (by decide) ends
  rw [patternLexeme, ← value, ← count]
  rfl

theorem numberAt_bits (listed : letter ∈ ['h', 'H']) (written : SeparatedDigits 16 values digits)
    (ends : ending = [] ∨ ending = ['_'])
    (covers : (numberAt text).text = '0' :: letter :: (digits ++ ending)) :
    numberAt text =
      patternLexeme ('0' :: letter :: (digits ++ ending)) values.length (Nat.ofDigits 16 values.reverse) := by
  rw [numberAt_text] at covers
  obtain ⟨more, rfl⟩ : '0' :: letter :: (digits ++ ending) <+: text := covers ▸ List.take_prefix _ _
  obtain ⟨length, extent⟩ := numberExtent_bits listed ⟨values, written⟩ ends covers
  have whole : numberExtent ('0' :: letter :: (digits ++ ending) ++ more) = _ := extent
  rw [numberAt, covers, whole, numberLexeme_bits length written ends]

/-- A literal that stands alone. -/
theorem lexemes_bits (listed : letter ∈ ['h', 'H']) (written : SeparatedDigits 16 values digits)
    (ends : ending = [] ∨ ending = ['_']) :
    lexemes ('0' :: letter :: (digits ++ ending)) =
      [patternLexeme ('0' :: letter :: (digits ++ ending)) values.length
        (Nat.ofDigits 16 values.reverse)] := by
  have extent := numberExtent_prefixed (prefixedForm?_bits listed) testsDigits_hexadecimal.passes rfl
    written ends
  rw [lexemes_number (by decide) extent, numberLexeme_bits _ written ends]

/-! ### Tokens -/

/-- What a token of a literal of some number of digits has as its value, and the errors there. -/
structure HasPattern (count number : Nat) (token : Token) (errors : List LexError) : Prop where
  kind : token.kind = .float
  narrow : count ≤ 8 → FloatFormat.binary32.value number ≠ .notANumber →
    (∃ bits, token.value = .float bits .hexadecimal ∧ ∀ other,
      other < 2 ^ 64 ∧ FloatFormat.binary64.value other = FloatFormat.binary32.value number ↔ other = bits) ∧
      errors = []
  wide : 9 ≤ count → count ≤ 16 → token.value = .float number .hexadecimal ∧ errors = []
  long : 16 < count → token.value = .float Binary64.notANumber .hexadecimal ∧
    errors = [⟨token.span, .floatBitsTooLong count⟩]

/-- The pattern that is found for a binary32 number is the only one with its value. -/
theorem ofBinary32_iff {number : Nat} (some : FloatFormat.binary32.value number ≠ .notANumber)
    (other : Nat) :
    other < 2 ^ 64 ∧ FloatFormat.binary64.value other = FloatFormat.binary32.value number ↔
      other = Binary64.ofBinary32 number := by
  obtain ⟨same, fits⟩ := Binary64.ofBinary32_value number some
  constructor
  · rintro ⟨bounded, value⟩
    exact @FloatFormat.value_injective .binary64 _ _ bounded fits (value ▸ some) (value.trans same.symm)
  · intro found
    rw [found]
    exact ⟨fits, same⟩

theorem patternLexeme_has (text : List Char) (count number offset : Nat) :
    HasPattern count number ((patternLexeme text count number).token offset)
      (lexErrorsFrom offset [patternLexeme text count number]) := by
  by_cases narrow : count ≤ 8
  · have value : patternBits? count number = some (Binary64.ofBinary32 number) := if_pos narrow
    rw [patternLexeme, value]
    exact ⟨rfl, fun _ some => ⟨⟨_, rfl, ofBinary32_iff some⟩, rfl⟩, by omega, by omega⟩
  · by_cases wide : count ≤ 16
    · have value : patternBits? count number = some number := (if_neg narrow).trans (if_pos wide)
      rw [patternLexeme, value]
      exact ⟨rfl, fun less => absurd less narrow, fun _ _ => ⟨rfl, rfl⟩, by omega⟩
    · have value : patternBits? count number = none := (if_neg narrow).trans (if_neg wide)
      rw [patternLexeme, value]
      exact ⟨rfl, fun less => absurd less narrow, fun _ less => absurd less wide, fun _ => ⟨rfl, rfl⟩⟩

end Patterns

/-- A literal of hexadecimal digits behind the prefix of bit patterns is a float, wherever it stands. Up to
eight digits are the one pattern with the value of the binary32 number that they spell, up to sixteen are the
pattern itself, and more are an error that says how many there are. Every pattern with all its digits is read
back. -/
theorem lex_bit_pattern {letter : Char} (listed : letter ∈ ['h', 'H']) {values : List Nat}
    {digits ending : List Char} (written : SeparatedDigits 16 values digits)
    (ends : ending = [] ∨ ending = ['_']) :
    (∀ source, ∀ token ∈ (lex source).tokens, token.kind ∈ [.int, .float] →
        token.text.toList = '0' :: letter :: (digits ++ ending) →
        HasPattern values.length (Nat.ofDigits 16 values.reverse) token
          (lexErrorsAt source token.span.start)) ∧
      ∀ bits < 2 ^ 64, values = lastDigits 16 16 bits →
        lex ('0' :: letter :: (digits ++ ending)) =
          ⟨[⟨.float, ⟨0, utf8Length ('0' :: letter :: (digits ++ ending))⟩, .float bits .hexadecimal,
              String.ofList ('0' :: letter :: (digits ++ ending))⟩,
            .endOfFile (utf8Length ('0' :: letter :: (digits ++ ending)))], []⟩ := by
  constructor
  · intro source token member numeric same
    obtain ⟨before, text, whole, starts, rfl, errors⟩ := lex_numberAt member numeric
    have covers : (numberAt text).text = '0' :: letter :: (digits ++ ending) :=
      String.toList_ofList.symm.trans same
    rw [errors, numberAt_bits listed written ends covers]
    exact patternLexeme_has _ _ _ _
  · intro bits fits same
    have pieces := lexemes_bits listed written ends
    have whole : bits % 16 ^ 16 = bits := Nat.mod_eq_of_lt fits
    rw [same, lastDigits_length, ofDigits_lastDigits, whole] at pieces
    rw [lex, pieces]
    simp only [tokensFrom, lexErrorsFrom, Nat.zero_add]
    rfl

/-- The least positive number of binary32, behind a sign, and the pattern with all bits set. -/
theorem lex_bit_pattern_least :
    (∀ other, other < 2 ^ 64 ∧ FloatFormat.binary64.value other = FloatFormat.binary32.value 1 ↔
        other = 0x36A0000000000000) ∧
      lexErrorsAt "-0H1_".toList 1 = [] ∧
      lex ('0' :: 'h' :: (List.replicate 16 'F' ++ [])) =
        ⟨[⟨.float, ⟨0, 18⟩, .float 0xFFFFFFFFFFFFFFFF .hexadecimal, "0hFFFFFFFFFFFFFFFF"⟩, .endOfFile 18],
          []⟩ := by
  have one : SeparatedDigits 16 [1] ['1'] := .single ⟨by decide, Or.inl rfl⟩
  have full (count : Nat) :
      SeparatedDigits 16 (List.replicate (count + 1) 15) (List.replicate (count + 1) 'F') := by
    induction count with
    | zero => exact .single ⟨by decide, Or.inr (by decide)⟩
    | succ count ih => exact .joined ⟨by decide, Or.inr (by decide)⟩ ih
  have member : (⟨.float, ⟨1, 5⟩, .float 0x36A0000000000000 .hexadecimal, "0H1_"⟩ : Token) ∈
      (lex "-0H1_".toList).tokens := by
    decide +kernel
  have number : FloatFormat.binary32.value 1 ≠ .notANumber := by
    have finite : FloatFormat.binary32.value 1 = .finite _ _ := if_neg (by decide)
    rw [finite]
    exact nofun
  have least := (lex_bit_pattern (by decide) one (Or.inr rfl)).1 _ _ member (by decide) rfl
  obtain ⟨⟨bits, value, only⟩, none⟩ := least.narrow (by decide) number
  cases value
  exact ⟨only, none, (lex_bit_pattern (by decide) (full 15) (Or.inl rfl)).2 0xFFFFFFFFFFFFFFFF (by decide)
    (by decide)⟩

end JaiSyntax

import JaiSyntax.Proofs.Lexer.Symbols
import JaiSyntax.Proofs.Number.Integer
import JaiSyntax.Proofs.Number.Scan
/-!
The extent of numbers. A number takes the digits of its base as far as they reach, a fraction and an exponent
where digits follow the point or the marker, and nothing else; it is a float if it has one of the two or
spells a bit pattern. Every decimal float has a value.
-/

set_option autoImplicit false

namespace JaiSyntax

/-! ### What belongs to a number -/

/-- The letters behind a zero that make a prefix, with the base of the digits behind them. -/
def numberPrefixes : List (Char × Nat) :=
  [('b', 2), ('B', 2), ('o', 8), ('O', 8), ('x', 16), ('X', 16), ('h', 16), ('H', 16)]

def IsPrefixed (text : List Char) : Prop :=
  ∃ letter radix rest, (letter, radix) ∈ numberPrefixes ∧ text = '0' :: letter :: rest

/-- The single underscore that may end the digits behind a prefix, and what follows it. -/
inductive TakesUnderscore : List Char → List Char → List Char → Prop where
  | taken (rest : List Char) : TakesUnderscore ('_' :: rest) ['_'] rest
  | omitted {text : List Char} (none : text.head? ≠ some '_') : TakesUnderscore text [] text

theorem TakesUnderscore.parts {text ending rest : List Char} (takes : TakesUnderscore text ending rest) :
    text = ending ++ rest := by
  cases takes with
  | taken rest => rfl
  | omitted none => rfl

def tailKind (tail : List Char) : TokenKind := if tail = [] then .int else .float

/-- How a number is read at the front of a text: its kind, and what belongs to it. -/
inductive ReadsNumber : List Char → TokenKind → List Char → Prop where
  | decimal {text digits behind fraction exponent rest : List Char} (plain : ¬ IsPrefixed text)
      (integer : TakesDigits 10 text digits behind)
      (tail : TakesTail 10 ['e', 'E'] behind fraction exponent rest) :
      ReadsNumber text (tailKind (fraction ++ exponent)) (digits ++ (fraction ++ exponent))
  /-- Binary and octal numbers have neither a fraction nor an exponent. -/
  | integral {letter : Char} {radix : Nat} {text digits behind ending rest : List Char}
      (known : (letter, radix) ∈ numberPrefixes) (other : radix ≠ 16)
      (integer : TakesDigits radix text digits behind) (ends : TakesUnderscore behind ending rest) :
      ReadsNumber ('0' :: letter :: text) .int ('0' :: letter :: (digits ++ ending))
  | hexadecimal {letter : Char} {text digits behind ending after fraction exponent rest : List Char}
      (known : (letter, 16) ∈ numberPrefixes) (integer : TakesDigits 16 text digits behind)
      (ends : TakesUnderscore behind ending after)
      (tail : TakesTail 16 ['p', 'P'] after fraction exponent rest) :
      ReadsNumber ('0' :: letter :: text)
        (if letter ∈ ['h', 'H'] then .float else tailKind (fraction ++ exponent))
        ('0' :: letter :: (digits ++ (ending ++ (fraction ++ exponent))))
  /-- A prefix without digits goes on like a decimal number. -/
  | bare {letter : Char} {radix : Nat} {text fraction exponent rest : List Char}
      (known : (letter, radix) ∈ numberPrefixes) (none : ¬ StartsDigit radix text)
      (tail : TakesTail 10 ['e', 'E'] text fraction exponent rest) :
      ReadsNumber ('0' :: letter :: text) (tailKind (fraction ++ exponent))
        ('0' :: letter :: (fraction ++ exponent))

/-! ### The extent that is found -/

/-- A character in either case, where the small letters of ASCII are told apart by their code. -/
theorem toLower_eq_iff (marker capital : Char) (lower : ∀ code < 128,
      (Char.ofNat code).toLower = marker ↔ Char.ofNat code = marker ∨ Char.ofNat code = capital)
    (ascii : marker.toNat < 128) (also : capital.toNat < 128) (character : Char) :
    character.toLower = marker ↔ character ∈ [marker, capital] := by
  simp only [List.mem_cons, List.not_mem_nil, or_false]
  by_cases small : character.toNat < 128
  · have checked := lower _ small
    rwa [Char.ofNat_toNat] at checked
  · have unchanged : character.toLower = character := by
      unfold Char.toLower
      split
      · next upper =>
          have most : character.toNat ≤ 90 := upper.2
          omega
      · rfl
    have other {known : Char} (below : known.toNat < 128) : character ≠ known :=
      fun same => small (same ▸ below)
    simp [unchanged, other ascii, other also]

theorem toLower_eq_e (character : Char) : character.toLower = 'e' ↔ character ∈ ['e', 'E'] :=
  toLower_eq_iff 'e' 'E' (by decide) (by decide) (by decide) character

theorem toLower_eq_p (character : Char) : character.toLower = 'p' ↔ character ∈ ['p', 'P'] :=
  toLower_eq_iff 'p' 'P' (by decide) (by decide) (by decide) character

def NumberExtent.kind (extent : NumberExtent) : TokenKind :=
  match extent.form with
  | .decimal | .hexadecimal => if extent.tail = 0 then .int else .float
  | .binary | .octal => .int
  | .floatBits => .float

theorem numberLexeme_kind_eq (extent : NumberExtent) (text : List Char) :
    (numberLexeme extent text).kind = extent.kind := by
  unfold numberLexeme NumberExtent.kind
  obtain ⟨form, integer, tail⟩ := extent
  cases form <;> cases tail
  all_goals first
    | exact (integerLexeme_text _ _ _).2
    | exact (floatLexeme_text _ _ _ _).2

theorem tailKind_eq (tail : List Char) :
    (if tail.length = 0 then TokenKind.int else .float) = tailKind tail := by
  simp only [tailKind, List.length_eq_zero_iff]

section Extents

variable {letter : Char} {form : NumberForm} {digit : Char → Bool} {text covered : List Char}
  {kind : TokenKind}

structure MarksForm (letter : Char) (radix : Nat) (form : NumberForm) (digit : Char → Bool) : Prop where
  known : (letter, radix) ∈ numberPrefixes
  tests : TestsDigits radix digit
  base : radix = 16 ↔ form = .hexadecimal ∨ form = .floatBits
  other : form ≠ .decimal
  bits : form = .floatBits ↔ letter ∈ ['h', 'H']

theorem prefixedForm?_marks (found : prefixedForm? letter = some (form, digit)) :
    ∃ radix, MarksForm letter radix form digit := by
  unfold prefixedForm? at found
  split at found
  · cases found
    exact ⟨2, by decide, testsDigits_binary, by decide, by decide, by decide⟩
  · cases found
    exact ⟨2, by decide, testsDigits_binary, by decide, by decide, by decide⟩
  · cases found
    exact ⟨8, by decide, testsDigits_octal, by decide, by decide, by decide⟩
  · cases found
    exact ⟨8, by decide, testsDigits_octal, by decide, by decide, by decide⟩
  · cases found
    exact ⟨16, by decide, testsDigits_hexadecimal, by decide, by decide, by decide⟩
  · cases found
    exact ⟨16, by decide, testsDigits_hexadecimal, by decide, by decide, by decide⟩
  · cases found
    exact ⟨16, by decide, testsDigits_hexadecimal, by decide, by decide, by decide⟩
  · cases found
    exact ⟨16, by decide, testsDigits_hexadecimal, by decide, by decide, by decide⟩
  · cases found

theorem prefixedForm?_none (none : prefixedForm? letter = none) (radix : Nat) :
    (letter, radix) ∉ numberPrefixes := by
  intro known
  have some : ∀ entry ∈ numberPrefixes, prefixedForm? entry.1 ≠ .none := by
    simp [numberPrefixes, prefixedForm?]
  exact some _ known none

/-- Where there is no prefix, the decimal digits start a number. -/
theorem numberExtent_plain (plain : ¬ IsPrefixed text) :
    numberExtent text = decimalExtent (digitsLength isDecimalDigit text) text := by
  rw [numberExtent.eq_def]
  split
  · next letter rest =>
      cases found : prefixedForm? letter with
      | none => rfl
      | some entry =>
          obtain ⟨radix, marks⟩ := prefixedForm?_marks found
          exact absurd ⟨letter, radix, rest, marks.known, rfl⟩ plain
  · rfl

/-- A decimal number goes on behind its first characters with the tail that follows them. -/
theorem decimalExtent_takes (integer text : List Char) :
    ∃ fraction exponent rest, TakesTail 10 ['e', 'E'] text fraction exponent rest ∧
      decimalExtent integer.length (integer ++ text) =
        ⟨.decimal, integer.length, (fraction ++ exponent).length⟩ := by
  obtain ⟨fraction, exponent, rest, takes, length⟩ := testsDigits_decimal.tailLength_takes toLower_eq_e text
  refine ⟨fraction, exponent, rest, takes, ?_⟩
  rw [decimalExtent, List.drop_left, length]

structure ReadsExtent (text : List Char) (kind : TokenKind) (covered : List Char) (extent : NumberExtent) :
    Prop where
  reads : ReadsNumber text kind covered
  kind_eq : extent.kind = kind
  length_eq : extent.length = covered.length

theorem reads_plain (plain : ¬ IsPrefixed text) (starts : StartsDigit 10 text) :
    ∃ digits behind fraction exponent rest, TakesDigits 10 text digits behind ∧
      TakesTail 10 ['e', 'E'] behind fraction exponent rest ∧
      numberExtent text = ⟨.decimal, digits.length, (fraction ++ exponent).length⟩ := by
  obtain ⟨digits, behind, integer, length⟩ := testsDigits_decimal.digitsLength_takes starts
  obtain ⟨fraction, exponent, rest, tail, extent⟩ := decimalExtent_takes digits behind
  refine ⟨digits, behind, fraction, exponent, rest, integer, tail, ?_⟩
  rw [numberExtent_plain plain, length, integer.parts]
  exact extent

/-- A single underscore behind the digits belongs to them. -/
theorem takesUnderscore (text : List Char) : ∃ ending rest, TakesUnderscore text ending rest ∧
    (if text.head? == some '_' then 1 else 0) = ending.length := by
  by_cases separated : text.head? = some '_'
  · obtain ⟨rest, rfl⟩ := List.head?_eq_some_iff.mp separated
    exact ⟨['_'], rest, .taken rest, rfl⟩
  · exact ⟨[], text, .omitted separated, if_neg (fun same => separated (beq_iff_eq.mp same))⟩

/-- The extent of digits with a prefix, which only the hexadecimal ones have a tail behind. -/
theorem prefixedExtent_takes (form : NumberForm) (digit : Char → Bool) (letter : Char)
    (digits behind : List Char) :
    ∃ ending after, TakesUnderscore behind ending after ∧
      prefixedExtent form digit digits.length ('0' :: letter :: (digits ++ behind)) =
        ⟨form, digits.length + 2 + ending.length,
          if form = .hexadecimal ∨ form = .floatBits then tailLength digit 'p' after else 0⟩ := by
  obtain ⟨ending, after, ends, length⟩ := takesUnderscore behind
  have dropped : ('0' :: letter :: (digits ++ behind)).drop (digits.length + 2) = behind := by
    rw [List.drop_succ_cons, List.drop_succ_cons, List.drop_left]
  refine ⟨ending, after, ends, ?_⟩
  simp only [prefixedExtent, dropped, length]
  rw [ends.parts, List.drop_left]
  cases form <;> simp

/-- Behind hexadecimal digits there may be a fraction and an exponent. -/
theorem hexadecimalExtent_takes {digits behind : List Char} (marks : MarksForm letter 16 form digit)
    (integer : TakesDigits 16 text digits behind) :
    ∃ ending after fraction exponent rest, TakesUnderscore behind ending after ∧
      TakesTail 16 ['p', 'P'] after fraction exponent rest ∧
      prefixedExtent form digit digits.length ('0' :: letter :: text) =
        ⟨form, digits.length + 2 + ending.length, (fraction ++ exponent).length⟩ := by
  obtain ⟨ending, after, ends, extent⟩ := prefixedExtent_takes form digit letter digits behind
  obtain ⟨fraction, exponent, rest, tail, length⟩ := marks.tests.tailLength_takes toLower_eq_p after
  rw [← integer.parts, if_pos (marks.base.mp rfl), length] at extent
  exact ⟨ending, after, fraction, exponent, rest, ends, tail, extent⟩

theorem reads_digits {radix : Nat} {digits behind : List Char} (marks : MarksForm letter radix form digit)
    (integer : TakesDigits radix text digits behind) :
    ∃ kind covered, ReadsExtent ('0' :: letter :: text) kind covered
      (prefixedExtent form digit digits.length ('0' :: letter :: text)) := by
  by_cases hexadecimal : radix = 16
  · subst hexadecimal
    obtain ⟨ending, after, fraction, exponent, rest, ends, tail, extent⟩ :=
      hexadecimalExtent_takes marks integer
    rw [extent]
    refine ⟨_, _, .hexadecimal marks.known integer ends tail, ?_, ?_⟩
    · rcases marks.base.mp rfl with rfl | rfl
      · have noBits : letter ∉ ['h', 'H'] := fun listed => nomatch marks.bits.mpr listed
        rw [if_neg noBits]
        exact tailKind_eq _
      · exact (if_pos (marks.bits.mp rfl)).symm
    · simp only [NumberExtent.length, List.length_cons, List.length_append]
      omega
  · obtain ⟨ending, after, ends, extent⟩ := prefixedExtent_takes form digit letter digits behind
    rw [← integer.parts, if_neg (fun forms => hexadecimal (marks.base.mpr forms))] at extent
    rw [extent]
    refine ⟨_, _, .integral marks.known hexadecimal integer ends, ?_, ?_⟩
    · cases form with
      | decimal => exact absurd rfl marks.other
      | binary => rfl
      | octal => rfl
      | hexadecimal => exact absurd (marks.base.mpr (Or.inl rfl)) hexadecimal
      | floatBits => exact absurd (marks.base.mpr (Or.inr rfl)) hexadecimal
    · simp only [NumberExtent.length, List.length_cons, List.length_append]
      omega

theorem reads_prefixed (found : prefixedForm? letter = some (form, digit)) (text : List Char) :
    ∃ kind covered,
      ReadsExtent ('0' :: letter :: text) kind covered (numberExtent ('0' :: letter :: text)) := by
  obtain ⟨radix, marks⟩ := prefixedForm?_marks found
  simp only [numberExtent, found]
  by_cases starts : StartsDigit radix text
  · obtain ⟨digits, behind, integer, length⟩ := marks.tests.digitsLength_takes starts
    have some : ¬ (digits.length == 0) = true := fun none => integer.length_ne_zero (beq_iff_eq.mp none)
    rw [length, if_neg some]
    exact reads_digits marks integer
  · obtain ⟨fraction, exponent, rest, tail, extent⟩ := decimalExtent_takes ['0', letter] text
    have whole : decimalExtent 2 ('0' :: letter :: text) =
        ⟨.decimal, 2, (fraction ++ exponent).length⟩ := extent
    rw [marks.tests.digitsLength_eq_zero starts, if_pos (beq_self_eq_true _), whole]
    refine ⟨_, _, .bare marks.known starts tail, tailKind_eq _, ?_⟩
    simp only [NumberExtent.length, List.length_cons, List.length_append]
    omega

/-- Every number is read up to its extent. -/
theorem numberExtent_reads (starts : StartsDigit 10 text) :
    ∃ kind covered, ReadsExtent text kind covered (numberExtent text) := by
  by_cases known : IsPrefixed text
  · obtain ⟨letter, radix, rest, listed, rfl⟩ := known
    cases found : prefixedForm? letter with
    | none => exact absurd listed (prefixedForm?_none found radix)
    | some entry => exact reads_prefixed found rest
  · obtain ⟨digits, behind, fraction, exponent, rest, integer, tail, extent⟩ := reads_plain known starts
    refine ⟨_, _, .decimal known integer tail, ?_, ?_⟩
    · rw [extent, NumberExtent.kind]
      exact tailKind_eq _
    · rw [extent]
      exact List.length_append.symm

theorem ReadsNumber.front (reads : ReadsNumber text kind covered) : covered <+: text := by
  cases reads with
  | @decimal text digits behind fraction exponent rest plain integer tail =>
      exact ⟨rest, by simp [integer.parts, tail.parts]⟩
  | @integral letter radix text digits behind ending rest known other integer ends =>
      exact ⟨rest, by simp [integer.parts, ends.parts]⟩
  | @hexadecimal letter text digits behind ending after fraction exponent rest known integer ends tail =>
      exact ⟨rest, by simp [integer.parts, ends.parts, tail.parts]⟩
  | @bare letter radix text fraction exponent rest known none tail =>
      exact ⟨rest, by simp [tail.parts]⟩

/-- A letter makes a prefix for one base only. -/
theorem numberPrefixes_unique {radix radix' : Nat} (known : (letter, radix) ∈ numberPrefixes)
    (known' : (letter, radix') ∈ numberPrefixes) : radix = radix' := by
  have all : ∀ entry ∈ numberPrefixes, ∀ other ∈ numberPrefixes, entry.1 = other.1 → entry.2 = other.2 := by
    decide
  exact all _ known _ known' rfl

theorem TakesUnderscore.unique {ending ending' rest rest' : List Char}
    (takes : TakesUnderscore text ending rest) (also : TakesUnderscore text ending' rest') :
    ending = ending' ∧ rest = rest' := by
  cases takes with
  | taken rest =>
      cases also with
      | taken rest => exact ⟨rfl, rfl⟩
      | omitted none => exact absurd rfl none
  | omitted none =>
      cases also with
      | taken rest => exact absurd rfl none
      | omitted none' => exact ⟨rfl, rfl⟩

/-- A text is read as a number in one way at most. -/
theorem ReadsNumber.unique {kind' : TokenKind} {covered' : List Char} (reads : ReadsNumber text kind covered)
    (also : ReadsNumber text kind' covered') : kind = kind' ∧ covered = covered' := by
  cases reads with
  | decimal plain integer tail =>
      cases also with
      | decimal plain' integer' tail' =>
          obtain ⟨rfl, rfl⟩ := integer.unique integer'
          obtain ⟨rfl, rfl⟩ := tail.unique tail'
          exact ⟨rfl, rfl⟩
      | integral known => exact absurd ⟨_, _, _, known, rfl⟩ plain
      | hexadecimal known => exact absurd ⟨_, _, _, known, rfl⟩ plain
      | bare known => exact absurd ⟨_, _, _, known, rfl⟩ plain
  | integral known other integer ends =>
      cases also with
      | decimal plain => exact absurd ⟨_, _, _, known, rfl⟩ plain
      | integral known' other' integer' ends' =>
          obtain rfl := numberPrefixes_unique known known'
          obtain ⟨rfl, rfl⟩ := integer.unique integer'
          obtain ⟨rfl, -⟩ := ends.unique ends'
          exact ⟨rfl, rfl⟩
      | hexadecimal known' => exact absurd (numberPrefixes_unique known known') other
      | bare known' none =>
          obtain rfl := numberPrefixes_unique known known'
          exact absurd integer.startsDigit none
  | hexadecimal known integer ends tail =>
      cases also with
      | decimal plain => exact absurd ⟨_, _, _, known, rfl⟩ plain
      | integral known' other => exact absurd (numberPrefixes_unique known' known) other
      | hexadecimal known' integer' ends' tail' =>
          obtain ⟨rfl, rfl⟩ := integer.unique integer'
          obtain ⟨rfl, rfl⟩ := ends.unique ends'
          obtain ⟨rfl, rfl⟩ := tail.unique tail'
          exact ⟨rfl, rfl⟩
      | bare known' none =>
          obtain rfl := numberPrefixes_unique known known'
          exact absurd integer.startsDigit none
  | bare known none tail =>
      cases also with
      | decimal plain => exact absurd ⟨_, _, _, known, rfl⟩ plain
      | integral known' other integer =>
          obtain rfl := numberPrefixes_unique known known'
          exact absurd integer.startsDigit none
      | hexadecimal known' integer =>
          obtain rfl := numberPrefixes_unique known known'
          exact absurd integer.startsDigit none
      | bare known' none' tail' =>
          obtain ⟨rfl, rfl⟩ := tail.unique tail'
          exact ⟨rfl, rfl⟩

end Extents

/-! ### The value of a decimal float -/

section Decimal

variable {digits run fraction exponent text : List Char} {test : Char → Bool} {character : Char}

theorem splitAtFirst_none (apart : ∀ character ∈ text, test character = false) :
    splitAtFirst test text = (text, none) := by
  have whole : text.takeWhile (fun character => !test character) = text :=
    List.takeWhile_eq_self_iff.mpr (fun character member => by rw [apart character member]; rfl)
  simp only [splitAtFirst, whole, List.drop_length]

theorem splitAtFirst_some {front : List Char} (apart : ∀ character ∈ front, test character = false)
    (holds : test character = true) (back : List Char) :
    splitAtFirst test (front ++ character :: back) = (front, some back) := by
  have whole : (front ++ character :: back).takeWhile (fun character => !test character) = front := by
    rw [List.takeWhile_append_of_pos (fun character member => by rw [apart character member]; rfl),
      List.takeWhile_cons_of_neg (by simp [holds]), List.append_nil]
  simp only [splitAtFirst, whole, List.drop_left]

def AreDigits (text : List Char) : Prop := ∀ character ∈ text, isDecimalDigit character = true

theorem AreDigits.numeral? (digits : AreDigits text) : ∃ number, numeral? 10 text = some number := by
  have values : ∃ values, List.Forall₂ (IsDigit 10) values text := by
    induction text with
    | nil => exact ⟨[], .nil⟩
    | cons character text ih =>
        obtain ⟨holds, later⟩ := List.forall_mem_cons.mp digits
        obtain ⟨value, digit⟩ := testsDigits_decimal.sound _ holds
        obtain ⟨values, written⟩ := ih later
        exact ⟨value :: values, .cons digit written⟩
  obtain ⟨values, written⟩ := values
  have numeral : IsNumeral 10 text (Nat.ofDigits 10 values.reverse) := ⟨values, written, rfl⟩
  exact ⟨_, numeral.numeral? (by decide)⟩

theorem IsDigitRun.areDigits (run : IsDigitRun 10 digits) : AreDigits (withoutSeparators digits) := by
  obtain ⟨values, written⟩ := run
  have numeral : IsNumeral 10 (withoutSeparators digits) (Nat.ofDigits 10 values.reverse) :=
    ⟨values, written.areDigits (by decide), rfl⟩
  exact numeral.forall_digits testsDigits_decimal.passes

theorem digit_apart (holds : isDecimalDigit character = true) :
    character ≠ '.' ∧ character ≠ 'e' ∧ character ≠ 'E' ∧ character ≠ '+' ∧ character ≠ '-' := by
  have apart (other : Char) (fails : isDecimalDigit other = false) : character ≠ other := by
    rintro rfl
    rw [holds] at fails
    cases fails
  exact ⟨apart _ rfl, apart _ rfl, apart _ rfl, apart _ rfl, apart _ rfl⟩

/-- The significand of a decimal float is digits around a point, or digits alone. -/
theorem significand_reads {rest : List Char} (integer : IsDigitRun 10 digits)
    (takes : TakesFraction 10 text fraction rest) :
    (∀ character ∈ withoutSeparators (digits ++ fraction),
        (character == 'e' || character == 'E') = false) ∧
      ∃ whole fraction?, AreDigits (whole ++ fraction?.getD []) ∧
        splitAtFirst (fun character => character == '.') (withoutSeparators (digits ++ fraction)) =
          (whole, fraction?) := by
  have noMarker {text : List Char} (digits : AreDigits text) :
      ∀ character ∈ text, (character == 'e' || character == 'E') = false := by
    intro character member
    obtain ⟨-, small, capital, -⟩ := digit_apart (digits character member)
    simp [small, capital]
  have noPoint : ∀ character ∈ withoutSeparators digits, (character == '.') = false := by
    intro character member
    exact beq_eq_false_iff_ne.mpr (digit_apart (integer.areDigits character member)).1
  rw [withoutSeparators_append]
  cases takes with
  | omitted none =>
      have empty : withoutSeparators [] = [] := rfl
      rw [empty, List.append_nil]
      refine ⟨noMarker integer.areDigits, _, .none, ?_, splitAtFirst_none noPoint⟩
      rw [Option.getD_none, List.append_nil]
      exact integer.areDigits
  | taken behind =>
      rw [withoutSeparators_cons (by decide)]
      refine ⟨List.forall_mem_append.mpr ⟨noMarker integer.areDigits, List.forall_mem_cons.mpr
        ⟨rfl, noMarker behind.digits.areDigits⟩⟩, _, some _, ?_, splitAtFirst_some noPoint rfl _⟩
      exact List.forall_mem_append.mpr ⟨integer.areDigits, behind.digits.areDigits⟩

theorem splitSign_reads {sign : List Char} (signs : sign ∈ exponentSigns) (digits : AreDigits text) :
    (splitSign (sign ++ text)).2 = text := by
  simp only [exponentSigns, List.mem_cons, List.not_mem_nil, or_false] at signs
  rcases signs with rfl | rfl | rfl
  · rw [List.nil_append, splitSign.eq_def]
    split
    · exact absurd (digits _ List.mem_cons_self) (by decide)
    · exact absurd (digits _ List.mem_cons_self) (by decide)
    · rfl
  · rfl
  · rfl

/-- The exponent behind a significand is digits behind a sign, or missing. -/
theorem exponent_reads {front rest : List Char}
    (apart : ∀ character ∈ front, (character == 'e' || character == 'E') = false)
    (takes : TakesExponent ['e', 'E'] text exponent rest) :
    ∃ exponent?, AreDigits (splitSign (exponent?.getD [])).2 ∧
      splitAtFirst (fun character => character == 'e' || character == 'E')
        (front ++ withoutSeparators exponent) = (front, exponent?) := by
  cases takes with
  | omitted none =>
      have empty : withoutSeparators [] = [] := rfl
      rw [empty, List.append_nil]
      exact ⟨.none, List.forall_mem_nil _, splitAtFirst_none apart⟩
  | @taken marker sign text run rest marks signs behind =>
      have known : (marker == 'e' || marker == 'E') = true ∧ marker ≠ '_' := by
        simp only [List.mem_cons, List.not_mem_nil, or_false] at marks
        rcases marks with rfl | rfl
        · decide
        · decide
      have kept : withoutSeparators sign = sign := by
        have all : ∀ sign ∈ exponentSigns, withoutSeparators sign = sign := by
          decide
        exact all sign signs
      rw [withoutSeparators_cons known.2, withoutSeparators_append, kept]
      refine ⟨some _, ?_, splitAtFirst_some apart known.1 _⟩
      rw [Option.getD_some, splitSign_reads signs behind.digits.areDigits]
      exact behind.digits.areDigits

/-- Every decimal float has a value. -/
theorem decimalFloat?_some {behind after rest : List Char} (integer : IsDigitRun 10 digits)
    (takes : TakesFraction 10 behind fraction after)
    (further : TakesExponent ['e', 'E'] after exponent rest) :
    ∃ bits, decimalFloat? (digits ++ (fraction ++ exponent)) = some bits := by
  obtain ⟨apart, whole, fraction?, digits', significand⟩ := significand_reads integer takes
  obtain ⟨exponent?, sign, split⟩ := exponent_reads apart further
  obtain ⟨value, read⟩ := digits'.numeral?
  obtain ⟨magnitude, power⟩ := sign.numeral?
  rw [← List.append_assoc, decimalFloat?, withoutSeparators_append, split]
  simp only [significand, read, power]
  exact ⟨_, rfl⟩

end Decimal

/-! ### Points and markers -/

/-- Digits follow each point, and each marker with its sign. -/
structure PairsDigits (text : List Char) : Prop where
  point : ∀ front behind, text = front ++ '.' :: behind → StartsDigit 10 behind
  marker : ∀ marker ∈ ['e', 'E'], ∀ front behind, text = front ++ marker :: behind →
    ∃ sign ∈ exponentSigns, ∃ digits, behind = sign ++ digits ∧ StartsDigit 10 digits

section Points

variable {digits text fraction exponent covered : List Char} {character : Char} {kind : TokenKind}

theorem IsDigitRun.not_mem (run : IsDigitRun 10 digits) (fails : isDecimalDigit character = false)
    (other : character ≠ '_') : character ∉ digits := testsDigits_decimal.not_mem_run run fails other

theorem noMarker {marker : Char} (marks : marker ∈ ['e', 'E']) :
    isDecimalDigit marker = false ∧ marker ≠ '_' ∧ marker ≠ '.' ∧
      ∀ sign ∈ exponentSigns, marker ∉ sign := by
  simp only [List.mem_cons, List.not_mem_nil, or_false] at marks
  rcases marks with rfl | rfl
  · decide
  · decide

theorem TakesExponent.no_point {rest : List Char} (takes : TakesExponent ['e', 'E'] text exponent rest) :
    '.' ∉ exponent := by
  cases takes with
  | omitted none => exact List.not_mem_nil
  | taken marks signs run =>
      have noSign : ∀ sign ∈ exponentSigns, '.' ∉ sign := by
        decide
      simp only [List.mem_cons, List.mem_append, not_or]
      exact ⟨(noMarker marks).2.2.1.symm, noSign _ signs, run.digits.not_mem rfl (by decide)⟩

theorem TakesFraction.no_marker {marker : Char} {rest : List Char} (marks : marker ∈ ['e', 'E'])
    (takes : TakesFraction 10 text fraction rest) : marker ∉ fraction := by
  obtain ⟨noDigit, noUnderscore, noPoint, -⟩ := noMarker marks
  cases takes with
  | omitted none => exact List.not_mem_nil
  | taken run =>
      simp only [List.mem_cons, not_or]
      exact ⟨noPoint, run.digits.not_mem noDigit noUnderscore⟩

/-- A decimal number has at most one point and one marker, and each was taken with digits behind it. -/
theorem pairsDigits_decimal {behind rest : List Char} (integer : TakesDigits 10 text digits behind)
    (tail : TakesTail 10 ['e', 'E'] behind fraction exponent rest) :
    PairsDigits (digits ++ (fraction ++ exponent)) where
  point := by
    intro front back same
    have noPoint : '.' ∉ digits := integer.digits.not_mem rfl (by decide)
    have noExponent := tail.exponent.no_point
    cases tail.fraction with
    | omitted none =>
        have member : '.' ∈ digits ++ ([] ++ exponent) := same ▸ by simp
        simp [noPoint, noExponent] at member
    | @taken text run rest takes =>
        have further : '.' ∉ run ++ exponent :=
          List.not_mem_append (takes.digits.not_mem rfl (by decide)) noExponent
        obtain ⟨-, -, rfl⟩ := (List.append_cons_inj_of_notMem noPoint further).mp same
        exact takes.digits.startsDigit.append exponent
  marker := by
    intro marker marks front back same
    obtain ⟨noDigit, noUnderscore, -, noSign⟩ := noMarker marks
    have before : marker ∉ digits ++ fraction :=
      List.not_mem_append (integer.digits.not_mem noDigit noUnderscore) (tail.fraction.no_marker marks)
    rw [← List.append_assoc] at same
    have takes := tail.exponent
    generalize exponent ++ rest = after at takes
    cases takes with
    | omitted none =>
        rw [List.append_nil] at same
        exact absurd (same ▸ by simp) before
    | @taken _ sign text run rest _ signs takes =>
        have further : marker ∉ sign ++ run :=
          List.not_mem_append (noSign sign signs) (takes.digits.not_mem noDigit noUnderscore)
        obtain ⟨-, -, rfl⟩ := (List.append_cons_inj_of_notMem before further).mp same
        exact ⟨sign, signs, run, rfl, takes.digits.startsDigit⟩

end Points

/-! ### The tokens of a source -/

section Tokens

variable {source : List Char} {token : Token}

def numberAt (text : List Char) : Lexeme :=
  numberLexeme (numberExtent text) (text.take (numberExtent text).length)

theorem frontLexemes_numeric {character : Char} {rest : List Char} {piece : Lexeme}
    (read : frontLexemes character rest = [piece]) (numeric : piece.kind ∈ [.int, .float]) :
    StartsDigit 10 (character :: rest) ∧ piece = numberAt (character :: rest) := by
  have noSymbol : piece.kind ∉ .hash :: symbolKinds := by
    intro symbol
    have listed : piece.kind ∈ [TokenKind.int, .float] ++ [.eof] := List.mem_append_left _ numeric
    exact (symbolKinds_apart _ symbol).2.2 listed
  have apart : ∀ kind ∈ [TokenKind.int, .float], kind ∉ looseKinds ∧ kind ∉ joinedKinds := by
    decide
  obtain ⟨noLoose, noJoined⟩ := apart _ numeric
  have reads := frontLexemes_reads character rest
  rw [read] at reads
  cases reads with
  | number digit => exact ⟨testsDigits_decimal.startsDigit_iff.mpr digit, rfl⟩
  | sign same => exact absurd List.mem_cons_self noSymbol
  | symbol other found =>
      obtain ⟨listed, -⟩ := fixedSpelling_prefix found
      exact absurd (List.mem_cons_of_mem _ (fixedSpellings_token listed).1) noSymbol
  | loose known => exact absurd known noLoose
  | joined known => exact absurd (known piece (List.mem_singleton_self piece)) noJoined

/-- Each number token of a source is the number that is read at its place. -/
theorem lex_numberAt (member : token ∈ (lex source).tokens) (numeric : token.kind ∈ [.int, .float]) :
    ∃ before text, source = before ++ text ∧ StartsDigit 10 text ∧
      token = (numberAt text).token (utf8Length before) ∧
      lexErrorsAt source token.span.start = lexErrorsFrom (utf8Length before) [numberAt text] := by
  have apart : ∀ kind ∈ [TokenKind.int, .float], kind ∉ joinedKinds ∧ kind ≠ .eof := by
    decide
  obtain ⟨alone, more⟩ := apart _ numeric
  obtain ⟨before, character, rest, piece, whole, read, rfl, errors⟩ := lex_alone member alone more
  obtain ⟨starts, rfl⟩ := frontLexemes_numeric read numeric
  exact ⟨before, _, whole, starts, rfl, errors⟩

theorem numberAt_text (text : List Char) : (numberAt text).text = text.take (numberExtent text).length :=
  (numberLexeme_text _ _).1

theorem numberAt_reads {text : List Char} (starts : StartsDigit 10 text) :
    ReadsNumber text (numberAt text).kind (numberAt text).text := by
  obtain ⟨kind, covered, reads, kind_eq, length_eq⟩ := numberExtent_reads starts
  rw [numberAt_text, numberAt, numberLexeme_kind_eq, kind_eq, length_eq,
    ← List.prefix_iff_eq_take.mp reads.front]
  exact reads

/-- A decimal number is written as one, and has a value if it is a float. -/
theorem numberAt_plain {text : List Char} (plain : ¬ IsPrefixed text) (starts : StartsDigit 10 text) :
    PairsDigits (numberAt text).text ∧
      ((numberAt text).kind = .float → (numberAt text).problem = none) := by
  obtain ⟨digits, behind, fraction, exponent, rest, integer, tail, extent⟩ := reads_plain plain starts
  have parts : text = (digits ++ (fraction ++ exponent)) ++ rest := by
    simp [integer.parts, tail.parts]
  have length : (numberExtent text).length = (digits ++ (fraction ++ exponent)).length := by
    rw [extent]
    exact List.length_append.symm
  have covered : text.take (numberExtent text).length = digits ++ (fraction ++ exponent) :=
    (congrArg _ parts).trans (List.take_left' length.symm)
  constructor
  · rw [numberAt_text, covered]
    exact pairsDigits_decimal integer tail
  · rw [numberAt, covered, extent]
    obtain ⟨bits, value⟩ := decimalFloat?_some integer.digits tail.fraction tail.exponent
    cases (fraction ++ exponent).length with
    | zero =>
        intro float
        cases (integerLexeme_text _ _ _).2.symm.trans float
    | succ count =>
        intro float
        simp only [numberLexeme, floatLexeme, value]

/-- Digits that a point follows have no prefix. -/
theorem not_isPrefixed_point {digits : List Char} (run : IsDigitRun 10 digits) (rest : List Char) :
    ¬ IsPrefixed (digits ++ '.' :: rest) := by
  rintro ⟨letter, radix, behind, known, same⟩
  have noPrefix (plain : isDecimalDigit letter = true ∨ letter = '_') : False :=
    prefixedForm?_none (prefixedForm?_digit plain) radix known
  obtain ⟨-, first, more, rfl, -⟩ := run.startsDigit
  have later := (List.cons.inj same).2
  rcases (isDigitRun_cons_iff.mp run).2 with rfl | run | ⟨other, rfl, -⟩
  · obtain rfl := (List.cons.inj later).1
    exact prefixedForm?_none rfl radix known
  · obtain ⟨value, next, other, rfl, digit⟩ := run.startsDigit
    obtain rfl := (List.cons.inj later).1
    exact noPrefix (Or.inl (testsDigits_decimal.passes _ _ digit))
  · exact noPrefix (Or.inr (List.cons.inj later).1.symm)

/-- Two points behind digits do not belong to them. -/
theorem numberExtent_points {digits : List Char} (run : IsDigitRun 10 digits) (rest : List Char) :
    numberExtent (digits ++ '.' :: '.' :: rest) = ⟨.decimal, digits.length, 0⟩ := by
  obtain ⟨values, written⟩ := id run
  have length := (written.digitsLength isDecimalDigit_of rfl (Or.inl rfl)).1
  rw [List.append_nil] at length
  rw [numberExtent_plain (not_isPrefixed_point run _), digitsLength_append rfl (by decide), length,
    decimalExtent, List.drop_left]
  rfl

theorem lexemes_range {first second : List Char} (before : IsDigitRun 10 first)
    (after : IsDigitRun 10 second) :
    lexemes (first ++ '.' :: '.' :: second) =
      [integerLexeme .decimal first first, .plain .dotDot ['.', '.'],
        integerLexeme .decimal second second] := by
  have pair : frontLexemes '.' ('.' :: second) = [.plain .dotDot ['.', '.']] := rfl
  have points : lexemes ('.' :: '.' :: second) = [.plain .dotDot ['.', '.']] ++ lexemes second :=
    lexemes_front pair rfl
  have extent := numberExtent_points before second
  obtain ⟨values, written⟩ := after
  have last : lexemes second = _ := (WritesInteger.decimal written).lexemes
  obtain ⟨value, character, rest, rfl, digit⟩ := before.startsDigit
  have front := frontLexemes_number (testsDigits_decimal.passes _ _ digit) (rest ++ '.' :: '.' :: second)
  rw [← List.cons_append, extent, NumberExtent.length, Nat.add_zero, List.take_left] at front
  have covers : character :: rest ++ '.' :: '.' :: second =
      joinLexemes [integerLexeme .decimal (character :: rest) (character :: rest)] ++
        '.' :: '.' :: second := by
    rw [joinLexemes, List.flatMap_singleton, (integerLexeme_text _ _ _).1]
  rw [List.cons_append, lexemes_front front covers, points, last]
  rfl

/-- A number token takes the digits of its base as far as they reach, a fraction and an exponent where digits
follow the point or the marker, and nothing else. It is a float just if it has one of the two or spells a bit
pattern. A decimal float has a value. Two points between digits are a token of their own. -/
theorem lex_number_extent :
    (∀ source, ∀ token ∈ (lex source).tokens, token.kind ∈ [.int, .float] →
      ∃ before text, source = before ++ text ∧ token.span.start = utf8Length before ∧
        (∀ kind covered, ReadsNumber text kind covered ↔ token.kind = kind ∧ token.text.toList = covered) ∧
        (¬ IsPrefixed text → PairsDigits token.text.toList ∧
          (token.kind = .float → lexErrorsAt source token.span.start = []))) ∧
      ∀ first second, IsDigitRun 10 first → IsDigitRun 10 second →
        (lex (first ++ '.' :: '.' :: second)).tokens.map (fun token => (token.kind, token.text)) =
          [(.int, String.ofList first), (.dotDot, ".."), (.int, String.ofList second), (.eof, "")] := by
  constructor
  · intro source token member numeric
    obtain ⟨before, text, whole, starts, rfl, errors⟩ := lex_numberAt member numeric
    have same : ((numberAt text).token (utf8Length before)).text.toList = (numberAt text).text :=
      String.toList_ofList
    have reads := numberAt_reads starts
    refine ⟨before, text, whole, rfl, fun kind covered => ?_, fun plain => ?_⟩
    · rw [same]
      exact ⟨reads.unique, fun ⟨kinds, texts⟩ => kinds ▸ texts ▸ reads⟩
    · obtain ⟨pairs, value⟩ := numberAt_plain plain starts
      rw [same]
      refine ⟨pairs, fun float => ?_⟩
      rw [errors, lexErrorsFrom, value float]
      rfl
  · intro first second before after
    have kinds (text : List Char) : (integerLexeme .decimal text text).text = text ∧
        (integerLexeme .decimal text text).kind = .int := integerLexeme_text _ _ _
    simp only [lex, lexemes_range before after, tokensFrom, List.map_append, List.map_cons, kinds]
    rfl

end Tokens

/-- A float in front of two points, and one that the exponent behind it is no part of. -/
theorem lex_number_extent_float :
    (∃ before text, "1_0.2_5e+1_0..0x1_.8p".toList = before ++ text ∧ utf8Length before = 14 ∧
        ∀ kind covered, ReadsNumber text kind covered ↔ .float = kind ∧ "0x1_.8".toList = covered) ∧
      lexErrorsAt "1_0.2_5e+1_0..0x1_.8p".toList 0 = [] ∧
      (lex ("0_7".toList ++ '.' :: '.' :: "42".toList)).tokens.map (fun token => (token.kind, token.text)) =
        [(.int, "0_7"), (.dotDot, ".."), (.int, "42"), (.eof, "")] := by
  have decimal : (⟨.float, ⟨0, 12⟩, .float 4771525845757984768 .decimal, "1_0.2_5e+1_0"⟩ : Token) ∈
      (lex "1_0.2_5e+1_0..0x1_.8p".toList).tokens := by
    decide +kernel
  have hexadecimal : (⟨.float, ⟨14, 20⟩, .float 4609434218613702656 .hexadecimal, "0x1_.8"⟩ : Token) ∈
      (lex "1_0.2_5e+1_0..0x1_.8p".toList).tokens := by
    decide +kernel
  have digit (value : Nat) (below : value < 10) : IsDigit 10 value (Nat.digitChar value) :=
    ⟨below, Or.inl rfl⟩
  have first : IsDigitRun 10 "0_7".toList :=
    ⟨[0, 7], .separated (digit 0 (by decide)) (.single (digit 7 (by decide)))⟩
  have second : IsDigitRun 10 "42".toList :=
    ⟨[4, 2], .joined (digit 4 (by decide)) (.single (digit 2 (by decide)))⟩
  obtain ⟨before, text, whole, start, reads, -⟩ := lex_number_extent.1 _ _ hexadecimal (by decide)
  obtain ⟨front, rest, same, none, -, plain⟩ := lex_number_extent.1 _ _ decimal (by decide)
  have empty : front = [] := by
    by_contra some
    exact absurd none (Nat.ne_of_lt (utf8Length_pos some))
  have noPrefix : ¬ IsPrefixed rest := by
    rintro ⟨letter, radix, more, known, rfl⟩
    subst empty
    exact absurd (List.cons.inj same).1 (by decide)
  exact ⟨⟨before, text, whole, start.symm, reads⟩, (plain noPrefix).2 rfl,
    lex_number_extent.2 _ _ first second⟩

end JaiSyntax

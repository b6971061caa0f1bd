import JaiSyntax.Lexer.Extent
import JaiSyntax.Proofs.Number.Numeral
/-!
How far digits, fractions and exponents reach. The digits that are taken are the longest run with single
underscores at the front of a text. A fraction is taken just where a digit stands behind the point, and an
exponent just where one stands behind the marker and the sign.
-/

set_option autoImplicit false

namespace JaiSyntax

/-! ### What is taken -/

/-- Digits with single underscores between some of them. -/
def IsDigitRun (radix : Nat) (text : List Char) : Prop := ∃ values, SeparatedDigits radix values text

def StartsDigit (radix : Nat) (text : List Char) : Prop :=
  ∃ value character rest, text = character :: rest ∧ IsDigit radix value character

structure TakesDigits (radix : Nat) (text run rest : List Char) : Prop where
  parts : text = run ++ rest
  digits : IsDigitRun radix run
  longest : ∀ other, IsDigitRun radix other → other <+: text → other.length ≤ run.length

/-- A fraction at the front of a text, and what follows it. There is one if a digit follows the point. -/
inductive TakesFraction (radix : Nat) : List Char → List Char → List Char → Prop where
  | taken {text run rest : List Char} (digits : TakesDigits radix text run rest) :
      TakesFraction radix ('.' :: text) ('.' :: run) rest
  | omitted {text : List Char} (none : ∀ behind, text = '.' :: behind → ¬ StartsDigit radix behind) :
      TakesFraction radix text [] text

def exponentSigns : List (List Char) := [[], ['+'], ['-']]

/-- An exponent at the front of a text, and what follows it. There is one if a decimal digit follows a
marker and a sign. -/
inductive TakesExponent (markers : List Char) : List Char → List Char → List Char → Prop where
  | taken {marker : Char} {sign text run rest : List Char} (marks : marker ∈ markers)
      (signs : sign ∈ exponentSigns) (digits : TakesDigits 10 text run rest) :
      TakesExponent markers (marker :: (sign ++ text)) (marker :: (sign ++ run)) rest
  | omitted {text : List Char}
      (none : ∀ marker ∈ markers, ∀ sign ∈ exponentSigns, ∀ behind,
        text = marker :: (sign ++ behind) → ¬ StartsDigit 10 behind) :
      TakesExponent markers text [] text

structure TakesTail (radix : Nat) (markers text fraction exponent rest : List Char) : Prop where
  parts : text = fraction ++ (exponent ++ rest)
  fraction : TakesFraction radix text fraction (exponent ++ rest)
  exponent : TakesExponent markers (exponent ++ rest) exponent rest

theorem TakesFraction.parts {radix : Nat} {text fraction rest : List Char}
    (takes : TakesFraction radix text fraction rest) : text = fraction ++ rest := by
  cases takes with
  | taken digits => rw [digits.parts, List.cons_append]
  | omitted none => rfl

theorem TakesExponent.parts {markers text exponent rest : List Char}
    (takes : TakesExponent markers text exponent rest) : text = exponent ++ rest := by
  cases takes with
  | taken marks signs digits => rw [digits.parts, List.cons_append, List.append_assoc]
  | omitted none => rfl

/-! ### Tests for digits -/

structure TestsDigits (radix : Nat) (digit : Char → Bool) : Prop where
  passes : ∀ value character, IsDigit radix value character → digit character = true
  sound : ∀ character, digit character = true → ∃ value, IsDigit radix value character
  noDigit : digit '_' = false

/-- A test that only ASCII characters pass is checked on these. -/
theorem testsDigits_of_ascii {radix : Nat} {digit : Char → Bool}
    (ascii : ∀ character, digit character = true → character.toNat < 128)
    (digits : ∀ code < 128, digit (Char.ofNat code) = true → ∃ value < radix,
      Char.ofNat code = Nat.digitChar value ∨ Char.ofNat code = (Nat.digitChar value).toUpper)
    (passes : ∀ value < radix, digit (Nat.digitChar value) = true ∧
      digit (Nat.digitChar value).toUpper = true)
    (noDigit : digit '_' = false) : TestsDigits radix digit where
  passes _ _ isDigit := isDigit.passes passes
  sound character holds := by
    have checked := digits _ (ascii character holds)
    rw [Char.ofNat_toNat] at checked
    obtain ⟨value, below, written⟩ := checked holds
    exact ⟨value, below, written⟩
  noDigit := noDigit

theorem toNat_lt_of_le {character last : Char} (below : character ≤ last) (ascii : last.toNat < 128) :
    character.toNat < 128 :=
  Nat.lt_of_le_of_lt (show character.toNat ≤ last.toNat from below) ascii

theorem toNat_lt_of_isDigit {character : Char} (digit : character.isDigit = true) :
    character.toNat < 128 := by
  simp only [Char.isDigit, Bool.and_eq_true, decide_eq_true_eq] at digit
  have most : character ≤ '9' := digit.2
  exact toNat_lt_of_le most (by decide)

theorem testsDigits_decimal : TestsDigits 10 isDecimalDigit :=
  testsDigits_of_ascii (fun _ => toNat_lt_of_isDigit) (by decide) (by decide) rfl

theorem testsDigits_binary : TestsDigits 2 isBinaryDigit := by
  refine testsDigits_of_ascii (fun character holds => ?_) (by decide) (by decide) rfl
  simp only [isBinaryDigit, Bool.or_eq_true, beq_iff_eq] at holds
  rcases holds with rfl | rfl
  · decide
  · decide

theorem testsDigits_octal : TestsDigits 8 isOctalNumeral := by
  refine testsDigits_of_ascii (fun character holds => ?_) (by decide) (by decide) rfl
  simp only [isOctalNumeral, Bool.and_eq_true, decide_eq_true_eq] at holds
  exact toNat_lt_of_le holds.2 (by decide)

theorem testsDigits_hexadecimal : TestsDigits 16 isHexNumeral := by
  refine testsDigits_of_ascii (fun character holds => ?_) (by decide) (by decide) rfl
  simp only [isHexNumeral, Bool.or_eq_true, Bool.and_eq_true, decide_eq_true_eq] at holds
  rcases holds with (digit | lower) | upper
  · exact toNat_lt_of_isDigit digit
  · exact toNat_lt_of_le lower.2 (by decide)
  · exact toNat_lt_of_le upper.2 (by decide)

/-! ### Digits -/

section Digits

variable {radix : Nat} {digit : Char → Bool} {character : Char} {rest text : List Char}

/-- Behind the first digit of a run there is nothing, or a run with or without an underscore before it. -/
theorem isDigitRun_cons_iff : IsDigitRun radix (character :: rest) ↔
    (∃ value, IsDigit radix value character) ∧
      (rest = [] ∨ IsDigitRun radix rest ∨ ∃ behind, rest = '_' :: behind ∧ IsDigitRun radix behind) := by
  constructor
  · rintro ⟨values, written⟩
    cases written with
    | single digit => exact ⟨⟨_, digit⟩, Or.inl rfl⟩
    | joined digit later => exact ⟨⟨_, digit⟩, Or.inr (Or.inl ⟨_, later⟩)⟩
    | separated digit later => exact ⟨⟨_, digit⟩, Or.inr (Or.inr ⟨_, rfl, _, later⟩)⟩
  · rintro ⟨⟨value, digit⟩, rfl | ⟨values, later⟩ | ⟨behind, rfl, values, later⟩⟩
    · exact ⟨_, .single digit⟩
    · exact ⟨_, .joined digit later⟩
    · exact ⟨_, .separated digit later⟩

theorem IsDigitRun.startsDigit (run : IsDigitRun radix text) : StartsDigit radix text := by
  obtain ⟨values, written⟩ := run
  cases written with
  | single digit => exact ⟨_, _, _, rfl, digit⟩
  | joined digit later => exact ⟨_, _, _, rfl, digit⟩
  | separated digit later => exact ⟨_, _, _, rfl, digit⟩

/-- The most of a text that makes a run together with a digit in front of it. -/
structure ContinuesDigits (radix : Nat) (text run rest : List Char) : Prop where
  parts : text = run ++ rest
  digits : ∀ value first, IsDigit radix value first → IsDigitRun radix (first :: run)
  longest : ∀ first other, IsDigitRun radix (first :: other) → other <+: text →
    other.length ≤ run.length

namespace ContinuesDigits

variable {run more : List Char} {value : Nat}

/-- A text that goes on with neither a digit nor an underscore and a digit. -/
theorem ended (noDigit : ¬ StartsDigit radix text)
    (noJoined : ∀ behind, text = '_' :: behind → ¬ StartsDigit radix behind) :
    ContinuesDigits radix text [] text where
  parts := rfl
  digits _ _ digit := isDigitRun_cons_iff.mpr ⟨⟨_, digit⟩, Or.inl rfl⟩
  longest first other joined front := by
    obtain ⟨more, rfl⟩ := front
    rcases (isDigitRun_cons_iff.mp joined).2 with rfl | later | ⟨behind, rfl, later⟩
    · exact Nat.le_refl _
    · obtain ⟨value, character, rest, rfl, digit⟩ := later.startsDigit
      exact absurd ⟨value, character, _, rfl, digit⟩ noDigit
    · obtain ⟨value, character, rest, rfl, digit⟩ := later.startsDigit
      exact absurd ⟨value, character, _, rfl, digit⟩ (noJoined _ rfl)

theorem joined (isDigit : IsDigit radix value character) (other : character ≠ '_')
    (later : ContinuesDigits radix rest run more) :
    ContinuesDigits radix (character :: rest) (character :: run) more where
  parts := by rw [later.parts, List.cons_append]
  digits _ _ first := isDigitRun_cons_iff.mpr ⟨⟨_, first⟩, Or.inr (Or.inl (later.digits _ _ isDigit))⟩
  longest first other joined front := by
    rcases (isDigitRun_cons_iff.mp joined).2 with rfl | run | ⟨behind, rfl, -⟩
    · exact Nat.zero_le _
    · obtain ⟨value, next, behind, rfl, -⟩ := run.startsDigit
      obtain ⟨rfl, within⟩ := List.cons_prefix_cons.mp front
      exact Nat.succ_le_succ (later.longest _ _ run within)
    · exact absurd (List.cons_prefix_cons.mp front).1.symm other

theorem separated (noDigit : ∀ value, ¬ IsDigit radix value '_') (isDigit : IsDigit radix value character)
    (later : ContinuesDigits radix rest run more) :
    ContinuesDigits radix ('_' :: character :: rest) ('_' :: character :: run) more where
  parts := by rw [later.parts, List.cons_append, List.cons_append]
  digits _ _ first := isDigitRun_cons_iff.mpr
    ⟨⟨_, first⟩, Or.inr (Or.inr ⟨_, rfl, later.digits _ _ isDigit⟩)⟩
  longest first other joined front := by
    rcases (isDigitRun_cons_iff.mp joined).2 with rfl | run | ⟨behind, rfl, run⟩
    · exact Nat.zero_le _
    · obtain ⟨value, next, behind, rfl, digit⟩ := run.startsDigit
      obtain ⟨rfl, -⟩ := List.cons_prefix_cons.mp front
      exact absurd digit (noDigit value)
    · obtain ⟨value, next, behind, rfl, -⟩ := run.startsDigit
      obtain ⟨rfl, within⟩ := List.cons_prefix_cons.mp (List.cons_prefix_cons.mp front).2
      exact Nat.succ_le_succ (Nat.succ_le_succ (later.longest _ _ run within))

end ContinuesDigits

namespace TestsDigits

theorem noDigit' (tests : TestsDigits radix digit) (value : Nat) : ¬ IsDigit radix value '_' := by
  intro isDigit
  have holds := tests.passes _ _ isDigit
  rw [tests.noDigit] at holds
  cases holds

theorem startsDigit_iff (tests : TestsDigits radix digit) :
    StartsDigit radix (character :: rest) ↔ digit character = true := by
  constructor
  · rintro ⟨value, first, behind, same, isDigit⟩
    obtain ⟨rfl, rfl⟩ := List.cons.inj same
    exact tests.passes _ _ isDigit
  · intro holds
    obtain ⟨value, isDigit⟩ := tests.sound _ holds
    exact ⟨value, character, rest, rfl, isDigit⟩

theorem not_startsDigit_nil : ¬ StartsDigit radix [] := by
  rintro ⟨value, character, rest, none, -⟩
  cases none

/-- The scan behind a digit goes as far as a run does. -/
theorem digitsFrom (tests : TestsDigits radix digit) (covered : Nat) (text : List Char) :
    ∃ run rest, ContinuesDigits radix text run rest ∧
      JaiSyntax.digitsFrom digit covered text = covered + run.length := by
  fun_induction JaiSyntax.digitsFrom digit covered text with
  | case1 covered =>
      exact ⟨[], [], .ended not_startsDigit_nil nofun, rfl⟩
  | case2 covered character holds =>
      obtain ⟨value, isDigit⟩ := tests.sound _ holds
      refine ⟨[character], [], .joined isDigit ?_ (.ended not_startsDigit_nil nofun), rfl⟩
      exact fun same => tests.noDigit' value (same ▸ isDigit)
  | case3 covered character fails =>
      refine ⟨[], [character], .ended (fun starts => fails (tests.startsDigit_iff.mp starts)) ?_, rfl⟩
      rintro behind same
      obtain ⟨-, rfl⟩ := List.cons.inj same
      exact not_startsDigit_nil
  | case4 covered character following rest holds ih =>
      obtain ⟨run, more, later, length⟩ := ih
      obtain ⟨value, isDigit⟩ := tests.sound _ holds
      refine ⟨character :: run, more, .joined isDigit ?_ later, ?_⟩
      · exact fun same => tests.noDigit' value (same ▸ isDigit)
      · rw [length, List.length_cons]
        omega
  | case5 covered character following rest fails joined ih =>
      obtain ⟨run, more, later, length⟩ := ih
      obtain ⟨underscore, holds⟩ := Bool.and_eq_true_iff.mp joined
      obtain rfl := beq_iff_eq.mp underscore
      obtain ⟨value, isDigit⟩ := tests.sound _ holds
      refine ⟨'_' :: following :: run, more, .separated tests.noDigit' isDigit later, ?_⟩
      rw [length, List.length_cons, List.length_cons]
      omega
  | case6 covered character following rest fails apart =>
      refine ⟨[], _, .ended (fun starts => fails (tests.startsDigit_iff.mp starts)) ?_, rfl⟩
      rintro behind same
      obtain ⟨rfl, rfl⟩ := List.cons.inj same
      intro starts
      exact apart (Bool.and_eq_true_iff.mpr ⟨rfl, tests.startsDigit_iff.mp starts⟩)

theorem digitsLength_eq_zero (tests : TestsDigits radix digit) (none : ¬ StartsDigit radix text) :
    digitsLength digit text = 0 := by
  cases text with
  | nil => rfl
  | cons character rest => exact if_neg (fun holds => none (tests.startsDigit_iff.mpr holds))

/-- At a digit the scan takes the longest run. -/
theorem digitsLength_takes (tests : TestsDigits radix digit) (starts : StartsDigit radix text) :
    ∃ run rest, TakesDigits radix text run rest ∧ digitsLength digit text = run.length := by
  obtain ⟨value, character, behind, rfl, isDigit⟩ := starts
  obtain ⟨run, rest, continues, length⟩ := tests.digitsFrom 1 behind
  refine ⟨character :: run, rest, ⟨?_, continues.digits _ _ isDigit, ?_⟩, ?_⟩
  · rw [continues.parts, List.cons_append]
  · intro other joined front
    obtain ⟨-, first, more, rfl, -⟩ := joined.startsDigit
    obtain ⟨rfl, within⟩ := List.cons_prefix_cons.mp front
    exact Nat.succ_le_succ (continues.longest _ _ joined within)
  · rw [digitsLength, if_pos (tests.passes _ _ isDigit), length, List.length_cons, Nat.add_comm]

/-- Nothing but digits and underscores stands in a run. -/
theorem not_mem_run (tests : TestsDigits radix digit) (run : IsDigitRun radix text)
    (fails : digit character = false) (other : character ≠ '_') : character ∉ text := by
  have apart {value : Nat} {next : Char} (isDigit : IsDigit radix value next) : character ≠ next := by
    rintro rfl
    have holds := tests.passes _ _ isDigit
    rw [fails] at holds
    cases holds
  obtain ⟨values, written⟩ := run
  induction written with
  | single isDigit => simp [apart isDigit]
  | joined isDigit later ih => simp [apart isDigit, ih]
  | separated isDigit later ih => simp [apart isDigit, other, ih]

end TestsDigits

end Digits

theorem TakesDigits.length_ne_zero {radix : Nat} {text run rest : List Char}
    (takes : TakesDigits radix text run rest) : run.length ≠ 0 := by
  obtain ⟨-, first, more, rfl, -⟩ := takes.digits.startsDigit
  exact Nat.succ_ne_zero _

/-! ### Fractions and exponents -/

section Tails

variable {radix : Nat} {digit : Char → Bool} {marker : Char} {markers : List Char}

theorem TestsDigits.fractionLength_takes (tests : TestsDigits radix digit) (text : List Char) :
    ∃ fraction rest, TakesFraction radix text fraction rest ∧
      fractionLength digit text = fraction.length := by
  rw [fractionLength.eq_def]
  split
  · next behind =>
      by_cases starts : StartsDigit radix behind
      · obtain ⟨run, rest, takes, length⟩ := tests.digitsLength_takes starts
        refine ⟨'.' :: run, rest, .taken takes, ?_⟩
        simp [length, takes.length_ne_zero]
      · refine ⟨[], _, .omitted ?_, by simp [tests.digitsLength_eq_zero starts]⟩
        rintro other same
        obtain rfl := (List.cons.inj same).2
        exact starts
  · next other =>
      exact ⟨[], text, .omitted (fun behind same => absurd same (other behind)), rfl⟩

/-- The signs are told apart by the first character, and none is a digit. -/
theorem signLength_eq {sign behind : List Char} (signs : sign ∈ exponentSigns)
    (starts : StartsDigit 10 behind) : signLength (sign ++ behind) = sign.length := by
  simp only [exponentSigns, List.mem_cons, List.not_mem_nil, or_false] at signs
  rcases signs with rfl | rfl | rfl
  · obtain ⟨value, character, rest, rfl, isDigit⟩ := starts
    have holds := testsDigits_decimal.passes _ _ isDigit
    rw [List.nil_append, signLength.eq_def]
    split
    · next same =>
        obtain ⟨rfl, -⟩ := List.cons.inj same
        cases holds
    · next same =>
        obtain ⟨rfl, -⟩ := List.cons.inj same
        cases holds
    · rfl
  · rfl
  · rfl

theorem signLength_parts (text : List Char) :
    ∃ sign ∈ exponentSigns, ∃ behind, text = sign ++ behind ∧ signLength text = sign.length := by
  rw [signLength.eq_def]
  split
  · exact ⟨['+'], by decide, _, rfl, rfl⟩
  · exact ⟨['-'], by decide, _, rfl, rfl⟩
  · exact ⟨[], by decide, _, rfl, rfl⟩

theorem exponentLength_takes (marks : ∀ character : Char, character.toLower = marker ↔ character ∈ markers)
    (text : List Char) :
    ∃ exponent rest, TakesExponent markers text exponent rest ∧
      exponentLength marker text = exponent.length := by
  cases text with
  | nil => exact ⟨[], [], .omitted (fun _ _ _ _ _ => nofun), rfl⟩
  | cons character text =>
      by_cases marked : character.toLower = marker
      · obtain ⟨sign, signs, behind, rfl, length⟩ := signLength_parts text
        by_cases starts : StartsDigit 10 behind
        · obtain ⟨run, rest, takes, digits⟩ := testsDigits_decimal.digitsLength_takes starts
          refine ⟨_, rest, .taken ((marks character).mp marked) signs takes, ?_⟩
          have some := takes.length_ne_zero
          simp only [exponentLength, beq_iff_eq, if_pos marked, length, List.drop_left, digits, if_neg some,
            List.length_cons, List.length_append]
          omega
        · refine ⟨[], _, .omitted ?_, ?_⟩
          · intro other known also listed more same digit
            obtain ⟨-, rest⟩ := List.cons.inj same
            have lengths := signLength_eq listed digit
            rw [← rest, length] at lengths
            obtain rfl := List.append_inj_right rest lengths
            exact starts digit
          · simp [exponentLength, marked, length, testsDigits_decimal.digitsLength_eq_zero starts]
      · refine ⟨[], _, .omitted ?_, by simp [exponentLength, marked]⟩
        intro other known sign signs behind same
        obtain ⟨rfl, -⟩ := List.cons.inj same
        exact absurd ((marks character).mpr known) marked

/-- A fraction and an exponent are taken as far as they reach. -/
theorem TestsDigits.tailLength_takes (tests : TestsDigits radix digit)
    (marks : ∀ character : Char, character.toLower = marker ↔ character ∈ markers) (text : List Char) :
    ∃ fraction exponent rest, TakesTail radix markers text fraction exponent rest ∧
      tailLength digit marker text = (fraction ++ exponent).length := by
  obtain ⟨fraction, behind, first, length⟩ := tests.fractionLength_takes text
  obtain ⟨exponent, rest, second, further⟩ := exponentLength_takes marks behind
  have parts := first.parts
  obtain rfl := second.parts
  refine ⟨fraction, exponent, rest, ⟨parts, first, second⟩, ?_⟩
  rw [tailLength, length, parts, List.drop_left, further, List.length_append]

end Tails

/-! ### What is taken is the same each time -/

section Unique

variable {radix : Nat} {markers text run run' rest rest' fraction fraction' exponent exponent' : List Char}

theorem StartsDigit.append {radix : Nat} (starts : StartsDigit radix text) (more : List Char) :
    StartsDigit radix (text ++ more) := by
  obtain ⟨value, character, rest, rfl, digit⟩ := starts
  exact ⟨value, character, rest ++ more, rfl, digit⟩

theorem TakesDigits.startsDigit (takes : TakesDigits radix text run rest) : StartsDigit radix text := by
  rw [takes.parts]
  exact takes.digits.startsDigit.append rest

theorem TakesDigits.unique (takes : TakesDigits radix text run rest)
    (also : TakesDigits radix text run' rest') : run = run' ∧ rest = rest' := by
  have front : run <+: text := ⟨rest, takes.parts.symm⟩
  have front' : run' <+: text := ⟨rest', also.parts.symm⟩
  have most := also.longest run takes.digits front
  have least := takes.longest run' also.digits front'
  obtain rfl := (List.prefix_of_prefix_length_le front front' most).eq_of_length (Nat.le_antisymm most least)
  exact ⟨rfl, List.append_cancel_left (takes.parts.symm.trans also.parts)⟩

theorem TakesFraction.unique (takes : TakesFraction radix text fraction rest)
    (also : TakesFraction radix text fraction' rest') : fraction = fraction' ∧ rest = rest' := by
  cases takes with
  | taken digits =>
      cases also with
      | taken digits' =>
          obtain ⟨rfl, rfl⟩ := digits.unique digits'
          exact ⟨rfl, rfl⟩
      | omitted none => exact absurd digits.startsDigit (none _ rfl)
  | omitted none =>
      cases also with
      | taken digits' => exact absurd digits'.startsDigit (none _ rfl)
      | omitted none' => exact ⟨rfl, rfl⟩

theorem TakesExponent.unique (takes : TakesExponent markers text exponent rest)
    (also : TakesExponent markers text exponent' rest') : exponent = exponent' ∧ rest = rest' := by
  cases takes with
  | @taken marker sign behind run rest marks signs digits =>
      generalize same : marker :: (sign ++ behind) = whole at also
      cases also with
      | @taken marker' sign' behind' run' rest' marks' signs' digits' =>
          obtain ⟨rfl, later⟩ := List.cons.inj same
          have lengths := congrArg signLength later
          rw [signLength_eq signs digits.startsDigit, signLength_eq signs' digits'.startsDigit] at lengths
          obtain ⟨rfl, rfl⟩ := List.append_inj later lengths
          obtain ⟨rfl, rfl⟩ := digits.unique digits'
          exact ⟨rfl, rfl⟩
      | omitted none => exact absurd digits.startsDigit (none _ marks _ signs _ same.symm)
  | omitted none =>
      cases also with
      | taken marks signs digits => exact absurd digits.startsDigit (none _ marks _ signs _ rfl)
      | omitted none' => exact ⟨rfl, rfl⟩

theorem TakesTail.unique (takes : TakesTail radix markers text fraction exponent rest)
    (also : TakesTail radix markers text fraction' exponent' rest') :
    fraction = fraction' ∧ exponent = exponent' := by
  obtain ⟨rfl, same⟩ := takes.fraction.unique also.fraction
  have first := takes.exponent
  rw [same] at first
  exact ⟨rfl, (first.unique also.exponent).1⟩

end Unique

end JaiSyntax

import JaiSyntax.Proofs.Lexer.Lossless
/-!
Characters that separate. No word and no number goes over a space or a delimiter, and what is read
before one does not depend on what comes after it.
-/

set_option autoImplicit false

namespace JaiSyntax

/-- The characters that are tokens of their own wherever they stand. -/
def delimiters : List Char := ['(', ')', '[', ']', '\x7b', '\x7d', ',', ';']

def delimiterKinds : List TokenKind :=
  [.lParen, .rParen, .lBracket, .rBracket, .lBrace, .rBrace, .comma, .semicolon]

def TokenKind.isDelimiter (kind : TokenKind) : Bool := delimiterKinds.contains kind

/-- A character that neither goes on a word or a number nor follows the digits of one. -/
structure Separates (stop : Char) : Prop where
  noDigit : ∀ digit ∈ [isDecimalDigit, isBinaryDigit, isOctalNumeral, isHexNumeral],
    digit stop = false
  notJoined : stop ≠ '_'
  notPoint : stop ≠ '.'
  notMarker : stop.toLower ≠ 'e' ∧ stop.toLower ≠ 'p'
  unsigned : ∀ more, signLength (stop :: more) = 0
  noPrefix : prefixedForm? stop = none
  noWord : isWordStart stop = false ∧ isWordPart stop = false

theorem separates {stop : Char} (known : stop ∈ ' ' :: delimiters) : Separates stop := by
  have cases : stop = ' ' ∨ stop = '(' ∨ stop = ')' ∨ stop = '[' ∨ stop = ']' ∨
      stop = '\x7b' ∨ stop = '\x7d' ∨ stop = ',' ∨ stop = ';' := by
    simpa [delimiters] using known
  rcases cases with rfl | rfl | rfl | rfl | rfl | rfl | rfl | rfl | rfl
  all_goals exact ⟨by decide, by decide, by decide, by decide, fun _ => rfl, rfl, by decide⟩

/-- A separator that stands alone: nothing in a comment, a string or a heredoc goes over it either. -/
structure Delimits (stop : Char) : Prop extends Separates stop where
  noBackslash : stop ≠ '\\'
  noWhiteSpace : isWhiteSpace stop = false
  noHexDigit : SourceUnit.isHexDigit stop = false
  noOctalDigit : SourceUnit.isOctalDigit stop = false
  noBlank : SourceUnit.isBlank stop = false
  noFeed : SourceUnit.is '\n' stop = false
  noContinuation : SourceUnit.continuesWord stop = false
  escaped : ∀ more, escapeAfterBackslash (stop :: more) = (.single, 1)
  spelled : ∀ entry ∈ fixedSpellings, stop ∉ entry.1 ∨ entry.1 = [stop]
  alone : ∀ more, frontLexemes stop more = lexemes [stop]

theorem delimits {stop : Char} (known : stop ∈ delimiters) : Delimits stop := by
  have separate : Separates stop := separates (List.mem_cons_of_mem _ known)
  have cases : stop = '(' ∨ stop = ')' ∨ stop = '[' ∨ stop = ']' ∨ stop = '\x7b' ∨
      stop = '\x7d' ∨ stop = ',' ∨ stop = ';' := by
    simpa [delimiters] using known
  rcases cases with rfl | rfl | rfl | rfl | rfl | rfl | rfl | rfl
  all_goals exact
    { separate with
      noBackslash := by decide
      noWhiteSpace := by decide
      noHexDigit := by decide
      noOctalDigit := by decide
      noBlank := by decide
      noFeed := by decide
      noContinuation := by decide
      escaped := fun _ => rfl
      spelled := by decide
      alone := fun _ => rfl }

/-! ### Numbers -/

section Numbers

variable {digit : Char → Bool} {marker stop : Char} {more : List Char}

theorem digitsFrom_append (noDigit : digit stop = false) (notJoined : stop ≠ '_') (covered : Nat)
    (text : List Char) :
    digitsFrom digit covered (text ++ stop :: more) = digitsFrom digit covered text := by
  have ended (covered : Nat) : digitsFrom digit covered (stop :: more) = covered := by
    cases more <;> simp [digitsFrom, noDigit, notJoined]
  fun_induction digitsFrom digit covered text with
  | case1 covered => exact ended covered
  | case2 covered character holds => simp [digitsFrom, holds, ended]
  | case3 covered character fails => simp [digitsFrom, fails, noDigit]
  | case4 covered character next rest holds ih => simpa [digitsFrom, holds] using ih
  | case5 covered character next rest fails joined ih =>
      simp only [List.cons_append, digitsFrom, fails, joined]
      simpa using ih
  | case6 covered character next rest fails apart =>
      simp only [List.cons_append, digitsFrom, fails, apart, Bool.false_eq_true, if_false]

theorem digitsFrom_le_length (digit : Char → Bool) (covered : Nat) (text : List Char) :
    digitsFrom digit covered text ≤ covered + text.length := by
  fun_induction digitsFrom digit covered text <;> simp_all <;> omega

theorem digitsLength_append (noDigit : digit stop = false) (notJoined : stop ≠ '_')
    (text : List Char) : digitsLength digit (text ++ stop :: more) = digitsLength digit text := by
  cases text with
  | nil => simp [digitsLength, noDigit]
  | cons character rest =>
      simp only [List.cons_append, digitsLength, digitsFrom_append noDigit notJoined]

theorem digitsLength_le (digit : Char → Bool) (text : List Char) :
    digitsLength digit text ≤ text.length := by
  cases text with
  | nil => exact Nat.le_refl _
  | cons character rest =>
      have bounded := digitsFrom_le_length digit 1 rest
      simp only [digitsLength, List.length_cons]
      split <;> omega

theorem fractionLength_append (noDigit : digit stop = false) (notJoined : stop ≠ '_')
    (notPoint : stop ≠ '.') (text : List Char) :
    fractionLength digit (text ++ stop :: more) = fractionLength digit text := by
  cases text with
  | nil =>
      rw [List.nil_append, fractionLength.eq_def]
      split
      · next rest same => exact absurd (List.cons.inj same).1 notPoint
      · rfl
  | cons character rest =>
      by_cases point : character = '.'
      · subst point
        simp only [List.cons_append, fractionLength, digitsLength_append noDigit notJoined]
      · rw [List.cons_append, fractionLength.eq_def, fractionLength.eq_def]
        split
        · next same => exact absurd (List.cons.inj same).1 point
        · split
          · next same => exact absurd (List.cons.inj same).1 point
          · rfl

theorem fractionLength_le (digit : Char → Bool) (text : List Char) :
    fractionLength digit text ≤ text.length := by
  rw [fractionLength.eq_def]
  split
  · next rest =>
      have bounded := digitsLength_le digit rest
      simp only [List.length_cons]
      split <;> omega
  · exact Nat.zero_le _

/-- Whether there is a sign shows in the first character. -/
theorem signLength_cons (character : Char) (rest other : List Char) :
    signLength (character :: rest) = signLength (character :: other) := by
  by_cases plus : character = '+'
  · subst plus
    rfl
  by_cases minus : character = '-'
  · subst minus
    rfl
  simp [signLength, plus, minus]

theorem signLength_le (text : List Char) : signLength text ≤ text.length := by
  rw [signLength.eq_def]
  split <;> simp

theorem exponentLength_append (noDigit : isDecimalDigit stop = false) (notJoined : stop ≠ '_')
    (notMarker : stop.toLower ≠ marker) (unsigned : signLength (stop :: more) = 0)
    (text : List Char) :
    exponentLength marker (text ++ stop :: more) = exponentLength marker text := by
  cases text with
  | nil => simp [exponentLength, notMarker]
  | cons character rest =>
      have sign : signLength (rest ++ stop :: more) = signLength rest := by
        cases rest with
        | nil => exact unsigned
        | cons first after => exact signLength_cons first _ _
      have dropped : (rest ++ stop :: more).drop (signLength rest) =
          rest.drop (signLength rest) ++ stop :: more :=
        List.drop_append_of_le_length (signLength_le rest)
      simp only [List.cons_append, exponentLength, sign, dropped,
        digitsLength_append noDigit notJoined]

theorem tailLength_append (ends : Separates stop)
    (known : digit ∈ [isDecimalDigit, isBinaryDigit, isOctalNumeral, isHexNumeral])
    (marked : marker = 'e' ∨ marker = 'p') (text : List Char) :
    tailLength digit marker (text ++ stop :: more) = tailLength digit marker text := by
  have notMarker : stop.toLower ≠ marker := by
    rcases marked with rfl | rfl
    · exact ends.notMarker.1
    · exact ends.notMarker.2
  have dropped : (text ++ stop :: more).drop (fractionLength digit text) =
      text.drop (fractionLength digit text) ++ stop :: more :=
    List.drop_append_of_le_length (fractionLength_le digit text)
  simp only [tailLength, fractionLength_append (ends.noDigit digit known) ends.notJoined
    ends.notPoint, dropped, exponentLength_append (ends.noDigit isDecimalDigit (by simp))
    ends.notJoined notMarker (ends.unsigned more)]

theorem decimalExtent_append (ends : Separates stop) {integer : Nat} {text : List Char}
    (within : integer ≤ text.length) :
    decimalExtent integer (text ++ stop :: more) = decimalExtent integer text := by
  rw [decimalExtent, decimalExtent, List.drop_append_of_le_length within,
    tailLength_append ends (by simp) (Or.inl rfl)]

theorem prefixedExtent_append (ends : Separates stop) {form : NumberForm} {digits : Nat}
    {text : List Char}
    (known : digit ∈ [isDecimalDigit, isBinaryDigit, isOctalNumeral, isHexNumeral])
    (within : digits + 2 ≤ text.length) :
    prefixedExtent form digit digits (text ++ stop :: more) =
      prefixedExtent form digit digits text := by
  have after : (text ++ stop :: more).drop (digits + 2) = text.drop (digits + 2) ++ stop :: more :=
    List.drop_append_of_le_length within
  have separator : ((text.drop (digits + 2) ++ stop :: more).head? == some '_') =
      ((text.drop (digits + 2)).head? == some '_') := by
    cases text.drop (digits + 2) with
    | nil => simp [ends.notJoined]
    | cons first rest => rfl
  have dropped : (text.drop (digits + 2) ++ stop :: more).drop
      (if (text.drop (digits + 2)).head? == some '_' then 1 else 0) =
      (text.drop (digits + 2)).drop
        (if (text.drop (digits + 2)).head? == some '_' then 1 else 0) ++ stop :: more := by
    refine List.drop_append_of_le_length ?_
    cases text.drop (digits + 2) with
    | nil => simp
    | cons first rest =>
        simp only [List.length_cons]
        split <;> omega
  simp only [prefixedExtent, after, separator, dropped, tailLength_append ends known (Or.inr rfl)]

theorem prefixedForm?_known {letter : Char} {form : NumberForm}
    (found : prefixedForm? letter = some (form, digit)) :
    digit ∈ [isDecimalDigit, isBinaryDigit, isOctalNumeral, isHexNumeral] := by
  unfold prefixedForm? at found
  split at found
  all_goals
    cases found
    try simp

/-- A number ends where a word does. -/
theorem numberExtent_append (ends : Separates stop) {text : List Char} (some : text ≠ []) :
    numberExtent (text ++ stop :: more) = numberExtent text := by
  have decimal (text : List Char) :
      decimalExtent (digitsLength isDecimalDigit (text ++ stop :: more)) (text ++ stop :: more) =
        decimalExtent (digitsLength isDecimalDigit text) text := by
    rw [digitsLength_append (ends.noDigit isDecimalDigit (by simp)) ends.notJoined,
      decimalExtent_append ends (digitsLength_le _ text)]
  obtain ⟨character, rest, rfl⟩ := List.exists_cons_of_ne_nil some
  by_cases zero : character = '0'
  · subst zero
    cases rest with
    | nil =>
        have alone := decimal ['0']
        simp only [List.cons_append, List.nil_append] at alone
        simp only [List.cons_append, List.nil_append, numberExtent, ends.noPrefix, alone]
    | cons letter after =>
        have whole := decimal ('0' :: letter :: after)
        have second : 2 ≤ ('0' :: letter :: after).length := by
          simp only [List.length_cons]
          omega
        simp only [List.cons_append] at whole
        simp only [List.cons_append, numberExtent]
        cases found : prefixedForm? letter with
        | none => exact whole
        | some pair =>
            have known := prefixedForm?_known found
            have within : digitsLength pair.2 after + 2 ≤ ('0' :: letter :: after).length :=
              Nat.add_le_add_right (digitsLength_le pair.2 after) 2
            have two : decimalExtent 2 (('0' :: letter :: after) ++ stop :: more) =
                decimalExtent 2 ('0' :: letter :: after) := decimalExtent_append ends second
            have extent : prefixedExtent pair.1 pair.2 (digitsLength pair.2 after)
                (('0' :: letter :: after) ++ stop :: more) =
                prefixedExtent pair.1 pair.2 (digitsLength pair.2 after)
                  ('0' :: letter :: after) := prefixedExtent_append ends known within
            simp only [List.cons_append] at two extent
            simp only [digitsLength_append (ends.noDigit pair.2 known) ends.notJoined, two, extent]
  · have plain (rest : List Char) : numberExtent (character :: rest) =
        decimalExtent (digitsLength isDecimalDigit (character :: rest)) (character :: rest) := by
      simp [numberExtent, zero]
    rw [List.cons_append, plain, plain, ← List.cons_append, decimal]

end Numbers

/-! ### Words -/

theorem takeWhile_append_stop {α : Type} {holds : α → Bool} {stop : α} (ends : holds stop = false)
    (front more : List α) :
    (front ++ stop :: more).takeWhile holds = front.takeWhile holds := by
  induction front with
  | nil => simp [ends]
  | cons first rest ih => simp only [List.cons_append, List.takeWhile_cons, ih]

theorem wordLength_append {stop : Char} (ends : Separates stop) (text more : List Char) :
    wordLength (text ++ stop :: more) = wordLength text := by
  cases text with
  | nil => simp [wordLength, ends.noWord.1]
  | cons character rest =>
      simp only [List.cons_append, wordLength, takeWhile_append_stop ends.noWord.2]

theorem wordLength_le (text : List Char) : wordLength text ≤ text.length := by
  cases text with
  | nil => exact Nat.le_refl 0
  | cons character rest =>
      have within := (rest.takeWhile_sublist isWordPart).length_le
      simp only [wordLength, List.length_cons]
      split <;> omega

/-! ### Lexemes one after another -/

/-- A bound on the number of lexemes does not matter, if it is no less than the text. -/
theorem lexemesFrom_bounds (first second text : List Char) (enough : text.length ≤ first.length)
    (also : text.length ≤ second.length) : lexemesFrom first text = lexemesFrom second text := by
  induction first generalizing second text with
  | nil =>
      cases text with
      | nil => simp [lexemesFrom]
      | cons character rest => cases enough
  | cons bounding first ih =>
      cases text with
      | nil => simp [lexemesFrom]
      | cons character rest =>
          cases second with
          | nil => cases also
          | cons otherBounding second =>
              have positive := List.length_pos_iff.mpr (frontLexemes_cut character rest).2
              rw [joinLexemes_length] at positive
              simp only [List.length_cons] at enough also
              rw [lexemesFrom, lexemesFrom]
              refine congrArg _ (ih second _ ?_ ?_)
              all_goals
                simp only [List.length_drop, List.length_cons]
                omega

/-- The lexemes of a source are those at its front and those of what comes after them. -/
theorem lexemes_front {character : Char} {rest tail : List Char} {front : List Lexeme}
    (same : frontLexemes character rest = front)
    (covers : character :: rest = joinLexemes front ++ tail) :
    lexemes (character :: rest) = front ++ lexemes tail := by
  have positive := List.length_pos_iff.mpr (frontLexemes_cut character rest).2
  have dropped : (character :: rest).drop (lexemesLength front) = tail := by
    rw [covers, ← joinLexemes_length, List.drop_left]
  have shorter : tail.length ≤ rest.length := by
    have lengths := congrArg List.length covers
    rw [same] at positive
    rw [List.length_cons, List.length_append] at lengths
    omega
  rw [lexemes, lexemesFrom, same, dropped, lexemes]
  exact congrArg _ (lexemesFrom_bounds _ _ tail shorter (Nat.le_refl _))

end JaiSyntax

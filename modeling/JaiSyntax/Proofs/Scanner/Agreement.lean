import JaiSyntax.Proofs.Lexer.Concatenation
import JaiSyntax.Proofs.Scanner.Buffer
/-!
The scanners of a buffer against the scanners of a text. From a position of the buffer that faces a text,
both give the same answer, and the bytes that the one moves over are the bytes of the characters that the
other covers.
-/

set_option autoImplicit false

namespace JaiSyntax.Buffer

open SourceUnit

variable {source : List UInt8} {position covered : Nat} {text rest : List Char} {character : Char}
  {onCharacter : Char → Bool} {onByte : UInt8 → Bool} {answer : Type}

/-! ### Scanners on characters and on bytes -/

/-- A scanner of a buffer gives the answer of a scanner of the text at its position, and gets as many
bytes further as the characters take that the scanner of the text covers. -/
def Agrees (position covered : Nat) (text : List Char) (scanned : answer × Nat)
    (run : Option (answer × Nat)) : Prop :=
  ∃ count ≤ text.length, scanned.2 = covered + count ∧
    run = some (scanned.1, position + utf8Length (text.take count))

theorem agrees_here (position covered : Nat) (text : List Char) (given : answer) :
    Agrees position covered text (given, covered) (some (given, position)) :=
  ⟨0, Nat.zero_le _, rfl, by simp⟩

theorem Agrees.further {scanned : answer × Nat} {run : Option (answer × Nat)}
    (agrees : Agrees (position + character.utf8Size) (covered + 1) rest scanned run) :
    Agrees position covered (character :: rest) scanned run := by
  obtain ⟨count, inside, same, runs⟩ := agrees
  refine ⟨count + 1, Nat.succ_le_succ inside, by omega, ?_⟩
  rw [runs, List.take_succ_cons, utf8Length_cons, Nat.add_assoc]

/-- An ASCII character moves both scanners by one. -/
theorem Agrees.ascii {scanned : answer × Nat} {run : Option (answer × Nat)}
    (small : character.toNat < 128)
    (agrees : Agrees (position + 1) (covered + 1) rest scanned run) :
    Agrees position covered (character :: rest) scanned run := by
  refine Agrees.further ?_
  rw [utf8Size_of_ascii small]
  exact agrees

theorem ascii_of_is (expected : Char) (small : expected.toNat < 128)
    (same : is expected character = true) : character.toNat < 128 := by
  have equal : character.toNat = expected.toNat := by simpa [is, code] using same
  omega

theorem nextIs_cons (expected : Char) (unit : Char) (rest : List Char) :
    nextIs expected (unit :: rest) = is expected unit := rfl

/-- A character is at most one of two. -/
theorem is_of_is {expected other : Char} (apart : expected.toNat ≠ other.toNat)
    (same : is expected character = true) : is other character = false := by
  have equal : character.toNat = expected.toNat := by simpa [is, code] using same
  change (character.toNat == other.toNat) = false
  rw [beq_eq_false_iff_ne]
  omega

/-! ### Comments -/

theorem uniform_delimiter (left right : Char) (leftSmall : left.toNat < 128)
    (rightSmall : right.toNat < 128) :
    Uniform (fun character => is left character || is right character)
      (fun byte => is left byte || is right byte) :=
  (uniform_is _ leftSmall).or (uniform_is _ rightSmall)

theorem blockCommentFrom_end (faces : Faces source position []) (depth : Nat) :
    blockCommentFrom source depth position = some (.unterminated depth, position) := by
  have whole := faces.length
  rw [utf8Length_nil, Nat.add_zero] at whole
  rw [blockCommentFrom_eq, seek_end faces]
  simp [is, code, whole]

theorem blockCommentFrom_next (faces : Faces source position (character :: rest)) (depth : Nat) :
    blockCommentFrom source depth position =
      if is '/' character && nextIs '*' rest then blockCommentFrom source (depth + 1) (position + 2)
      else if is '*' character && nextIs '/' rest then
        if depth ≤ 1 then some (.terminated, position + 2)
        else blockCommentFrom source (depth - 1) (position + 2)
      else blockCommentFrom source depth (position + character.utf8Size) := by
  have uniform := uniform_delimiter '*' '/' (by decide) (by decide)
  by_cases found : (is '*' character || is '/' character) = true
  · have small : character.toNat < 128 := by
      rcases Bool.or_eq_true_iff.mp found with star | slash
      · exact ascii_of_is _ (by decide) star
      · exact ascii_of_is _ (by decide) slash
    have after := faces.next
    rw [utf8Size_of_ascii small] at after
    rw [blockCommentFrom_eq, seek_here faces uniform found]
    simp only [Option.bind_some, after.byteAt,
      onByte_firstByte (uniform_is '/' (by decide)),
      onByte_firstByte (uniform_is '*' (by decide)),
      is_firstByte '*' (by decide) (by decide),
      is_firstByte '/' (by decide) (by decide), utf8Size_of_ascii small]
    rw [if_pos (by rw [Bool.or_comm]; exact found)]
  · have plain := Bool.eq_false_iff.mpr found
    obtain ⟨notStar, notSlash⟩ := Bool.or_eq_false_iff.mp plain
    rw [blockCommentFrom_eq, seek_next faces uniform plain, ← blockCommentFrom_eq]
    simp [notStar, notSlash]

/-- Two ASCII characters move both scanners by two. -/
theorem Agrees.asciiPair {first second : Char} {scanned : answer × Nat}
    (run : Nat → Option (answer × Nat)) (faces : Faces source position (first :: second :: rest))
    (firstSmall : first.toNat < 128) (secondSmall : second.toNat < 128)
    (agrees : ∀ {position : Nat}, Faces source position rest →
      Agrees position (covered + 2) rest scanned (run position)) :
    Agrees position covered (first :: second :: rest) scanned (run (position + 2)) := by
  have after := faces.next.next
  rw [utf8Size_of_ascii firstSmall, utf8Size_of_ascii secondSmall, Nat.add_assoc] at after
  exact .ascii firstSmall (.ascii secondSmall (agrees after))

theorem blockCommentFrom_agrees (faces : Faces source position text) (depth covered : Nat) :
    Agrees position covered text (JaiSyntax.blockCommentFrom depth covered text)
      (blockCommentFrom source depth position) := by
  fun_induction JaiSyntax.blockCommentFrom depth covered text generalizing position with
  | case1 depth covered =>
      rw [blockCommentFrom_end faces]
      exact agrees_here _ _ _ _
  | case2 depth covered character =>
      rw [blockCommentFrom_next faces]
      simp only [nextIs, Bool.and_false, Bool.false_eq_true, if_false]
      rw [blockCommentFrom_end faces.next]
      exact .further (agrees_here _ _ _ _)
  | case3 depth covered first second rest opens ih =>
      obtain ⟨slash, star⟩ := Bool.and_eq_true_iff.mp opens
      rw [blockCommentFrom_next faces, nextIs_cons, nextIs_cons, if_pos opens]
      exact .asciiPair _ faces (ascii_of_is _ (by decide) slash) (ascii_of_is _ (by decide) star) ih
  | case4 depth covered first second rest inner closes last =>
      obtain ⟨star, slash⟩ := Bool.and_eq_true_iff.mp closes
      rw [blockCommentFrom_next faces, nextIs_cons, nextIs_cons, if_neg inner, if_pos closes,
        if_pos last]
      refine .asciiPair (fun position => some (CommentEnd.terminated, position)) faces
        (ascii_of_is _ (by decide) star) (ascii_of_is _ (by decide) slash) ?_
      intro position _
      exact agrees_here _ _ _ _
  | case5 depth covered first second rest inner closes outer ih =>
      obtain ⟨star, slash⟩ := Bool.and_eq_true_iff.mp closes
      rw [blockCommentFrom_next faces, nextIs_cons, nextIs_cons, if_neg inner, if_pos closes,
        if_neg outer]
      exact .asciiPair _ faces (ascii_of_is _ (by decide) star) (ascii_of_is _ (by decide) slash) ih
  | case6 depth covered first second rest inner plain ih =>
      rw [blockCommentFrom_next faces, nextIs_cons, nextIs_cons, if_neg inner, if_neg plain]
      exact .further (ih faces.next)

/-- The comment that opens at a position. -/
theorem blockComment_agrees {rest : List Char} (faces : Faces source position ('/' :: '*' :: rest)) :
    Agrees position 0 ('/' :: '*' :: rest) (JaiSyntax.blockComment ('/' :: '*' :: rest))
      (blockComment source position) := by
  refine .asciiPair (blockCommentFrom source 1) faces (by decide) (by decide) ?_
  intro position after
  exact blockCommentFrom_agrees after 1 2

/-! ### Line comments -/

theorem asciiTest_is {expected : Char} (small : expected.toNat < 128) (some : 0 < expected.toNat) :
    AsciiTest (is expected) (is expected) where
  uniform := uniform_is _ small
  ascii _ := ascii_of_is _ small
  zero := by
    change ((0 : Nat) == expected.toNat) = false
    rw [beq_eq_false_iff_ne]
    omega

theorem asciiTest_backslash : AsciiTest (is '\\') (is '\\') :=
  asciiTest_is (by decide) (by decide)

theorem advanceEscaped_end (faces : Faces source position []) :
    advanceEscaped source position = some position := by
  have whole := faces.length
  rw [utf8Length_nil, Nat.add_zero] at whole
  have stays := advanceLineBreak_run faces
  rw [whole] at stays
  rw [advanceEscaped, advanceWhile_run faces asciiTest_backslash]
  simp [runLength, stays, lineBreakLength, whole]

theorem advanceEscaped_backslash (faces : Faces source position (character :: rest))
    (backslash : is '\\' character = true) :
    advanceEscaped source position = advanceEscaped source (position + 1) := by
  have after := faces.next
  rw [utf8Size_of_ascii (ascii_of_is _ (by decide) backslash)] at after
  have same : position + (runLength (is '\\') rest + 1) =
      position + 1 + runLength (is '\\') rest := by omega
  rw [advanceEscaped, advanceEscaped, advanceWhile_run faces asciiTest_backslash,
    advanceWhile_run after asciiTest_backslash]
  simp only [runLength, List.takeWhile_cons, backslash, if_true, List.length_cons] at same ⊢
  rw [same]

theorem advanceEscaped_next (faces : Faces source position (character :: rest))
    (plain : is '\\' character = false) :
    advanceEscaped source position =
      some (if is '\r' character && nextIs '\n' rest then position + 2
        else position + character.utf8Size) := by
  have inside := faces.next.within
  have some := character.utf8Size_pos
  have before : ¬ source.length ≤ position := by omega
  have run : runLength (is '\\') (character :: rest) = 0 := by simp [runLength, plain]
  rw [advanceEscaped, advanceWhile_run faces asciiTest_backslash, run]
  simp only [Option.bind_eq_bind, Option.bind_some, Nat.add_zero, advanceLineBreak_run faces,
    lineBreakLength]
  by_cases feed : is '\n' character = true
  · have size := utf8Size_of_ascii (ascii_of_is '\n' (by decide) feed)
    have notReturn : is '\r' character = false := is_of_is (by decide) feed
    simp [feed, notReturn, size]
  · by_cases carriage : (is '\r' character && nextIs '\n' rest) = true
    · simp [feed, carriage]
    · simp [feed, carriage, before, advanceCharacter_next faces]

theorem lineCommentFrom_end (faces : Faces source position []) :
    lineCommentFrom source position = some ((), position) := by
  rw [lineCommentFrom_eq, seek_end faces]
  simp [is, code]

theorem lineCommentFrom_next (faces : Faces source position (character :: rest)) :
    lineCommentFrom source position =
      if is '\\' character then (advanceEscaped source (position + 1)).bind (lineCommentFrom source)
      else if is '\n' character then some ((), position)
      else lineCommentFrom source (position + character.utf8Size) := by
  have uniform := uniform_delimiter '\\' '\n' (by decide) (by decide)
  by_cases found : (is '\\' character || is '\n' character) = true
  · rw [lineCommentFrom_eq, seek_here faces uniform found]
    simp only [Option.bind_some,
      onByte_firstByte (uniform_is '\\' (by decide))]
    by_cases backslash : is '\\' character = true
    · rw [if_pos backslash, if_pos backslash, advanceEscaped_backslash faces backslash]
    · rw [if_neg backslash, if_neg backslash, if_pos]
      exact (Bool.or_eq_true_iff.mp found).resolve_left backslash
  · have plain := Bool.eq_false_iff.mpr found
    obtain ⟨notBackslash, notFeed⟩ := Bool.or_eq_false_iff.mp plain
    rw [lineCommentFrom_eq, seek_next faces uniform plain, ← lineCommentFrom_eq]
    simp [notBackslash, notFeed]

theorem lineCommentFrom_agrees (faces : Faces source position text) (escaped : Bool)
    (covered : Nat) :
    Agrees position covered text ((), JaiSyntax.lineCommentFrom escaped covered text)
      (if escaped then (advanceEscaped source position).bind (lineCommentFrom source)
        else lineCommentFrom source position) := by
  fun_induction JaiSyntax.lineCommentFrom escaped covered text generalizing position with
  | case1 escaped covered =>
      rw [advanceEscaped_end faces, Option.bind_some, lineCommentFrom_end faces, ite_self]
      exact agrees_here _ _ _ _
  | case2 escaped covered character rest backslash ih =>
      have small := ascii_of_is '\\' (by decide) backslash
      have after := faces.next
      rw [utf8Size_of_ascii small] at after
      have moves : (if escaped then (advanceEscaped source position).bind (lineCommentFrom source)
          else lineCommentFrom source position) =
          (advanceEscaped source (position + 1)).bind (lineCommentFrom source) := by
        rw [advanceEscaped_backslash faces backslash, lineCommentFrom_next faces, if_pos backslash,
          ite_self]
      rw [moves]
      exact .ascii small (ih after)
  | case3 covered character plain =>
      rw [if_pos rfl, advanceEscaped_next faces (Bool.eq_false_iff.mpr plain), Option.bind_some]
      simp only [nextIs, Bool.and_false, Bool.false_eq_true, if_false]
      rw [lineCommentFrom_end faces.next]
      exact .further (agrees_here _ _ _ _)
  | case4 covered character plain second after breaks ih =>
      obtain ⟨carriage, feed⟩ := Bool.and_eq_true_iff.mp breaks
      rw [if_pos rfl, advanceEscaped_next faces (Bool.eq_false_iff.mpr plain), nextIs_cons,
        if_pos breaks, Option.bind_some]
      exact .asciiPair _ faces (ascii_of_is _ (by decide) carriage) (ascii_of_is _ (by decide) feed) ih
  | case5 covered character plain second after whole ih =>
      rw [if_pos rfl, advanceEscaped_next faces (Bool.eq_false_iff.mpr plain), nextIs_cons,
        if_neg whole, Option.bind_some]
      exact .further (ih faces.next)
  | case6 escaped covered character after plain fresh feed =>
      rw [if_neg fresh, lineCommentFrom_next faces, if_neg plain, if_pos feed]
      exact agrees_here _ _ _ _
  | case7 escaped covered character after plain fresh inside ih =>
      rw [if_neg fresh, lineCommentFrom_next faces, if_neg plain, if_neg inside]
      exact .further (ih faces.next)

/-- The comment that opens at a position. -/
theorem lineComment_agrees (faces : Faces source position ('/' :: '/' :: rest)) :
    Agrees position 0 ('/' :: '/' :: rest) ((), JaiSyntax.lineComment ('/' :: '/' :: rest))
      (lineComment source position) := by
  refine .asciiPair (lineCommentFrom source) faces (by decide) (by decide) ?_
  intro position after
  exact lineCommentFrom_agrees after false 2

/-! ### Strings -/

/-- The first characters of a run of ASCII characters take a byte each. -/
theorem utf8Length_take_run (test : AsciiTest onCharacter onByte) (text : List Char) {count : Nat}
    (inside : count ≤ runLength onCharacter text) : utf8Length (text.take count) = count := by
  induction text generalizing count with
  | nil =>
      have none : count = 0 := Nat.le_zero.mp inside
      rw [none]
      rfl
  | cons character rest ih =>
      cases count with
      | zero => rfl
      | succ count =>
          cases passes : onCharacter character with
          | false => simp [runLength, passes] at inside
          | true =>
              have fewer : count ≤ runLength onCharacter rest := by
                simpa [runLength, passes] using inside
              rw [List.take_succ_cons, utf8Length_cons, ih fewer,
                utf8Size_of_ascii (test.ascii character passes), Nat.add_comm]

/-- A scanner that moves over a run of ASCII characters. -/
theorem agrees_run (test : AsciiTest onCharacter onByte) (text : List Char) {count : Nat}
    (inside : count ≤ runLength onCharacter text) (given : answer) :
    Agrees position covered text (given, covered + count) (some (given, position + count)) := by
  refine ⟨count, Nat.le_trans inside (runLength_le _ _), rfl, ?_⟩
  rw [utf8Length_take_run test text inside]

theorem runLength_take_le (test : Char → Bool) (limit : Nat) (text : List Char) :
    runLength test (text.take limit) ≤ runLength test text := by
  induction text generalizing limit with
  | nil => rw [List.take_nil]
  | cons character rest ih =>
      cases limit with
      | zero => exact Nat.zero_le _
      | succ limit =>
          rw [List.take_succ_cons]
          cases passes : test character with
          | false => simp [runLength, passes]
          | true => simpa [runLength, passes] using ih limit

theorem asciiTest_isHexDigit : AsciiTest isHexDigit isHexDigit where
  uniform := uniform_isHexDigit
  ascii character digit := by
    simp [isHexDigit, isDigit, code] at digit
    omega
  zero := by decide

theorem asciiTest_isOctalDigit : AsciiTest isOctalDigit isOctalDigit where
  uniform := uniform_isOctalDigit
  ascii character digit := by
    simp [isOctalDigit, code] at digit
    omega
  zero := by decide

theorem asciiTest_isBlank : AsciiTest isBlank isBlank where
  uniform := uniform_isBlank
  ascii character blank := by
    rcases Bool.or_eq_true_iff.mp blank with space | tab
    · exact ascii_of_is _ (by decide) space
    · exact ascii_of_is _ (by decide) tab
  zero := by decide

theorem fixedHexEscape_agrees (faces : Faces source position text) (form : EscapeForm)
    (digits : Nat) :
    Agrees position 1 text (JaiSyntax.fixedHexEscape form digits text)
      (fixedHexEscape source form digits position) := by
  have fewer := runLength_take_le isHexDigit digits text
  rw [fixedHexEscape, advanceUpTo_run faces asciiTest_isHexDigit]
  simp only [Option.bind_eq_bind, Option.bind_some, Nat.add_sub_cancel_left]
  rw [JaiSyntax.fixedHexEscape, hexRunLength, Nat.add_comm _ 1]
  exact agrees_run asciiTest_isHexDigit text fewer _

/-- A scanner that moves over a run of ASCII characters and the one after it. -/
theorem agrees_run_next (test : AsciiTest onCharacter onByte) {text : List Char} {expected : Char}
    (small : expected.toNat < 128)
    (next : nextIs expected (text.drop (runLength onCharacter text)) = true) (given : answer) :
    Agrees position covered text (given, covered + (runLength onCharacter text + 1))
      (some (given, position + (runLength onCharacter text + 1))) := by
  cases after : text.drop (runLength onCharacter text) with
  | nil =>
      rw [after] at next
      cases next
  | cons character more =>
      rw [after] at next
      have length := congrArg List.length after
      rw [List.length_drop, List.length_cons] at length
      have bytes : utf8Length (text.take (runLength onCharacter text + 1)) =
          runLength onCharacter text + 1 := by
        rw [List.take_add, utf8Length_append, after, utf8Length_take_run test text (Nat.le_refl _),
          List.take_succ_cons, List.take_zero, utf8Length_cons,
          utf8Size_of_ascii (ascii_of_is _ small next), utf8Length_nil]
      refine ⟨runLength onCharacter text + 1, by omega, rfl, ?_⟩
      rw [bytes]

theorem bracedEscape_agrees (faces : Faces source position rest) (brace : Char) :
    Agrees position 2 rest (JaiSyntax.bracedEscape (brace :: rest))
      (bracedEscape source position) := by
  have stops := faces.drop (runLength isHexDigit rest)
  rw [utf8Length_take_run asciiTest_isHexDigit rest (Nat.le_refl _)] at stops
  have invalid : Agrees position 2 rest (EscapeForm.invalid, 2 + runLength isHexDigit rest)
      (some (.invalid, position + runLength isHexDigit rest)) :=
    agrees_run asciiTest_isHexDigit rest (Nat.le_refl _) _
  rw [Nat.add_comm 2] at invalid
  rw [bracedEscape, advanceWhile_run faces asciiTest_isHexDigit, JaiSyntax.bracedEscape]
  simp only [Option.bind_eq_bind, Option.bind_some, stops.byteAt, List.drop_succ_cons, List.drop_zero,
    is_firstByte '\x7d' (by decide) (by decide)]
  by_cases digits : 0 < runLength isHexDigit rest
  · rw [if_pos (show position < position + runLength isHexDigit rest by omega)]
    by_cases closes : nextIs '\x7d' (rest.drop (runLength isHexDigit rest)) = true
    · have valid : Agrees position 2 rest
          (EscapeForm.unicodeBraced, 2 + (runLength isHexDigit rest + 1))
          (some (.unicodeBraced, position + (runLength isHexDigit rest + 1))) :=
        agrees_run_next asciiTest_isHexDigit (by decide) closes _
      rw [if_pos closes, if_pos (by simp [digits, closes])]
      rw [show 2 + (runLength isHexDigit rest + 1) = runLength isHexDigit rest + 3 by omega] at valid
      exact valid
    · rw [if_neg closes, if_neg (by simp [closes])]
      exact invalid
  · rw [if_neg (show ¬ position < position + runLength isHexDigit rest by omega),
      if_neg (by simp [digits])]
    exact invalid

theorem lineBreakLength_cases (character : Char) (rest : List Char) :
    lineBreakLength (character :: rest) = 0 ∨
      is '\n' character = true ∧ lineBreakLength (character :: rest) = 1 ∨
      is '\r' character = true ∧ nextIs '\n' rest = true ∧
        lineBreakLength (character :: rest) = 2 := by
  rw [lineBreakLength]
  grind

/-- The escape of a single character or of a line break. -/
theorem single_agrees (faces : Faces source position (character :: rest)) :
    Agrees position 0 (character :: rest)
      (EscapeForm.single,
        max (lineBreakLength (character :: rest)) (characterLength (character :: rest)))
      (if decide (0 < lineBreakLength (character :: rest)) then
          some (EscapeForm.single, position + lineBreakLength (character :: rest))
        else (advanceCharacter source position).bind (fun next => some (.single, next))) := by
  have one : characterLength (character :: rest) = 1 := by
    rw [characterLength]
    rfl
  rw [one]
  rcases lineBreakLength_cases character rest with none | ⟨feed, none⟩ | ⟨carriage, feed, two⟩
  · rw [none, if_neg (by decide), advanceCharacter_next faces]
    exact .further (agrees_here _ _ _ _)
  · rw [none, if_pos (by decide)]
    exact .ascii (ascii_of_is '\n' (by decide) feed) (agrees_here _ _ _ _)
  · rw [two, if_pos (by decide)]
    cases rest with
    | nil => cases feed
    | cons second more =>
        exact .ascii (ascii_of_is '\r' (by decide) carriage)
          (.ascii (ascii_of_is '\n' (by decide) feed) (agrees_here _ _ _ _))

theorem escapeAfterBackslash_agrees (faces : Faces source position text) :
    Agrees position 0 text (JaiSyntax.escapeAfterBackslash text)
      (escapeAfterBackslash source position) := by
  cases text with
  | nil =>
      have whole := faces.length
      rw [utf8Length_nil, Nat.add_zero] at whole
      have runs : escapeAfterBackslash source position = some (.invalid, position) := by
        rw [escapeAfterBackslash, faces.byteAt]
        simp [firstByte, is, code, isOctalDigit, whole]
      rw [runs]
      exact agrees_here _ _ _ _
  | cons character rest =>
      have after := faces.next
      rw [escapeAfterBackslash, faces.byteAt]
      simp only [Option.bind_eq_bind, Option.bind_some,
        onByte_firstByte (uniform_is 'x' (by decide)),
        onByte_firstByte (uniform_is 'u' (by decide)),
        onByte_firstByte (uniform_is 'U' (by decide)),
        onByte_firstByte uniform_isOctalDigit]
      rw [JaiSyntax.escapeAfterBackslash]
      by_cases hex : is 'x' character = true
      · have small := ascii_of_is 'x' (by decide) hex
        rw [utf8Size_of_ascii small] at after
        rw [if_pos hex, if_pos hex]
        exact .ascii small (fixedHexEscape_agrees after .hex 2)
      rw [if_neg hex, if_neg hex]
      by_cases unicode : is 'u' character = true
      · have small := ascii_of_is 'u' (by decide) unicode
        rw [utf8Size_of_ascii small] at after
        rw [if_pos unicode, if_pos unicode, after.byteAt]
        simp only [Option.bind_some, is_firstByte '\x7b' (by decide) (by decide)]
        by_cases brace : nextIs '\x7b' rest = true
        · rw [if_pos brace, if_pos brace]
          cases rest with
          | nil => cases brace
          | cons opening more =>
              have opens := ascii_of_is '\x7b' (by decide) brace
              have inside := after.next
              rw [utf8Size_of_ascii opens] at inside
              exact .ascii small (.ascii opens (bracedEscape_agrees inside opening))
        · rw [if_neg brace, if_neg brace]
          exact .ascii small (fixedHexEscape_agrees after .unicode4 4)
      rw [if_neg unicode, if_neg unicode]
      by_cases wide : is 'U' character = true
      · have small := ascii_of_is 'U' (by decide) wide
        rw [utf8Size_of_ascii small] at after
        rw [if_pos wide, if_pos wide, advanceUpTo_run after asciiTest_isHexDigit]
        simp only [Option.bind_some, Nat.add_sub_cancel_left, ← hexRunLength.eq_1]
        by_cases eight : (hexRunLength 8 rest == 8) = true
        · have fewer := runLength_take_le isHexDigit 8 rest
          rw [← hexRunLength, eq_of_beq eight] at fewer
          rw [if_pos eight, if_pos eight, eq_of_beq eight]
          exact .ascii small (agrees_run asciiTest_isHexDigit rest fewer _)
        · rw [if_neg eight, if_neg eight]
          exact .ascii small (agrees_here _ _ _ _)
      rw [if_neg wide, if_neg wide]
      by_cases octal : isOctalDigit character = true
      · have fewer := runLength_take_le isOctalDigit 3 (character :: rest)
        rw [if_pos octal, if_pos octal, advanceUpTo_run faces asciiTest_isOctalDigit]
        have run : Agrees position 0 (character :: rest) (EscapeForm.octal, 0 + _) _ :=
          agrees_run asciiTest_isOctalDigit _ fewer _
        rw [Nat.zero_add] at run
        exact run
      rw [if_neg octal, if_neg octal]
      have inside := faces.next.within
      have some := character.utf8Size_pos
      rw [if_neg (show ¬ source.length ≤ position by omega), advanceLineBreak_run faces]
      simp only [Option.bind_some]
      exact single_agrees faces

theorem uniform_stringDelimiter :
    Uniform (fun character => is '"' character || is '\\' character || is '\n' character)
      (fun byte => is '"' byte || is '\\' byte || is '\n' byte) :=
  (uniform_delimiter _ _ (by decide) (by decide)).or (uniform_is _ (by decide))

/-- The piece at a position. -/
theorem stringPiece_agrees (faces : Faces source position text) :
    Agrees position 0 text (JaiSyntax.stringPiece text) (stringPiece source position) := by
  cases text with
  | nil =>
      have whole := faces.length
      rw [utf8Length_nil, Nat.add_zero] at whole
      have runs : stringPiece source position = some (.endOfInput, position) := by
        rw [stringPiece, faces.byteAt]
        simp [firstByte, is, code, whole]
      rw [runs]
      exact agrees_here _ _ _ _
  | cons character rest =>
      have inside := faces.next.within
      have some := character.utf8Size_pos
      rw [stringPiece, faces.byteAt]
      simp only [Option.bind_eq_bind, Option.bind_some,
        onByte_firstByte (uniform_is '"' (by decide)),
        onByte_firstByte (uniform_is '\\' (by decide)),
        onByte_firstByte (uniform_is '\n' (by decide)),
        if_neg (show ¬ source.length ≤ position by omega)]
      rw [JaiSyntax.stringPiece]
      by_cases quote : is '"' character = true
      · rw [if_pos quote, if_pos quote]
        exact .ascii (ascii_of_is '"' (by decide) quote) (agrees_here _ _ _ _)
      rw [if_neg quote, if_neg quote]
      by_cases backslash : is '\\' character = true
      · have small := ascii_of_is '\\' (by decide) backslash
        have after := faces.next
        rw [utf8Size_of_ascii small] at after
        obtain ⟨count, fewer, same, runs⟩ := escapeAfterBackslash_agrees after
        rw [if_pos backslash, if_pos backslash, runs]
        refine .ascii small ⟨count, fewer, ?_, rfl⟩
        simp only [same]
        omega
      rw [if_neg backslash, if_neg backslash]
      by_cases feed : is '\n' character = true
      · rw [if_pos feed, if_pos feed]
        exact .ascii (ascii_of_is '\n' (by decide) feed) (agrees_here _ _ _ _)
      rw [if_neg feed, if_neg feed, seek_run faces uniform_stringDelimiter]
      exact ⟨_, runLength_le _ _, (Nat.zero_add _).symm, rfl⟩

/-! ### Heredocs -/

theorem advanceWord_run (faces : Faces source position text) :
    advanceWord source position =
      some (position + utf8Length (text.take (runLength (fun unit => !isSpace unit) text))) := by
  induction text generalizing position with
  | nil =>
      have whole := faces.length
      rw [utf8Length_nil, Nat.add_zero] at whole
      rw [advanceWord_eq, if_pos (by omega)]
      rfl
  | cons character rest ih =>
      have inside := faces.next.within
      have some := character.utf8Size_pos
      rw [advanceWord_eq, if_neg (by omega), faces.byteAt]
      simp only [Option.bind_some, onByte_firstByte uniform_isSpace]
      cases space : isSpace character with
      | true => simp [runLength, space]
      | false =>
          simp [runLength, space, advanceCharacter_next faces, ih faces.next, Nat.add_assoc]

/-- The delimiter after a position: its range, and where the search for it ends. -/
theorem heredocDelimiter_run (faces : Faces source position text) {blanks size : Nat}
    (found : JaiSyntax.heredocDelimiter text = (blanks, size)) :
    heredocDelimiter source position =
      some (if 0 < size then
          some (position + utf8Length (text.take blanks),
            position + utf8Length (text.take (blanks + size)))
        else none, position + utf8Length (text.take (blanks + size))) := by
  obtain ⟨rfl, rfl⟩ := Prod.mk.inj found
  have bytes := utf8Length_take_run asciiTest_isBlank text (Nat.le_refl _)
  have start := faces.drop (runLength isBlank text)
  have size := @heredocDelimiter_nonempty text _ _ rfl
  rw [bytes] at start
  rw [heredocDelimiter, advanceWhile_run faces asciiTest_isBlank, List.take_add, utf8Length_append,
    bytes, ← Nat.add_assoc]
  simp only [Option.bind_eq_bind, Option.bind_some, advanceWord_run start]
  by_cases empty : runLength (fun unit => !isSpace unit) (text.drop (runLength isBlank text)) = 0
  · rw [empty, List.take_zero, utf8Length_nil, Nat.add_zero, if_neg (Nat.lt_irrefl _),
      if_neg (Nat.lt_irrefl _)]
  · have positive := utf8Length_pos (size empty)
    rw [if_pos (Nat.lt_add_of_pos_right positive), if_pos (Nat.pos_of_ne_zero empty)]

theorem continuesWord_firstByte (text : List Char) :
    continuesWord (firstByte text) = text.head?.any continuesWord := by
  cases text with
  | nil => decide
  | cons character rest => exact onByte_firstByte uniform_continuesWord character rest

/-- The line that closes a heredoc is the same for characters and for bytes. -/
theorem closingStart_run (faces : Faces source position text) (delimiter : List Char) :
    closingStart? source (utf8Bytes delimiter) position =
      some ((closingIndent? delimiter text).map (position + ·)) := by
  have start := faces.drop (runLength isBlank text)
  rw [utf8Length_take_run asciiTest_isBlank text (Nat.le_refl _)] at start
  rw [closingStart?, advanceWhile_run faces asciiTest_isBlank, closingIndent?]
  simp only [Option.bind_eq_bind, Option.bind_some, restAt_eq start.within, start.bytes,
    utf8Bytes_length]
  by_cases front : delimiter <+: text.drop (runLength isBlank text)
  · rw [if_pos (List.isPrefixOf_iff_prefix.mpr ((utf8Bytes_isPrefix_iff _ _).mpr front)),
      if_pos (List.isPrefixOf_iff_prefix.mpr front)]
    obtain ⟨more, whole⟩ := front
    rw [← whole] at start ⊢
    rw [start.append.byteAt, List.drop_left, Option.bind_some, continuesWord_firstByte]
    cases more with
    | nil => rfl
    | cons next after => cases goesOn : continuesWord next <;> simp [goesOn]
  · have apart : ¬ utf8Bytes delimiter <+: utf8Bytes (text.drop (runLength isBlank text)) :=
      fun same => front ((utf8Bytes_isPrefix_iff _ _).mp same)
    rw [if_neg (fun same => apart (List.isPrefixOf_iff_prefix.mp same)),
      if_neg (fun same => front (List.isPrefixOf_iff_prefix.mp same))]
    rfl

theorem heredocBodyFrom_agrees (faces : Faces source position text) (delimiter : List Char)
    (covered : Nat) :
    Agrees position covered text (JaiSyntax.heredocBodyFrom delimiter covered text)
      (heredocBody source (utf8Bytes delimiter) position) := by
  induction text generalizing position covered with
  | nil =>
      rw [heredocBody_eq, seek_end faces]
      simp only [Option.bind_some, advanceLineBreak_run faces]
      exact agrees_here _ _ _ _
  | cons character rest ih =>
      by_cases feed : is '\n' character = true
      · have small := ascii_of_is '\n' (by decide) feed
        have after := faces.next
        rw [utf8Size_of_ascii small] at after
        have one : lineBreakLength (character :: rest) = 1 := by rw [lineBreakLength, if_pos feed]
        rw [heredocBody_eq, seek_here faces (uniform_is _ (by decide)) feed, heredocBodyFrom,
          if_pos feed]
        simp only [Option.bind_some, advanceLineBreak_run faces, one,
          closingStart_run after, Nat.one_pos, decide_true, if_true]
        cases closes : closingIndent? delimiter rest with
        | none => exact .ascii small (ih after (covered + 1))
        | some blanks =>
            have extent := closingIndent_blanks closes
            exact .ascii small (agrees_run asciiTest_isBlank rest (Nat.le_of_eq extent) _)
      · rw [heredocBody_eq, seek_next faces (uniform_is _ (by decide)) (Bool.eq_false_iff.mpr feed),
          ← heredocBody_eq, heredocBodyFrom, if_neg feed]
        exact .further (ih faces.next (covered + 1))

end JaiSyntax.Buffer

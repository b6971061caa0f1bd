import JaiSyntax.Proofs.Lexer.Separation
import JaiSyntax.Proofs.Lexer.Tiling
import Mathlib.Data.List.Find
/-!
Sources one after another. A source whose last token is a delimiter has the same lexemes whatever follows
it: a word, a number or white space ends before the delimiter, and a comment, a string or a heredoc that
does not is no delimiter.
-/

set_option autoImplicit false

namespace JaiSyntax

open SourceUnit

variable {stop : Char} {text more : List Char}

/-- Among characters, only an ASCII character compares as that character. -/
theorem is_iff (character unit : Char) : is character unit = true ↔ unit = character :=
  beq_iff_eq.trans Char.toNat_inj

/-! ### Runs -/

/-- A run goes over all that satisfies its test, up to what does not. -/
theorem runLength_front {α : Type} {test : α → Bool} {front rest : List α}
    (all : ∀ unit ∈ front, test unit = true) (ends : ∀ unit ∈ rest.head?, test unit = false) :
    runLength test (front ++ rest) = front.length := by
  unfold runLength
  rw [List.takeWhile_append_of_pos all]
  cases rest with
  | nil => rw [List.takeWhile_nil, List.append_nil]
  | cons first more =>
      have other : test first = false := ends first rfl
      rw [List.takeWhile_cons_of_neg (by rw [other]; exact Bool.false_ne_true), List.append_nil]

/-- A run that ends inside a text ends there whatever follows. -/
theorem runLength_append_of_lt {test : Char → Bool} (inside : runLength test text < text.length)
    (more : List Char) : runLength test (text ++ more) = runLength test text := by
  unfold runLength at inside ⊢
  rw [List.takeWhile_append, if_neg (Nat.ne_of_lt inside)]

/-- A run that the next character ends. -/
theorem runLength_append {test : Char → Bool} (ends : test stop = false) (text more : List Char) :
    runLength test (text ++ stop :: more) = runLength test text :=
  congrArg List.length (takeWhile_append_stop ends text more)

theorem runLength_le (test : Char → Bool) (text : List Char) : runLength test text ≤ text.length :=
  (text.takeWhile_sublist test).length_le

/-- A run ends before a character that fails its test. -/
theorem head_drop_runLength {test : Char → Bool} {after : List Char} {character : Char}
    (behind : text.drop (runLength test text) = character :: after) : test character = false := by
  induction text with
  | nil => cases behind
  | cons first rest ih =>
      by_cases plain : test first = true
      · have run : runLength test (first :: rest) = runLength test rest + 1 := by
          simp [runLength, plain]
        rw [run, List.drop_succ_cons] at behind
        exact ih behind
      · have run : runLength test (first :: rest) = 0 := by
          simp [runLength, plain]
        rw [run, List.drop_zero] at behind
        cases behind
        exact Bool.eq_false_iff.mpr plain

/-! ### White space and spellings -/

/-- A backslash that escapes no line break. -/
theorem whiteSpaceFrom_plain {character : Char} {rest : List Char} (covered : Nat)
    (noFeed : ∀ after, character = '\\' → rest = '\n' :: after → False)
    (noReturn : ∀ after, character = '\\' → rest = '\r' :: '\n' :: after → False) :
    whiteSpaceFrom covered (character :: rest) =
      if character == '\\' then (if covered == 0 then 0 else covered + 1)
      else if isWhiteSpace character then whiteSpaceFrom (covered + 1) rest
      else covered := by
  rw [whiteSpaceFrom.eq_def]
  split
  · next none => cases none
  · next same =>
      obtain ⟨rfl, rfl⟩ := List.cons.inj same
      exact (noFeed _ rfl rfl).elim
  · next same =>
      obtain ⟨rfl, rfl⟩ := List.cons.inj same
      exact (noReturn _ rfl rfl).elim
  · next same =>
      obtain ⟨rfl, rfl⟩ := List.cons.inj same
      rfl

theorem whiteSpaceFrom_append (ends : Delimits stop) (covered : Nat) (text more : List Char) :
    whiteSpaceFrom covered (text ++ stop :: more) = whiteSpaceFrom covered text := by
  have solid := ends.noWhiteSpace
  have notFeed : stop ≠ '\n' := by
    rintro rfl
    cases solid
  have notReturn : stop ≠ '\r' := by
    rintro rfl
    cases solid
  have noFeed {character : Char} {rest : List Char}
      (apart : ∀ after, character = '\\' → rest = '\n' :: after → False) :
      ∀ after, character = '\\' → rest ++ stop :: more = '\n' :: after → False := by
    intro after backslash same
    cases rest with
    | nil => exact notFeed (List.cons.inj same).1
    | cons next rest => exact apart rest backslash (by cases same; rfl)
  have noReturn {character : Char} {rest : List Char}
      (apart : ∀ after, character = '\\' → rest = '\r' :: '\n' :: after → False) :
      ∀ after, character = '\\' → rest ++ stop :: more = '\r' :: '\n' :: after → False := by
    intro after backslash same
    cases rest with
    | nil => exact notReturn (List.cons.inj same).1
    | cons next rest =>
        cases rest with
        | nil => exact notFeed (List.cons.inj (List.cons.inj same).2).1
        | cons second rest => exact apart rest backslash (by cases same; rfl)
  fun_induction whiteSpaceFrom covered text with
  | case1 covered =>
      rw [List.nil_append, whiteSpaceFrom_plain covered
        (fun _ same => (ends.noBackslash same).elim) (fun _ same => (ends.noBackslash same).elim)]
      simp [solid, ends.noBackslash]
  | case2 covered rest ih => simpa [whiteSpaceFrom] using ih
  | case3 covered rest ih => simpa [whiteSpaceFrom] using ih
  | case4 covered character rest feed carriage backslash none =>
      rw [List.cons_append, whiteSpaceFrom_plain covered (noFeed feed) (noReturn carriage),
        if_pos backslash, if_pos none]
  | case5 covered character rest feed carriage backslash some =>
      rw [List.cons_append, whiteSpaceFrom_plain covered (noFeed feed) (noReturn carriage),
        if_pos backslash, if_neg some]
  | case6 covered character rest feed carriage backslash white ih =>
      rw [List.cons_append, whiteSpaceFrom_plain covered (noFeed feed) (noReturn carriage),
        if_neg backslash, if_pos white, ih]
  | case7 covered character rest feed carriage backslash black =>
      rw [List.cons_append, whiteSpaceFrom_plain covered (noFeed feed) (noReturn carriage),
        if_neg backslash, if_neg black]

theorem whiteSpaceFrom_le (covered : Nat) (text : List Char) :
    whiteSpaceFrom covered text ≤ covered + text.length := by
  fun_induction whiteSpaceFrom covered text <;> simp_all <;> omega

theorem isPrefixOf_append {spelling : List Char} (absent : stop ∉ spelling) (text more : List Char) :
    spelling.isPrefixOf (text ++ stop :: more) = spelling.isPrefixOf text := by
  induction spelling generalizing text with
  | nil => simp
  | cons character rest ih =>
      obtain ⟨other, further⟩ := not_or.mp (fun found => absent (List.mem_cons.mpr found))
      cases text with
      | nil => simp [List.isPrefixOf, Ne.symm other]
      | cons first text =>
          simp only [List.cons_append, List.isPrefixOf]
          rw [ih further]

theorem fixedSpelling?_append (ends : Delimits stop) (character : Char) (text more : List Char) :
    fixedSpelling? (character :: text ++ stop :: more) = fixedSpelling? (character :: text) := by
  apply List.find?_congr
  intro entry member
  rcases ends.spelled entry member with absent | own
  · exact isPrefixOf_append absent (character :: text) more
  · simp only [own, List.cons_append, List.isPrefixOf]

/-! ### Comments -/

/-- A line comment that ends inside a text ends there whatever follows. -/
theorem lineCommentFrom_append (escaped : Bool) (covered : Nat) (text more : List Char)
    (inside : lineCommentFrom escaped covered text < covered + text.length) :
    lineCommentFrom escaped covered (text ++ more) = lineCommentFrom escaped covered text := by
  fun_induction lineCommentFrom escaped covered text with
  | case1 escaped covered => simp at inside
  | case2 escaped covered character rest backslash ih =>
      rw [List.length_cons] at inside
      rw [List.cons_append, lineCommentFrom.eq_def]
      simpa [backslash] using ih (by omega)
  | case3 covered character plain => simp at inside
  | case4 covered character plain next rest carriage ih =>
      simp only [List.length_cons] at inside
      simpa [lineCommentFrom, plain, carriage] using ih (by omega)
  | case5 covered character plain next rest alone ih =>
      simp only [List.length_cons] at inside ih
      simpa [lineCommentFrom, plain, alone] using ih (by omega)
  | case6 escaped covered character rest plain free feed =>
      rw [List.cons_append, lineCommentFrom.eq_def]
      simp [plain, free, feed]
  | case7 escaped covered character rest plain free further ih =>
      rw [List.length_cons] at inside
      rw [List.cons_append, lineCommentFrom.eq_def]
      simpa [plain, free, further] using ih (by omega)

/-- A block comment that is closed inside a text is closed there whatever follows. -/
theorem blockCommentFrom_append {depth covered length : Nat} {text : List Char}
    (closed : blockCommentFrom depth covered text = (.terminated, length)) (more : List Char) :
    blockCommentFrom depth covered (text ++ more) = (.terminated, length) := by
  fun_induction blockCommentFrom depth covered text with
  | case1 depth covered => cases closed
  | case2 depth covered character => cases closed
  | case3 depth covered first second rest opens ih =>
      simpa [blockCommentFrom, opens] using ih closed
  | case4 depth covered first second rest inner closes last =>
      simpa [blockCommentFrom, inner, closes, last] using closed
  | case5 depth covered first second rest inner closes outer ih =>
      simpa [blockCommentFrom, inner, closes, outer] using ih closed
  | case6 depth covered first second rest inner plain ih =>
      simpa [blockCommentFrom, inner, plain] using ih closed

/-- A block comment that is never closed takes the whole text. -/
theorem blockCommentFrom_unclosed {depth covered length left : Nat} {text : List Char}
    (unclosed : blockCommentFrom depth covered text = (.unterminated left, length)) :
    length = covered + text.length := by
  fun_induction blockCommentFrom depth covered text with
  | case1 depth covered =>
      cases unclosed
      rfl
  | case2 depth covered character =>
      cases unclosed
      rfl
  | case3 depth covered first second rest opens ih =>
      simp only [List.length_cons]
      have := ih unclosed
      omega
  | case4 depth covered first second rest inner closes last => cases unclosed
  | case5 depth covered first second rest inner closes outer ih =>
      simp only [List.length_cons]
      have := ih unclosed
      omega
  | case6 depth covered first second rest inner plain ih =>
      have := ih unclosed
      simp only [List.length_cons] at this ⊢
      omega

/-! ### Strings -/

/-- A run that the next character ends, counted up to a limit. -/
theorem runLength_take_append {test : Char → Bool} (ends : test stop = false) (limit : Nat)
    (text more : List Char) :
    runLength test ((text ++ stop :: more).take limit) = runLength test (text.take limit) := by
  rw [List.take_append]
  cases limit - text.length with
  | zero => simp
  | succ left => exact runLength_append ends _ _

theorem hexRunLength_append (ends : Delimits stop) (limit : Nat) (text more : List Char) :
    hexRunLength limit (text ++ stop :: more) = hexRunLength limit text :=
  runLength_take_append ends.noHexDigit limit text more

theorem nextIs_append (character stop : Char) (text more : List Char) :
    nextIs character (text ++ stop :: more) = nextIs character (text ++ [stop]) := by
  cases text with
  | nil => rfl
  | cons first rest => rfl

theorem bracedEscape_append (ends : Delimits stop) (character : Char) (text more : List Char) :
    bracedEscape (character :: text ++ stop :: more) = bracedEscape (character :: text ++ [stop]) := by
  have read (after : List Char) : runLength isHexDigit (text ++ stop :: after) =
      runLength isHexDigit text := runLength_append ends.noHexDigit text after
  have rest (after : List Char) : (text ++ stop :: after).drop (runLength isHexDigit text) =
      text.drop (runLength isHexDigit text) ++ stop :: after :=
    List.drop_append_of_le_length (runLength_le _ text)
  have closes := nextIs_append '\x7d' stop (text.drop (runLength isHexDigit text)) more
  simp only [bracedEscape, List.cons_append, List.drop_succ_cons, List.drop_zero, read, rest, closes]

/-- A braced escape takes its opening brace at least. -/
theorem bracedEscape_le (units : List Char) : 2 ≤ (bracedEscape units).2 := by
  unfold bracedEscape
  simp only
  split <;> exact Nat.le_add_left 2 _

/-- An escape sequence that ends before a delimiter ends there whatever follows. The delimiter may be
what is escaped, or a brace of the sequence. -/
theorem escapeAfterBackslash_append (ends : Delimits stop) (text more : List Char)
    (inside : (escapeAfterBackslash (text ++ [stop])).2 ≤ text.length) :
    escapeAfterBackslash (text ++ stop :: more) = escapeAfterBackslash (text ++ [stop]) := by
  cases text with
  | nil => rw [List.nil_append, List.nil_append, ends.escaped, ends.escaped]
  | cons character rest =>
      have octal (after : List Char) :
          runLength isOctalDigit ((character :: (rest ++ stop :: after)).take 3) =
            runLength isOctalDigit ((character :: rest).take 3) :=
        runLength_take_append ends.noOctalDigit 3 (character :: rest) after
      have single (after : List Char) : lineBreakLength (character :: (rest ++ stop :: after)) =
          lineBreakLength (character :: (rest ++ [stop])) := by
        simp only [lineBreakLength, nextIs_append '\n' stop rest after]
      have one (after : List Char) : characterLength (character :: (rest ++ stop :: after)) =
          characterLength (character :: rest) := rfl
      have braced (opens : nextIs '\x7b' (rest ++ [stop]) = true)
          (inside : (bracedEscape (rest ++ [stop])).2 ≤ rest.length + 1) :
          bracedEscape (rest ++ stop :: more) = bracedEscape (rest ++ [stop]) := by
        cases rest with
        | nil => exact absurd ((bracedEscape_le _).trans inside) (by decide)
        | cons first rest => exact bracedEscape_append ends first rest more
      rw [List.cons_append, escapeAfterBackslash] at inside
      simp only [List.cons_append, escapeAfterBackslash, fixedHexEscape, hexRunLength_append ends,
        nextIs_append '\x7b' stop rest more, octal, single more, one]
      by_cases short : is 'x' character = true
      · rw [if_pos short, if_pos short]
      rw [if_neg short] at inside
      rw [if_neg short, if_neg short]
      by_cases long : is 'u' character = true
      · rw [if_pos long] at inside
        rw [if_pos long, if_pos long]
        by_cases opens : nextIs '\x7b' (rest ++ [stop]) = true
        · rw [if_pos opens] at inside
          rw [if_pos opens, if_pos opens, braced opens inside]
        · rw [if_neg opens, if_neg opens]
      · rw [if_neg long, if_neg long]

/-- A piece of a string that ends before a delimiter ends there whatever follows. -/
theorem stringPiece_append (ends : Delimits stop) (text more : List Char)
    (inside : (stringPiece (text ++ [stop])).2 ≤ text.length) :
    stringPiece (text ++ stop :: more) = stringPiece (text ++ [stop]) := by
  cases text with
  | nil => exact absurd inside (Nat.not_le_of_lt (stringPiece_pos stop []))
  | cons character rest =>
      rw [List.cons_append, stringPiece] at inside
      rw [List.cons_append, List.cons_append, stringPiece, stringPiece]
      by_cases quote : is '"' character = true
      · rw [if_pos quote, if_pos quote]
      rw [if_neg quote] at inside
      rw [if_neg quote, if_neg quote]
      by_cases backslash : is '\\' character = true
      · rw [if_pos backslash, List.length_cons] at inside
        rw [if_pos backslash, if_pos backslash,
          escapeAfterBackslash_append ends rest more (Nat.le_of_succ_le_succ inside)]
      rw [if_neg backslash] at inside
      rw [if_neg backslash, if_neg backslash]
      by_cases feed : is '\n' character = true
      · rw [if_pos feed, if_pos feed]
      rw [if_neg feed] at inside
      rw [if_neg feed, if_neg feed]
      have shorter : runLength isPlainContent (character :: rest ++ [stop]) <
          (character :: rest ++ [stop]).length := by
        rw [List.length_append, List.length_singleton]
        exact Nat.lt_succ_of_le inside
      have run := runLength_append_of_lt shorter more
      rw [List.append_assoc, List.singleton_append] at run
      exact congrArg (Prod.mk StringPiece.content) run

/-- What was cut off before the next character is no longer than the text. -/
theorem le_of_take_le {length : Nat} (inside : ((text ++ [stop]).take length).length ≤ text.length) :
    length ≤ text.length := by
  rw [List.length_take, List.length_append, List.length_singleton] at inside
  omega

def pieceLexeme (piece : StringPiece) (covered : List Char) : Lexeme :=
  match piece with
  | .escape form => escapeLexeme form covered
  | _ => .plain .stringContent covered

theorem pieceLexeme_text (piece : StringPiece) (covered : List Char) :
    (pieceLexeme piece covered).text = covered := by
  unfold pieceLexeme
  split
  · exact (escapeLexeme_text _ _).1
  · rfl

/-- A piece other than the end of a string is a lexeme in front of the others. -/
theorem stringLexemesFrom_cons {text : List Char} {piece : StringPiece} {length : Nat}
    (found : stringPiece text = (piece, length)) (more : piece ≠ .endOfInput) (unclosed : piece ≠ .close)
    (bounding : Char) (bound : List Char) :
    stringLexemesFrom (bounding :: bound) text =
      (stringLexemesFrom bound (text.drop length)).map (pieceLexeme piece (text.take length) :: ·) := by
  rw [stringLexemesFrom.eq_def, found]
  cases piece with
  | endOfInput => exact (more rfl).elim
  | close => exact (unclosed rfl).elim
  | content => rfl
  | lineBreak => rfl
  | escape form => rfl

theorem stringLexemesFrom_close (bound more : List Char) :
    stringLexemesFrom bound ('"' :: more) = some [.plain .quote ['"']] := by
  rw [stringLexemesFrom.eq_def]
  rfl

/-- A string that is closed before a delimiter is closed there whatever follows. -/
theorem stringLexemesFrom_append (ends : Delimits stop) {bound other text : List Char} {pieces : List Lexeme}
    (closed : stringLexemesFrom bound (text ++ [stop]) = some pieces)
    (inside : lexemesLength pieces ≤ text.length) (enough : text.length ≤ other.length)
    (more : List Char) : stringLexemesFrom other (text ++ stop :: more) = some pieces := by
  generalize same : text ++ [stop] = whole at closed
  fun_induction stringLexemesFrom bound whole generalizing other text pieces with
  | case1 bound whole length piece => cases closed
  | case2 bound whole length piece =>
      subst same
      cases closed
      have within : length ≤ text.length := le_of_take_le inside
      have found := stringPiece_append ends text more (by rw [piece]; exact within)
      rw [piece] at found
      rw [stringLexemesFrom.eq_def, found]
      simp only [List.take_append_of_le_length within]
  | case3 whole piece length more unclosed found => cases closed
  | case4 whole piece length unended unclosed found covered lexeme character =>
      rename_i bound ih
      subst same
      obtain ⟨rest, later, rfl⟩ := Option.map_eq_some_iff.mp closed
      have front : lexeme.text = covered := pieceLexeme_text piece covered
      rw [lexemesLength, front] at inside
      have within : length ≤ text.length := le_of_take_le (Nat.le_of_add_right_le inside)
      have nonempty : 0 < length := by
        have some := stringPiece_nonempty found unended
        rw [Nat.pos_iff_ne_zero]
        rintro rfl
        exact some rfl
      have piece' := stringPiece_append ends text more (by rw [found]; exact within)
      rw [found] at piece'
      obtain ⟨bounding, others, rfl⟩ : ∃ bounding others, other = bounding :: others := by
        cases other with
        | nil =>
            rw [List.length_nil] at enough
            omega
        | cons bounding others => exact ⟨bounding, others, rfl⟩
      rw [List.length_cons] at enough
      have short : covered.length = length := by
        simp [covered, List.length_take]
        omega
      have dropped : (text ++ [stop]).drop length = text.drop length ++ [stop] :=
        List.drop_append_of_le_length within
      have further := @ih others (text.drop length) rest
        (by rw [List.length_drop]; omega) (by rw [List.length_drop]; omega) dropped.symm later
      have taken (after : List Char) : (text ++ after).take length = text.take length :=
        List.take_append_of_le_length within
      have same : lexeme = pieceLexeme piece (text.take length) :=
        congrArg (pieceLexeme piece) (taken [stop])
      rw [stringLexemesFrom.eq_def, piece', same]
      simp only [taken, List.drop_append_of_le_length within, further]
      cases piece with
      | endOfInput => exact (unended rfl).elim
      | close => exact (unclosed rfl).elim
      | content => rfl
      | lineBreak => rfl
      | escape form => rfl

/-! ### Lexemes at the front -/

theorem lexemesLength_single (lexeme : Lexeme) : lexemesLength [lexeme] = lexeme.text.length := rfl

theorem stringLexemes_append (ends : Delimits stop) (character : Char) (rest more : List Char)
    (inside : lexemesLength (stringLexemes (character :: rest ++ [stop])) ≤ rest.length + 1) :
    stringLexemes (character :: rest ++ stop :: more) =
      stringLexemes (character :: rest ++ [stop]) := by
  simp only [stringLexemes, List.cons_append, List.drop_succ_cons, List.drop_zero] at inside ⊢
  cases closed : stringLexemesFrom (character :: (rest ++ [stop])) (rest ++ [stop]) with
  | none =>
      rw [closed] at inside
      simp only [lexemesLength_single, Lexeme.faulty, List.length_cons, List.length_append,
        List.length_nil] at inside
      omega
  | some pieces =>
      rw [closed] at inside
      have short : lexemesLength pieces ≤ rest.length := by
        simp [lexemesLength, Lexeme.plain] at inside
        omega
      have same := stringLexemesFrom_append ends closed short
        (show rest.length ≤ (character :: (rest ++ stop :: more)).length by simp; omega) more
      rw [same]
      rfl

theorem lineCommentLexeme_append (text more : List Char) (two : 2 ≤ text.length)
    (inside : (lineCommentLexeme (text ++ [stop])).text.length ≤ text.length) :
    lineCommentLexeme (text ++ stop :: more) = lineCommentLexeme (text ++ [stop]) := by
  have within : lineComment (text ++ [stop]) ≤ text.length := le_of_take_le inside
  have dropped (after : List Char) : (text ++ after).drop 2 = text.drop 2 ++ after :=
    List.drop_append_of_le_length two
  have same : lineComment (text ++ stop :: more) = lineComment (text ++ [stop]) := by
    unfold lineComment at within ⊢
    rw [dropped] at within
    rw [dropped, dropped, List.append_cons]
    apply lineCommentFrom_append
    simp only [List.length_append, List.length_drop, List.length_singleton]
    omega
  unfold lineCommentLexeme
  rw [same, List.take_append_of_le_length within, List.take_append_of_le_length within]

theorem blockCommentLexeme_append (text more : List Char) (two : 2 ≤ text.length)
    (inside : (blockCommentLexeme (text ++ [stop])).text.length ≤ text.length) :
    blockCommentLexeme (text ++ stop :: more) = blockCommentLexeme (text ++ [stop]) := by
  have dropped (after : List Char) : (text ++ after).drop 2 = text.drop 2 ++ after :=
    List.drop_append_of_le_length two
  cases found : blockComment (text ++ [stop]) with
  | mk ends length =>
  have scanned := found
  rw [blockComment, dropped] at scanned
  rw [blockCommentLexeme, found] at inside
  cases ends with
  | terminated =>
      have within : length ≤ text.length := le_of_take_le inside
      have same : blockComment (text ++ stop :: more) = (.terminated, length) := by
        rw [blockComment, dropped, List.append_cons]
        exact blockCommentFrom_append scanned more
      rw [blockCommentLexeme, blockCommentLexeme, found, same]
      simp only [List.take_append_of_le_length within]
  | unterminated depth =>
      have within : length ≤ text.length := le_of_take_le inside
      have whole := blockCommentFrom_unclosed scanned
      simp only [List.length_append, List.length_drop, List.length_singleton] at whole
      omega

/-- The openers of comments have two characters. -/
theorem fixedSpellings_comments : ∀ entry ∈ fixedSpellings,
    entry.2 = .lineComment ∨ entry.2 = .blockComment → entry.1.length = 2 := by
  decide

theorem fixedLexemes_append (ends : Delimits stop) (character : Char) (rest more : List Char)
    (inside : lexemesLength (fixedLexemes character (character :: rest ++ [stop])) ≤
      rest.length + 1) :
    fixedLexemes character (character :: rest ++ stop :: more) =
      fixedLexemes character (character :: rest ++ [stop]) := by
  unfold fixedLexemes at inside ⊢
  rw [fixedSpelling?_append ends] at inside ⊢
  rw [fixedSpelling?_append ends]
  cases found : fixedSpelling? (character :: rest) with
  | none => rfl
  | some entry =>
      obtain ⟨spelling, starts⟩ := entry
      rw [found] at inside
      have starting := List.find?_some found
      have front : spelling <+: character :: rest := List.isPrefixOf_iff_prefix.mp starting
      have opener : starts = .lineComment ∨ starts = .blockComment →
          2 ≤ (character :: rest).length := fun comment =>
        (fixedSpellings_comments _ (List.mem_of_find?_eq_some found) comment).symm.trans_le
          front.length_le
      cases starts with
      | token kind => rfl
      | lineComment =>
          exact congrArg (fun lexeme => [lexeme])
            (lineCommentLexeme_append _ more (opener (Or.inl rfl)) inside)
      | blockComment =>
          exact congrArg (fun lexeme => [lexeme])
            (blockCommentLexeme_append _ more (opener (Or.inr rfl)) inside)
      | string => exact stringLexemes_append ends character rest more inside

/-! ### Heredocs -/

theorem isPrefixOf_append_of_le {spelling text : List Char} (short : spelling.length ≤ text.length)
    (more : List Char) : spelling.isPrefixOf (text ++ more) = spelling.isPrefixOf text := by
  rw [Bool.eq_iff_iff, List.isPrefixOf_iff_prefix, List.isPrefixOf_iff_prefix]
  constructor
  · exact fun front => List.prefix_of_prefix_length_le front (List.prefix_append text more) short
  · exact fun front => front.trans (List.prefix_append text more)

/-- Whether a line closes a heredoc shows before a delimiter, if the closing word would fit there. -/
theorem closingIndent_append (ends : Delimits stop) {delimiter line : List Char}
    (fits : runLength isBlank line + delimiter.length ≤ line.length) (more : List Char) :
    closingIndent? delimiter (line ++ stop :: more) = closingIndent? delimiter line := by
  have blanks : runLength isBlank (line ++ stop :: more) = runLength isBlank line :=
    runLength_append ends.noBlank line more
  have dropped : (line ++ stop :: more).drop (runLength isBlank line) =
      line.drop (runLength isBlank line) ++ stop :: more :=
    List.drop_append_of_le_length (runLength_le _ line)
  have short : delimiter.length ≤ (line.drop (runLength isBlank line)).length := by
    rw [List.length_drop]
    omega
  simp only [closingIndent?, blanks, dropped, isPrefixOf_append_of_le short,
    List.drop_append_of_le_length short]
  cases (line.drop (runLength isBlank line)).drop delimiter.length with
  | nil => simp [ends.noContinuation]
  | cons next after => rfl

theorem closingIndent_blanks {delimiter line : List Char} {blanks : Nat}
    (closes : closingIndent? delimiter line = some blanks) : blanks = runLength isBlank line := by
  unfold closingIndent? at closes
  simp only at closes
  split at closes
  · split at closes
    · exact (Option.some.inj closes).symm
    · split at closes
      · cases closes
      · exact (Option.some.inj closes).symm
  · cases closes

/-- The blanks in front of a heredoc body belong to it. -/
theorem heredocBodyFrom_blanks {delimiter text : List Char} {covered total : Nat}
    (closed : heredocBodyFrom delimiter covered text = (true, total)) :
    covered + runLength isBlank text < total := by
  induction text generalizing covered with
  | nil => cases closed
  | cons character rest ih =>
      have later (closed : heredocBodyFrom delimiter (covered + 1) rest = (true, total)) :
          covered + runLength isBlank (character :: rest) < total := by
        have further := ih closed
        unfold runLength at further ⊢
        rw [List.takeWhile_cons]
        split
        · rw [List.length_cons]
          omega
        · simp only [List.length_nil]
          omega
      rw [heredocBodyFrom] at closed
      split at closed
      · next feed =>
          split at closed
          · next blanks found =>
              have same := (Prod.mk.inj closed).2
              have solid : isBlank character = false := by
                have code := eq_of_beq feed
                unfold isBlank is
                rw [code]
                decide
              simp only [runLength, List.takeWhile_cons, solid]
              simp
              omega
          · exact later closed
      · exact later closed

/-- A heredoc that no line closes takes the whole text. -/
theorem heredocBodyFrom_unclosed {α : Type} [SourceUnit α] [BEq α] {delimiter text : List α}
    {covered total : Nat}
    (unclosed : heredocBodyFrom delimiter covered text = (false, total)) :
    total = covered + text.length := by
  induction text generalizing covered with
  | nil =>
      cases unclosed
      rfl
  | cons character rest ih =>
      have later (unclosed : heredocBodyFrom delimiter (covered + 1) rest = (false, total)) :
          total = covered + (character :: rest).length := by
        rw [ih unclosed, List.length_cons]
        omega
      rw [heredocBodyFrom] at unclosed
      split at unclosed
      · split at unclosed
        · cases unclosed
        · exact later unclosed
      · exact later unclosed

/-- A heredoc that is closed before a delimiter is closed there whatever follows. -/
theorem heredocBodyFrom_append (ends : Delimits stop) {delimiter text : List Char} {covered total : Nat}
    (closed : heredocBodyFrom delimiter covered (text ++ [stop]) = (true, total))
    (fits : total + delimiter.length ≤ covered + text.length) (more : List Char) :
    heredocBodyFrom delimiter covered (text ++ stop :: more) = (true, total) := by
  induction text generalizing covered with
  | nil =>
      rw [List.nil_append, heredocBodyFrom, ends.noFeed] at closed
      cases closed
  | cons character rest ih =>
      rw [List.length_cons] at fits
      have run : runLength isBlank (rest ++ [stop]) = runLength isBlank rest :=
        runLength_append ends.noBlank rest []
      rw [List.cons_append, heredocBodyFrom] at closed
      rw [List.cons_append, heredocBodyFrom]
      by_cases feed : is '\n' character = true
      · rw [if_pos feed] at closed
        rw [if_pos feed]
        cases found : closingIndent? delimiter (rest ++ [stop]) with
        | some blanks =>
            rw [found] at closed
            have same := (Prod.mk.inj closed).2
            have indent := closingIndent_blanks found
            rw [closingIndent_append ends (by omega), ← closingIndent_append ends (by omega) [], found]
            exact closed
        | none =>
            rw [found] at closed
            have later := heredocBodyFrom_blanks closed
            rw [closingIndent_append ends (by omega), ← closingIndent_append ends (by omega) [], found]
            exact ih closed (by omega)
      · rw [if_neg feed] at closed
        rw [if_neg feed]
        exact ih closed (by omega)

/-- The closing word of a heredoc ends before a delimiter if it is not the last word of the text. -/
theorem heredocDelimiter_append (ends : Delimits stop) {text : List Char} {blanks size : Nat}
    (found : heredocDelimiter (text ++ [stop]) = (blanks, size)) (fits : blanks + size ≤ text.length)
    (more : List Char) : heredocDelimiter (text ++ stop :: more) = (blanks, size) := by
  obtain ⟨rfl, rfl⟩ := Prod.mk.inj found
  have run (after : List Char) : runLength isBlank (text ++ stop :: after) = runLength isBlank text :=
    runLength_append ends.noBlank text after
  have dropped (after : List Char) : (text ++ after).drop (runLength isBlank text) =
      text.drop (runLength isBlank text) ++ after :=
    List.drop_append_of_le_length (runLength_le _ text)
  rw [run, dropped] at fits
  have inside : runLength (fun unit => !isSpace unit) (text.drop (runLength isBlank text) ++ [stop]) <
      (text.drop (runLength isBlank text) ++ [stop]).length := by
    rw [List.length_append, List.length_drop, List.length_singleton]
    omega
  have word := runLength_append_of_lt inside more
  rw [← List.append_cons] at word
  simp only [heredocDelimiter, run, dropped, word]

theorem unlessEmpty_length (kind : TokenKind) (text : List Char) :
    lexemesLength (unlessEmpty kind text) = text.length := by
  unfold unlessEmpty
  split
  · next empty => rw [List.isEmpty_iff.mp empty]; rfl
  · rfl

theorem lexemesLength_append (first second : List Lexeme) :
    lexemesLength (first ++ second) = lexemesLength first + lexemesLength second := by
  rw [← joinLexemes_length, joinLexemes, List.flatMap_append, List.length_append]
  exact congrArg₂ (· + ·) (joinLexemes_length first) (joinLexemes_length second)

theorem heredocLexemes_append (ends : Delimits stop) {length : Nat} {text : List Char} (within : length ≤ text.length)
    (inside : lexemesLength (heredocLexemes length (text ++ [stop])) ≤ text.length)
    (more : List Char) :
    heredocLexemes length (text ++ stop :: more) = heredocLexemes length (text ++ [stop]) := by
  have taken (after : List Char) : (text ++ after).take length = text.take length :=
    List.take_append_of_le_length within
  have dropped (after : List Char) : (text ++ after).drop length = text.drop length ++ after :=
    List.drop_append_of_le_length within
  have size : (text.drop length).length + length = text.length := by
    rw [List.length_drop]
    omega
  unfold heredocLexemes at inside ⊢
  simp only [taken, dropped] at inside ⊢
  generalize text.drop length = after at inside size ⊢
  have blank : runLength isBlank (after ++ [stop]) = runLength isBlank after :=
    runLength_append ends.noBlank after []
  cases found : heredocDelimiter (after ++ [stop]) with
  | mk blanks width =>
  obtain ⟨indent, word⟩ := Prod.mk.inj found
  have indented : blanks ≤ after.length := indent ▸ blank ▸ runLength_le _ after
  have worded : width ≤ ((after ++ [stop]).drop blanks).length :=
    word ▸ indent ▸ runLength_le _ _
  rw [found] at inside
  have fits : blanks + width ≤ after.length := by
    by_cases none : width = 0
    · omega
    · rw [if_neg (by simpa using none)] at inside
      simp only [List.length_append, List.length_drop, List.length_singleton] at worded
      split at inside
      all_goals
        simp only [lexemesLength_append, lexemesLength, unlessEmpty_length, Lexeme.plain,
          List.cons_append, List.length_take, List.length_drop, List.length_append,
          List.length_singleton] at inside
        omega
  rw [heredocDelimiter_append ends found fits]
  have wide : width ≤ (after.drop blanks).length := by
    rw [List.length_drop]
    omega
  simp only [List.take_append_of_le_length indented, List.drop_append_of_le_length indented,
    List.take_append_of_le_length wide, List.drop_append_of_le_length wide] at inside ⊢
  split at inside
  · next none => rw [if_pos none, if_pos none]
  next some =>
  rw [if_neg some, if_neg some]
  generalize start : (after.drop blanks).take width = delimiter at inside ⊢
  generalize further : (after.drop blanks).drop width = rest at inside ⊢
  cases body : heredocBody delimiter (rest ++ [stop]) with
  | mk closed total =>
  rw [body] at inside
  have width' : delimiter.length = width := by
    rw [← start, List.length_take]
    omega
  have directive : (text.take length).length = length := List.length_take_of_le within
  have before : (after.take blanks).length = blanks := List.length_take_of_le indented
  have total' : length + blanks + width + rest.length = text.length := by
    rw [← further, List.length_drop, List.length_drop]
    omega
  cases closed with
  | true =>
      have closing := (heredocBodyFrom_delimiter 0 _ _ body).2.length_le
      simp only [if_true, lexemesLength_append, lexemesLength, unlessEmpty_length, Lexeme.plain,
        List.cons_append, directive, before, width', List.length_take, List.length_drop,
        List.length_append, List.length_singleton] at inside closing
      have room : total + width ≤ rest.length := by omega
      have body' : heredocBody delimiter (rest ++ stop :: more) = (true, total) :=
        heredocBodyFrom_append ends body (by omega) more
      have shorter : width ≤ (rest.drop total).length := by
        rw [List.length_drop]
        omega
      have inner : total ≤ rest.length := by omega
      rw [body']
      simp only [List.take_append_of_le_length inner, List.drop_append_of_le_length inner,
        List.take_append_of_le_length shorter]
  | false =>
      have whole := heredocBodyFrom_unclosed body
      simp only [Bool.false_eq_true, if_false, lexemesLength_append, lexemesLength,
        unlessEmpty_length, Lexeme.plain, List.cons_append, directive, before, width', List.length_take,
        List.length_append, List.length_singleton] at inside whole
      omega

/-! ### The front of a text -/

theorem directiveLexemes_append (ends : Delimits stop) (character : Char) (rest more : List Char)
    (inside : lexemesLength (directiveLexemes (character :: rest ++ [stop])) ≤ rest.length + 1) :
    directiveLexemes (character :: rest ++ stop :: more) =
      directiveLexemes (character :: rest ++ [stop]) := by
  have dropped (after : List Char) : (character :: rest ++ after).drop 1 = rest ++ after := rfl
  have within : wordLength rest + 1 ≤ (character :: rest).length :=
    Nat.add_le_add_right (wordLength_le rest) 1
  have taken (after : List Char) : (character :: rest ++ after).take (wordLength rest + 1) =
      (character :: rest).take (wordLength rest + 1) := List.take_append_of_le_length within
  unfold directiveLexemes at inside ⊢
  simp only [dropped, wordLength_append ends.toSeparates, taken] at inside ⊢
  split at inside
  · next none => rw [if_pos none, if_pos none]
  next some =>
  rw [if_neg some, if_neg some]
  split at inside
  · next opens =>
      rw [if_pos opens, if_pos opens]
      exact heredocLexemes_append ends within inside more
  · next plain => rw [if_neg plain, if_neg plain]

/-- What stands at the front of a text and ends before a delimiter is the same whatever follows. -/
theorem frontLexemes_append (ends : Delimits stop) (character : Char) (rest more : List Char)
    (inside : lexemesLength (frontLexemes character (rest ++ [stop])) ≤ rest.length + 1) :
    frontLexemes character (rest ++ stop :: more) = frontLexemes character (rest ++ [stop]) := by
  have blanks (after : List Char) : whiteSpaceLength (character :: (rest ++ stop :: after)) =
      whiteSpaceLength (character :: rest) := whiteSpaceFrom_append ends 0 (character :: rest) after
  have word (after : List Char) : wordLength (character :: (rest ++ stop :: after)) =
      wordLength (character :: rest) := wordLength_append ends.toSeparates (character :: rest) after
  have note (after : List Char) : wordLength (rest ++ stop :: after) = wordLength rest :=
    wordLength_append ends.toSeparates rest after
  have number (after : List Char) : numberExtent (character :: (rest ++ stop :: after)) =
      numberExtent (character :: rest) :=
    numberExtent_append ends.toSeparates (List.cons_ne_nil character rest)
  have taken {length : Nat} (within : length ≤ rest.length + 1) (after : List Char) :
      (character :: (rest ++ after)).take length = (character :: rest).take length :=
    List.take_append_of_le_length (show length ≤ (character :: rest).length from within)
  have blanks_le : whiteSpaceLength (character :: rest) ≤ rest.length + 1 :=
    (whiteSpaceFrom_le 0 (character :: rest)).trans_eq (Nat.zero_add _)
  have word_le : wordLength (character :: rest) ≤ rest.length + 1 :=
    wordLength_le (character :: rest)
  have note_le : wordLength rest + 1 ≤ rest.length + 1 :=
    Nat.add_le_add_right (wordLength_le rest) 1
  unfold frontLexemes at inside ⊢
  simp only [blanks, word, note, number, taken blanks_le, taken word_le, taken note_le] at inside ⊢
  split at inside
  · next white => rw [if_pos white, if_pos white]
  next black =>
  rw [if_neg black, if_neg black]
  split at inside
  · next starts => rw [if_pos starts, if_pos starts]
  next noWord =>
  rw [if_neg noWord, if_neg noWord]
  split at inside
  · next digit =>
      rw [lexemesLength_single, (numberLexeme_text _ _).1] at inside
      have within : (numberExtent (character :: rest)).length ≤ rest.length + 1 :=
        @le_of_take_le stop (character :: rest) _ inside
      rw [if_pos digit, if_pos digit]
      simp only [taken within]
  next noDigit =>
  rw [if_neg noDigit, if_neg noDigit]
  split at inside
  · next sign =>
      rw [if_pos sign, if_pos sign]
      exact directiveLexemes_append ends character rest more inside
  next noSign =>
  rw [if_neg noSign, if_neg noSign]
  split at inside
  · next at' => rw [if_pos at', if_pos at']
  next noNote =>
  rw [if_neg noNote, if_neg noNote]
  exact fixedLexemes_append ends character rest more inside

/-! ### Delimiters -/

def Unended (pieces : List Lexeme) : Prop := ∀ piece ∈ pieces, piece.kind.isDelimiter = false

namespace Unended

theorem single {piece : Lexeme} (other : piece.kind.isDelimiter = false) : Unended [piece] :=
  List.forall_mem_singleton.mpr other

theorem cons {piece : Lexeme} {rest : List Lexeme} (other : piece.kind.isDelimiter = false)
    (later : Unended rest) : Unended (piece :: rest) :=
  List.forall_mem_cons.mpr ⟨other, later⟩

theorem append {first second : List Lexeme} (front : Unended first) (back : Unended second) :
    Unended (first ++ second) :=
  List.forall_mem_append.mpr ⟨front, back⟩

theorem unlessEmpty {kind : TokenKind} (other : kind.isDelimiter = false) (text : List Char) :
    Unended (unlessEmpty kind text) := by
  unfold JaiSyntax.unlessEmpty
  split
  · exact List.forall_mem_nil _
  · exact single other

theorem number (extent : NumberExtent) (text : List Char) :
    Unended [numberLexeme extent text] := by
  apply single
  rcases numberLexeme_kind extent text with kind | kind
  · rw [kind]
    rfl
  · rw [kind]
    rfl

theorem stringFrom {bound text : List Char} {pieces : List Lexeme}
    (closes : stringLexemesFrom bound text = some pieces) : Unended pieces := by
  fun_induction stringLexemesFrom bound text generalizing pieces with
  | case1 bound text length same => cases closes
  | case2 bound text length same =>
      cases closes
      exact single rfl
  | case3 text piece length more unclosed same => cases closes
  | case4 text piece length more unclosed same covered lexeme character =>
      rename_i bound ih
      obtain ⟨rest, later, rfl⟩ := Option.map_eq_some_iff.mp closes
      apply cons _ (ih later)
      cases piece with
      | escape form =>
          change (escapeLexeme form covered).kind.isDelimiter = false
          unfold escapeLexeme
          split <;> rfl
      | _ => rfl

theorem string (text : List Char) : Unended (stringLexemes text) := by
  unfold stringLexemes
  split
  · next pieces closes => exact cons rfl (stringFrom closes)
  · exact single rfl

theorem heredoc (length : Nat) (text : List Char) : Unended (heredocLexemes length text) := by
  unfold heredocLexemes
  simp only
  split
  · exact single rfl
  have front (directive blanks : List Char) :
      Unended (.plain .directive directive :: JaiSyntax.unlessEmpty .whitespace blanks) :=
    cons rfl (unlessEmpty rfl blanks)
  have opened (piece : Lexeme) (body : List Char) (kind : TokenKind)
      (starts : piece.kind = .heredocStart) (other : kind.isDelimiter = false) :
      Unended (piece :: JaiSyntax.unlessEmpty kind body) :=
    cons (by rw [starts]; rfl) (unlessEmpty other body)
  split
  · have last (delimiter : List Char) : Unended [.plain .heredocEnd delimiter] := single rfl
    exact append (append (front _ _) (opened _ _ _ rfl rfl)) (last _)
  · exact append (front _ _) (opened _ _ _ rfl rfl)

theorem directive (text : List Char) : Unended (directiveLexemes text) := by
  unfold directiveLexemes
  simp only
  split
  · exact single rfl
  split
  · exact heredoc _ text
  · exact single rfl

end Unended

/-- Only a delimiter is spelled as one. -/
theorem fixedSpellings_delimiters : ∀ entry ∈ fixedSpellings, ∀ kind ∈ delimiterKinds,
    entry.2 = .token kind → entry.1 ∈ delimiters.map (fun stop => [stop]) := by
  decide

/-- A delimiter stands alone. -/
theorem frontLexemes_delimiter (character : Char) (rest : List Char) :
    Unended (frontLexemes character rest) ∨ ∃ stop ∈ delimiters, ∃ kind,
      frontLexemes character rest = [.plain kind [stop]] := by
  unfold frontLexemes
  simp only
  split
  · exact Or.inl (.single rfl)
  split
  · exact Or.inl (.single rfl)
  split
  · exact Or.inl (.number _ _)
  split
  · exact Or.inl (.directive _)
  split
  · exact Or.inl (.single rfl)
  unfold fixedLexemes
  split
  · next spelling kind same =>
      cases ends : kind.isDelimiter with
      | false => exact Or.inl (.single ends)
      | true =>
          obtain ⟨stop, known, rfl⟩ := List.mem_map.mp (fixedSpellings_delimiters _
            (List.mem_of_find?_eq_some same) kind (List.contains_iff_mem.mp ends) rfl)
          exact Or.inr ⟨stop, known, kind, rfl⟩
  · exact Or.inl (.single rfl)
  · unfold blockCommentLexeme
    split <;> exact Or.inl (.single rfl)
  · exact Or.inl (.string _)
  · exact Or.inl (.single rfl)

/-! ### The lexemes of a source -/

theorem lexemes_eq_nil {text : List Char} (none : lexemes text = []) : text = [] := by
  rw [← joinLexemes_lexemes text, none]
  rfl

/-- A source whose last token is a delimiter has the same lexemes in front of any other one. -/
theorem lexemes_append {text : List Char} {front : List Lexeme} {last : Lexeme}
    (same : lexemes text = front ++ [last]) (ends : last.kind.isDelimiter = true)
    (more : List Char) :
    lexemes (text ++ more) = lexemes text ++ lexemes more ∧
      ∃ stop ∈ delimiters, ∃ before, text = before ++ [stop] := by
  induction size : text.length using Nat.strongRecOn generalizing text front with
  | ind size ih =>
      cases text with
      | nil => exact absurd same (by simp [lexemes, lexemesFrom])
      | cons character rest =>
          obtain ⟨⟨tail, covers⟩, some⟩ : joinLexemes (frontLexemes character rest) <+:
              character :: rest ∧ joinLexemes (frontLexemes character rest) ≠ [] :=
            ⟨(frontLexemes_cut character rest).1.covers, (frontLexemes_cut character rest).2⟩
          have parted := lexemes_front rfl covers.symm
          rw [parted] at same
          cases after : lexemes tail with
          | nil =>
              have none := lexemes_eq_nil after
              subst none
              rw [after, List.append_nil] at same
              have member : last ∈ frontLexemes character rest := by simp [same]
              rcases frontLexemes_delimiter character rest with unended | ⟨stop, known, kind, alone⟩
              · rw [unended last member] at ends
                cases ends
              · rw [alone, List.append_nil] at covers
                obtain ⟨rfl, rfl⟩ := List.cons.inj covers
                have first := (delimits known).alone more
                refine ⟨lexemes_front first ?_, stop, known, [], rfl⟩
                rw [joinLexemes_lexemes]
                rfl
          | cons next later =>
              have pieces : lexemes tail ≠ [] := by simp [after]
              have ending := (List.dropLast_concat_getLast pieces).symm
              rw [ending, ← List.append_assoc] at same
              obtain ⟨-, single⟩ := List.append_inj' same rfl
              obtain rfl := List.singleton_inj.mp single
              have lengths := congrArg List.length covers
              have positive := List.length_pos_iff.mpr some
              rw [List.length_append] at lengths
              obtain ⟨further, stop, known, before, rfl⟩ := ih tail.length (by omega) ending rfl
              obtain ⟨first, beginning, starts⟩ := List.exists_cons_of_ne_nil some
              rw [starts, List.cons_append, ← List.append_assoc] at covers
              obtain ⟨rfl, rfl⟩ := List.cons.inj covers.symm
              have inside : lexemesLength (frontLexemes character (beginning ++ before ++ [stop])) ≤
                  (beginning ++ before).length + 1 := by
                rw [← joinLexemes_length, starts]
                simp
              have alike :=
                frontLexemes_append (delimits known) character (beginning ++ before) more inside
              rw [List.append_cons] at alike
              have whole : lexemes (character :: (beginning ++ before ++ [stop] ++ more)) =
                  frontLexemes character (beginning ++ before ++ [stop]) ++
                    lexemes (before ++ [stop] ++ more) :=
                lexemes_front alike (by rw [starts]; simp)
              constructor
              · rw [List.cons_append, whole, further, parted]
                exact (List.append_assoc _ _ _).symm
              · exact ⟨stop, known, character :: (beginning ++ before), by simp⟩

end JaiSyntax

import JaiSyntax.Proofs.Lexer.Driver
/-!
Strings that never close. A quote closes a string unless an odd number of backslashes stands right before it,
whatever the escape sequences mean. A string without such a quote becomes one error up to the end of the
source, and nothing that was emitted for its pieces is left.
-/

set_option autoImplicit false

namespace JaiSyntax

open SourceUnit

/-! ### Closing quotes -/

def trailingBackslashes (front : List Char) : Nat :=
  (front.reverse.takeWhile (fun character => character == '\\')).length

/-- What follows the text is not escaped: an even number of backslashes stands at its end. -/
def IsFresh (front : List Char) : Prop := trailingBackslashes front % 2 = 0

structure ClosesAt (text : List Char) (place : Nat) : Prop where
  quote : text[place]? = some '"'
  fresh : IsFresh (text.take place)

instance (text : List Char) (place : Nat) : Decidable (ClosesAt text place) :=
  decidable_of_iff (text[place]? = some '"' ∧ trailingBackslashes (text.take place) % 2 = 0)
    ⟨fun both => ⟨both.1, both.2⟩, fun closes => ⟨closes.quote, closes.fresh⟩⟩

/-- No quote from the end of `front` on closes a string. -/
def StaysOpen (front rest : List Char) : Prop :=
  ∀ place, front.length ≤ place → ¬ ClosesAt (front ++ rest) place

theorem trailingBackslashes_backslash (front : List Char) :
    trailingBackslashes (front ++ ['\\']) = trailingBackslashes front + 1 := by
  simp [trailingBackslashes]

theorem trailingBackslashes_other {character : Char} (front : List Char) (other : character ≠ '\\') :
    trailingBackslashes (front ++ [character]) = 0 := by
  simp [trailingBackslashes, other]

section Open

variable {front rest covered : List Char} {character : Char}

theorem closesAt_append_iff :
    ClosesAt (front ++ character :: rest) front.length ↔
      character = '"' ∧ IsFresh front := by
  have here : (front ++ character :: rest)[front.length]? = some character := by
    simp
  have taken : (front ++ character :: rest).take front.length = front := List.take_left
  constructor
  · rintro ⟨quote, fresh⟩
    rw [here] at quote
    rw [taken] at fresh
    exact ⟨Option.some.inj quote, fresh⟩
  · rintro ⟨rfl, fresh⟩
    rw [← taken] at fresh
    exact ⟨here, fresh⟩

theorem staysOpen_nil (front : List Char) : StaysOpen front [] := by
  intro place behind closes
  have quote := closes.quote
  rw [List.append_nil, List.getElem?_eq_none behind] at quote
  cases quote

/-- A character that closes nothing. -/
theorem staysOpen_cons_iff (goesOn : ¬ (character = '"' ∧ IsFresh front)) :
    StaysOpen front (character :: rest) ↔ StaysOpen (front ++ [character]) rest := by
  have same : front ++ [character] ++ rest = front ++ character :: rest := by
    rw [List.append_assoc, List.singleton_append]
  have length : (front ++ [character]).length = front.length + 1 := by
    rw [List.length_append, List.length_singleton]
  constructor
  · intro stays place behind
    rw [same]
    exact stays place (by omega)
  · intro stays place behind closes
    by_cases here : place = front.length
    · rw [here] at closes
      exact goesOn (closesAt_append_iff.mp closes)
    · rw [← same] at closes
      exact stays place (by omega) closes

def IsInert (character : Char) : Prop := character ≠ '"' ∧ character ≠ '\\'

theorem staysOpen_inert (fresh : IsFresh front) (inert : ∀ character ∈ covered, IsInert character) :
    IsFresh (front ++ covered) ∧
      (StaysOpen front (covered ++ rest) ↔ StaysOpen (front ++ covered) rest) := by
  induction covered generalizing front with
  | nil =>
      rw [List.append_nil]
      exact ⟨fresh, Iff.rfl⟩
  | cons character covered ih =>
      obtain ⟨⟨noQuote, noBackslash⟩, others⟩ := List.forall_mem_cons.mp inert
      have next : IsFresh (front ++ [character]) := by
        rw [IsFresh, trailingBackslashes_other front noBackslash]
      obtain ⟨further, stays⟩ := ih next others
      rw [List.append_assoc, List.singleton_append] at further stays
      constructor
      · exact further
      · rw [List.cons_append, staysOpen_cons_iff (fun closes => noQuote closes.1)]
        exact stays

/-- A backslash and the character that it escapes. -/
theorem staysOpen_escaped (character : Char) (rest : List Char) (fresh : IsFresh front) :
    IsFresh (front ++ ['\\', character]) ∧
      (StaysOpen front ('\\' :: character :: rest) ↔ StaysOpen (front ++ ['\\', character]) rest) := by
  rw [IsFresh] at fresh
  have escaped : ¬ IsFresh (front ++ ['\\']) := by
    rw [IsFresh, trailingBackslashes_backslash]
    omega
  have split : front ++ ['\\', character] = front ++ ['\\'] ++ [character] := by
    rw [List.append_assoc, List.singleton_append]
  rw [split]
  constructor
  · by_cases again : character = '\\'
    · rw [IsFresh, again, trailingBackslashes_backslash, trailingBackslashes_backslash]
      omega
    · rw [IsFresh, trailingBackslashes_other _ again]
  · have backslash : ('\\' : Char) ≠ '"' := by decide
    rw [staysOpen_cons_iff (fun closes => backslash closes.1),
      staysOpen_cons_iff (fun closes => escaped closes.2)]

end Open

/-! ### Pieces -/

section Pieces

variable {text rest : List Char}

theorem take_runLength (test : Char → Bool) (text : List Char) :
    text.take (runLength test text) = text.takeWhile test :=
  (List.prefix_iff_eq_take.mp (List.takeWhile_prefix test)).symm

theorem inert_run {test : Char → Bool} (inert : ∀ character, test character = true → IsInert character)
    (text : List Char) : ∀ character ∈ text.take (runLength test text), IsInert character := by
  rw [take_runLength]
  exact fun character among => inert character (List.mem_takeWhile_imp among)

/-- A run that is counted up to a limit. -/
theorem inert_limited {test : Char → Bool}
    (inert : ∀ character, test character = true → IsInert character) (limit : Nat) (text : List Char) :
    ∀ character ∈ text.take (runLength test (text.take limit)), IsInert character := by
  have run := runLength_le test (text.take limit)
  rw [List.length_take] at run
  have same : text.take (runLength test (text.take limit)) =
      (text.take limit).take (runLength test (text.take limit)) := by
    rw [List.take_take, Nat.min_eq_left (by omega)]
  rw [same]
  exact inert_run inert (text.take limit)

theorem isInert_of_range {character : Char} (least : 48 ≤ code character) (most : code character ≠ 92) :
    IsInert character := by
  constructor
  · rintro rfl
    exact absurd least (by decide)
  · rintro rfl
    exact most rfl

theorem isInert_hexDigit (character : Char) (digit : isHexDigit character = true) :
    IsInert character := by
  simp only [isHexDigit, isDigit, Bool.or_eq_true, Bool.and_eq_true, decide_eq_true_eq] at digit
  exact isInert_of_range (by omega) (by omega)

theorem isInert_octalDigit (character : Char) (digit : isOctalDigit character = true) :
    IsInert character := by
  simp only [isOctalDigit, Bool.and_eq_true, decide_eq_true_eq] at digit
  exact isInert_of_range (by omega) (by omega)

theorem isInert_plain (character : Char) (plain : isPlainContent character = true) :
    IsInert character := by
  simp only [isPlainContent, Bool.not_eq_true', Bool.or_eq_false_iff] at plain
  constructor
  · rintro rfl
    exact absurd plain.1.1 (by decide)
  · rintro rfl
    exact absurd plain.1.2 (by decide)

theorem inert_braced {rest : List Char} (opens : nextIs '\x7b' rest = true) :
    ∃ count, (bracedEscape rest).2 = count + 1 ∧ ∀ other ∈ rest.take count, IsInert other := by
  cases rest with
  | nil => cases opens
  | cons brace digits =>
      obtain rfl := (is_iff _ _).mp opens
      have brace : IsInert '\x7b' := by
        constructor <;> decide
      have run := inert_run isInert_hexDigit digits
      rw [bracedEscape, List.drop_succ_cons, List.drop_zero]
      split
      · next closes =>
          have behind := (Bool.and_eq_true_iff.mp closes).2
          rw [List.drop_succ_cons] at behind
          refine ⟨runLength isHexDigit digits + 2, rfl, ?_⟩
          rw [List.take_succ_cons]
          cases left : digits.drop (runLength isHexDigit digits) with
          | nil =>
              rw [left] at behind
              cases behind
          | cons closing after =>
              rw [left] at behind
              obtain rfl := (is_iff _ _).mp behind
              have last : digits[runLength isHexDigit digits]? = some '\x7d' := by
                rw [← List.head?_drop, left, List.head?_cons]
              rw [List.take_add_one, last, Option.toList_some, List.forall_mem_cons,
                List.forall_mem_append, List.forall_mem_singleton]
              exact ⟨brace, run, by decide, by decide⟩
      · refine ⟨runLength isHexDigit digits + 1, rfl, ?_⟩
        rw [List.take_succ_cons]
        exact List.forall_mem_cons.mpr ⟨brace, run⟩

theorem inert_single (character : Char) (rest : List Char) :
    ∃ count, max (lineBreakLength (character :: rest)) (characterLength (character :: rest)) = count + 1 ∧
      ∀ other ∈ rest.take count, IsInert other := by
  have one : characterLength (character :: rest) = 1 := rfl
  rw [one, lineBreakLength]
  split
  · exact ⟨0, rfl, List.forall_mem_nil _⟩
  split
  · next breaks =>
      refine ⟨1, rfl, ?_⟩
      cases rest with
      | nil => exact List.forall_mem_nil _
      | cons feed rest =>
          obtain rfl := (is_iff _ _).mp (Bool.and_eq_true_iff.mp breaks).2
          refine List.forall_mem_singleton.mpr ⟨by decide, by decide⟩
  · exact ⟨0, rfl, List.forall_mem_nil _⟩

/-- What an escape sequence covers besides the character behind its backslash. -/
theorem inert_escape (character : Char) (rest : List Char) :
    ∃ count, (escapeAfterBackslash (character :: rest)).2 = count + 1 ∧
      ∀ other ∈ rest.take count, IsInert other := by
  rw [escapeAfterBackslash]
  split
  · exact ⟨_, rfl, inert_limited isInert_hexDigit 2 rest⟩
  split
  · split
    · next opens => exact inert_braced opens
    · exact ⟨_, rfl, inert_limited isInert_hexDigit 4 rest⟩
  split
  · split
    · next eight =>
        have digits := inert_limited isInert_hexDigit 8 rest
        have count : runLength isHexDigit (rest.take 8) = 8 := eq_of_beq eight
        rw [count] at digits
        exact ⟨8, rfl, digits⟩
    · exact ⟨0, rfl, List.forall_mem_nil _⟩
  split
  · next octal =>
      refine ⟨runLength isOctalDigit (rest.take 2), ?_, inert_limited isInert_octalDigit 2 rest⟩
      simp [runLength, octal]
  · exact inert_single character rest

/-- The piece of a string at a character that is neither quote nor backslash. -/
theorem stringPiece_inert {character : Char} (inert : IsInert character) (rest : List Char) :
    (stringPiece (character :: rest)).1 ≠ .close ∧
      ∀ other ∈ (character :: rest).take (stringPiece (character :: rest)).2, IsInert other := by
  have noQuote : ¬ is '"' character = true := fun same => inert.1 ((is_iff _ _).mp same)
  have noBackslash : ¬ is '\\' character = true := fun same => inert.2 ((is_iff _ _).mp same)
  rw [stringPiece, if_neg noQuote, if_neg noBackslash]
  split
  · exact ⟨StringPiece.noConfusion, List.forall_mem_singleton.mpr inert⟩
  · exact ⟨StringPiece.noConfusion, inert_run isInert_plain (character :: rest)⟩

theorem stringLexemesFrom_nil (bound : List Char) : stringLexemesFrom bound [] = none := by
  rw [stringLexemesFrom.eq_def]
  rfl

/-- A string has no lexemes of its own just if no quote closes it. -/
theorem stringLexemesFrom_eq_none_iff {bound text front : List Char}
    (enough : text.length ≤ bound.length) (fresh : IsFresh front) :
    stringLexemesFrom bound text = none ↔ StaysOpen front text := by
  induction bound generalizing text front with
  | nil =>
      obtain rfl := List.length_eq_zero_iff.mp (Nat.le_zero.mp enough)
      exact iff_of_true (stringLexemesFrom_nil []) (staysOpen_nil front)
  | cons bounding bound ih =>
      cases text with
      | nil => exact iff_of_true (stringLexemesFrom_nil _) (staysOpen_nil front)
      | cons character rest =>
      have more := stringPiece_goesOn character rest
      have shorter {length : Nat} (some : 0 < length) :
          ((character :: rest).drop length).length ≤ bound.length := by
        rw [List.length_cons, List.length_cons] at enough
        rw [List.length_drop, List.length_cons]
        omega
      by_cases inert : IsInert character
      · obtain ⟨unclosed, all⟩ := stringPiece_inert inert rest
        obtain ⟨next, stays⟩ := staysOpen_inert fresh all
        rw [List.take_append_drop] at stays
        rw [stringLexemesFrom_cons (Prod.eta _).symm more unclosed, Option.map_eq_none_iff, stays]
        exact ih (shorter (stringPiece_pos character rest)) next
      · by_cases quote : character = '"'
        · subst quote
          rw [stringLexemesFrom_close]
          refine iff_of_false (fun none => by cases none) ?_
          intro stays
          exact stays front.length (Nat.le_refl _) (closesAt_append_iff.mpr ⟨rfl, fresh⟩)
        · have backslash : character = '\\' := by
            by_contra other
            exact inert ⟨quote, other⟩
          subst backslash
          have scanned : stringPiece ('\\' :: rest) =
              (.escape (escapeAfterBackslash rest).1, (escapeAfterBackslash rest).2 + 1) := rfl
          rw [stringLexemesFrom_cons scanned StringPiece.noConfusion StringPiece.noConfusion,
            Option.map_eq_none_iff]
          cases rest with
          | nil =>
              -- A backslash at the end of the source escapes nothing.
              rw [staysOpen_cons_iff (fun closes => quote closes.1)]
              exact iff_of_true (stringLexemesFrom_nil bound) (staysOpen_nil _)
          | cons escaped rest =>
              obtain ⟨count, length, all⟩ := inert_escape escaped rest
              obtain ⟨behind, opens⟩ := staysOpen_escaped escaped rest fresh
              obtain ⟨next, stays⟩ := staysOpen_inert behind all
              rw [List.take_append_drop] at stays
              have short := shorter (Nat.succ_pos (count + 1))
              rw [List.drop_succ_cons, List.drop_succ_cons] at short
              rw [length, List.drop_succ_cons, List.drop_succ_cons, opens, stays]
              exact ih short next

end Pieces

/-! ### The source -/

theorem frontLexemes_unclosed {rest : List Char} (unclosed : ∀ place, ¬ ClosesAt rest place) :
    frontLexemes '"' rest = [.faulty .error ('"' :: rest) .none .unterminatedString] := by
  have front : frontLexemes '"' rest = stringLexemes ('"' :: rest) := rfl
  have enough : rest.length ≤ ('"' :: rest).length := Nat.le_succ rest.length
  have fresh : IsFresh [] := rfl
  have none := (stringLexemesFrom_eq_none_iff enough fresh).mpr (fun place _ => unclosed place)
  rw [front, stringLexemes, List.drop_succ_cons, List.drop_zero, none]

/-- The round at the quote takes the rest of the source. -/
theorem LexState.after_unclosed {source rest : List Char} {count : Nat} {quote : LexState}
    (reached : after source count = quote) (meets : quote.rest = '"' :: rest)
    (unclosed : ∀ place, ¬ ClosesAt rest place) :
    after source (count + 1) =
      ⟨quote.tokens ++
          [⟨.error, ⟨quote.offset, utf8Length source⟩, .none, String.ofList ('"' :: rest)⟩],
        quote.errors ++ [⟨⟨quote.offset, utf8Length source⟩, .unterminatedString⟩],
        utf8Length source, []⟩ := by
  have joined : joinLexemes [.faulty .error ('"' :: rest) .none .unterminatedString] = '"' :: rest :=
    List.flatMap_singleton _ _
  have place := after_place source count
  rw [reached, meets] at place
  rw [after_succ, reached, step_emit meets, frontLexemes_unclosed unclosed, emit, joined, meets,
    List.drop_length, place, ← place]
  rfl

/-- When the lexer meets a quote whose string never closes, it stops with what it had emitted before the quote
and one error from there up to the end of the source. -/
theorem lex_unterminated_string {source rest : List Char} {count : Nat} {quote : LexState}
    (reached : LexState.after source count = quote) (meets : quote.rest = '"' :: rest)
    (unclosed : ∀ place, ¬ ClosesAt rest place) :
    (∃ before, source = before ++ '"' :: rest ∧ quote.offset = utf8Length before) ∧
      LexState.after source (count + 1) =
        ⟨quote.tokens ++
            [⟨.error, ⟨quote.offset, utf8Length source⟩, .none, String.ofList ('"' :: rest)⟩],
          quote.errors ++ [⟨⟨quote.offset, utf8Length source⟩, .unterminatedString⟩],
          utf8Length source, []⟩ ∧
      lex source =
        ⟨quote.tokens ++
            [⟨.error, ⟨quote.offset, utf8Length source⟩, .none, String.ofList ('"' :: rest)⟩,
              .endOfFile (utf8Length source)],
          quote.errors ++ [⟨⟨quote.offset, utf8Length source⟩, .unterminatedString⟩]⟩ := by
  have ended := LexState.after_unclosed reached meets unclosed
  refine ⟨?_, ended, ?_⟩
  · have place := LexState.after_place source count
    obtain ⟨before, whole⟩ := LexState.after_suffix source count
    rw [reached, meets] at place whole
    refine ⟨before, whole.symm, ?_⟩
    rw [← whole, utf8Length_append] at place
    omega
  · have finished := congrArg LexState.rest ended
    rw [LexState.lex_eq_finish_of_end finished, ended, LexState.finish]
    simp only [List.append_assoc, List.singleton_append]

/-- A string with an invalid escape, a line break and an escaped quote, behind an invalid character. -/
theorem lex_unterminated_string_escapes :
    (LexState.after ['?', '"', '\\', 'x', 'Z', '\n', '\\', '"'] 1).rest =
        '"' :: ['\\', 'x', 'Z', '\n', '\\', '"'] ∧
      (∀ place, ¬ ClosesAt ['\\', 'x', 'Z', '\n', '\\', '"'] place) ∧
      (lex ['?', '"', '\\', 'x', 'Z', '\n', '\\', '"']).errors =
        [⟨⟨0, 1⟩, .invalidCharacter '?'⟩, ⟨⟨1, 8⟩, .unterminatedString⟩] := by
  have meets : (LexState.after ['?', '"', '\\', 'x', 'Z', '\n', '\\', '"'] 1).rest =
      '"' :: ['\\', 'x', 'Z', '\n', '\\', '"'] := by
    decide
  have before : (LexState.after ['?', '"', '\\', 'x', 'Z', '\n', '\\', '"'] 1).errors =
      [⟨⟨0, 1⟩, .invalidCharacter '?'⟩] := by
    decide
  have unclosed : ∀ place, ¬ ClosesAt ['\\', 'x', 'Z', '\n', '\\', '"'] place := by
    intro place closes
    have within : place < 6 := (List.getElem?_eq_some_iff.mp closes.quote).1
    have checked : ∀ place < 6, ¬ ClosesAt ['\\', 'x', 'Z', '\n', '\\', '"'] place := by
      decide
    exact checked place within closes
  have stops := congrArg Lexed.errors (lex_unterminated_string rfl meets unclosed).2.2
  rw [before] at stops
  exact ⟨meets, unclosed, stops⟩

end JaiSyntax

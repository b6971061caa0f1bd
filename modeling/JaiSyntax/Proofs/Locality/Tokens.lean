import JaiSyntax.Proofs.Lexer.Concatenation
import JaiSyntax.Proofs.Locality.Shift
/-!
The tokens and the stops of two sources one after another, where the first one ends with a delimiter:
those of the first source, and then those of the second one moved behind it.
-/

set_option autoImplicit false

namespace JaiSyntax

variable {offset : Nat}

/-! ### Tokens and lexical errors -/

theorem tokensFrom_shift (offset start : Nat) (pieces : List Lexeme) :
    tokensFrom (start + offset) pieces = (tokensFrom start pieces).map (Token.shift offset) := by
  induction pieces generalizing start with
  | nil => rfl
  | cons piece rest ih =>
      have place : start + offset + utf8Length piece.text = start + utf8Length piece.text + offset := by
        omega
      simp only [tokensFrom, List.map_cons, place, ih]
      rfl

theorem tokensFrom_append (start : Nat) (first second : List Lexeme) :
    tokensFrom start (first ++ second) =
      tokensFrom start first ++ tokensFrom (start + utf8Length (joinLexemes first)) second := by
  induction first generalizing start with
  | nil => rfl
  | cons piece rest ih =>
      have front : joinLexemes (piece :: rest) = piece.text ++ joinLexemes rest := List.flatMap_cons
      simp only [List.cons_append, tokensFrom, ih, front, utf8Length_append, Nat.add_assoc]

theorem lexErrorsFrom_shift (offset start : Nat) (pieces : List Lexeme) :
    lexErrorsFrom (start + offset) pieces =
      (lexErrorsFrom start pieces).map (LexError.shift offset) := by
  induction pieces generalizing start with
  | nil => rfl
  | cons piece rest ih =>
      have place (text : List Char) :
          start + offset + utf8Length text = start + utf8Length text + offset := by
        omega
      rw [lexErrorsFrom, lexErrorsFrom, place, ih]
      cases piece.problem with
      | none => rfl
      | some problem =>
          simp only [place, List.map_cons]
          rfl

theorem lexErrorsFrom_append (start : Nat) (first second : List Lexeme) :
    lexErrorsFrom start (first ++ second) =
      lexErrorsFrom start first ++
        lexErrorsFrom (start + utf8Length (joinLexemes first)) second := by
  induction first generalizing start with
  | nil => rfl
  | cons piece rest ih =>
      have front : joinLexemes (piece :: rest) = piece.text ++ joinLexemes rest := List.flatMap_cons
      rw [List.cons_append, lexErrorsFrom, lexErrorsFrom, ih, front, utf8Length_append, Nat.add_assoc]
      cases piece.problem with
      | none => rfl
      | some problem => rfl

/-- A lexical error starts with its lexeme. -/
theorem lexErrorsFrom_start (start : Nat) {pieces : List Lexeme}
    (some : ∀ piece ∈ pieces, piece.text ≠ []) :
    ∀ error ∈ lexErrorsFrom start pieces,
      error.span.start < start + utf8Length (joinLexemes pieces) := by
  induction pieces generalizing start with
  | nil => exact List.forall_mem_nil _
  | cons piece rest ih =>
      obtain ⟨first, later⟩ := List.forall_mem_cons.mp some
      have positive := utf8Length_pos first
      have front : joinLexemes (piece :: rest) = piece.text ++ joinLexemes rest := List.flatMap_cons
      have further := ih (start + utf8Length piece.text) later
      rw [front, utf8Length_append, ← Nat.add_assoc, lexErrorsFrom]
      cases piece.problem with
      | none => exact further
      | some problem =>
          apply List.forall_mem_cons.mpr ⟨_, further⟩
          change start < _
          omega

/-- Where the last token of some tokens stands, and the others before it. -/
theorem Tiles.around_last {source : List Char} {start stop : Nat} {front : List Token} {last : Token}
    (tiles : Tiles source start (front ++ [last]) stop) :
    start ≤ last.span.start ∧ last.span.start < stop ∧ last.span.stop = stop ∧
      ∀ token ∈ front, token.span.start < stop ∧ token.span.stop < stop := by
  induction front generalizing start with
  | nil =>
      cases tiles with
      | cons starts boundary some later =>
          cases later with
          | none => exact ⟨starts.ge, starts ▸ some, rfl, List.forall_mem_nil _⟩
  | cons token rest ih =>
      cases tiles with
      | cons starts boundary some later =>
          obtain ⟨after, near, ends, within⟩ := ih later
          refine ⟨by omega, near, ends, List.forall_mem_cons.mpr ⟨?_, within⟩⟩
          constructor <;> omega

/-! ### Lexing two sources -/

/-- The lexeme of the last token of a source. -/
theorem lexemes_last {source : List Char} {front : List Token} {last : Token}
    (same : contentTokens source = front ++ [last]) :
    ∃ (pieces : List Lexeme) (piece : Lexeme), lexemes source = pieces ++ [piece] ∧
      piece.kind = last.kind := by
  rw [contentTokens_eq] at same
  have some : lexemes source ≠ [] := by
    intro none
    rw [none] at same
    cases front <;> cases same
  have parted := List.dropLast_concat_getLast some
  rw [← parted, tokensFrom_append] at same
  exact ⟨_, _, parted.symm, congrArg Token.kind (List.singleton_inj.mp (List.append_inj' same rfl).2)⟩

/-- A source whose lexemes go on with those of another source has the tokens and the errors of that one
behind its own. -/
theorem lex_of_lexemes {source rest : List Char} {pieces : List Lexeme}
    (same : lexemes source = pieces ++ lexemes rest) :
    (lex source).tokens =
        tokensFrom 0 pieces ++ (lex rest).tokens.map (Token.shift (utf8Length (joinLexemes pieces))) ∧
      (lex source).errors =
        lexErrorsFrom 0 pieces ++
          (lex rest).errors.map (LexError.shift (utf8Length (joinLexemes pieces))) := by
  have whole : source = joinLexemes pieces ++ rest := by
    rw [← joinLexemes_lexemes source, same, joinLexemes, List.flatMap_append]
    exact congrArg _ (joinLexemes_lexemes rest)
  have ending : Token.endOfFile (utf8Length source) =
      (Token.endOfFile (utf8Length rest)).shift (utf8Length (joinLexemes pieces)) := by
    rw [whole, utf8Length_append, Nat.add_comm]
    rfl
  constructor
  · rw [lex, lex, same, tokensFrom_append, tokensFrom_shift, ending, List.map_append,
      List.map_singleton, List.append_assoc]
  · rw [lex, lex, same, lexErrorsFrom_append, lexErrorsFrom_shift]

/-- A source whose last token is a delimiter has the same tokens and errors in front of any other
source, whose tokens and errors are moved behind it. -/
theorem lex_append {source : List Char} {front : List Token} {last : Token}
    (same : contentTokens source = front ++ [last]) (ends : last.kind.isDelimiter = true)
    (more : List Char) :
    (lex (source ++ more)).tokens =
        contentTokens source ++ (lex more).tokens.map (Token.shift (utf8Length source)) ∧
      (lex (source ++ more)).errors =
        (lex source).errors ++ (lex more).errors.map (LexError.shift (utf8Length source)) := by
  obtain ⟨pieces, piece, last', kind⟩ := lexemes_last same
  have joined := lex_of_lexemes (lexemes_append last' (kind ▸ ends) more).1
  rw [joinLexemes_lexemes] at joined
  rw [contentTokens_eq]
  exact joined

/-- Lexing is compositional at delimiters. A source whose last token before the end of the file is a
bracket, a brace, a comma or a semicolon keeps its tokens and errors in front of any other source, and
the tokens and errors of that one are moved behind it. -/
theorem lex_concatenation {source : List Char} {last : Token}
    (content : (lex source).tokens.dropLast.getLast? = some last)
    (ends : last.kind.isDelimiter = true) (more : List Char) :
    (lex (source ++ more)).tokens =
        (lex source).tokens.dropLast ++ (lex more).tokens.map (Token.shift (utf8Length source)) ∧
      (lex (source ++ more)).errors =
        (lex source).errors ++ (lex more).errors.map (LexError.shift (utf8Length source)) := by
  have front : (lex source).tokens.dropLast = contentTokens source := by
    rw [lex_tokens, List.dropLast_concat]
  rw [front] at content ⊢
  obtain ⟨before, same⟩ := List.getLast?_eq_some_iff.mp content
  exact lex_append same ends more

/-- A number that ends in an underscore before a comma, and a string behind it that is not closed. -/
theorem lex_concatenation_of_comma :
    (lex "? 0x1_,".toList).tokens.dropLast.getLast? = some ⟨.comma, ⟨6, 7⟩, .none, ","⟩ ∧
      (lex "? 0x1_,2\"é".toList).tokens = (lex "? 0x1_,".toList).tokens.dropLast ++
        (lex "2\"é".toList).tokens.map (Token.shift 7) ∧
      (lex "? 0x1_,2\"é".toList).errors = (lex "? 0x1_,".toList).errors ++
        (lex "2\"é".toList).errors.map (LexError.shift 7) := by
  have content : (lex "? 0x1_,".toList).tokens.dropLast.getLast? =
      some ⟨.comma, ⟨6, 7⟩, .none, ","⟩ := by decide +kernel
  exact ⟨content, lex_concatenation content rfl "2\"é".toList⟩

/-- The lexical errors of a source start inside it. -/
theorem lex_errors_start (source : List Char) :
    ∀ error ∈ (lex source).errors, error.span.start < utf8Length source := by
  have starts := lexErrorsFrom_start 0 (lexemes_nonempty source)
  rwa [joinLexemes_lexemes, Nat.zero_add] at starts

/-! ### Stops -/

theorem noticeLength_shift (offset : Nat) (tokens : List Token) :
    noticeLength (tokens.map (Token.shift offset)) = noticeLength tokens := by
  have extras : (fun token : Token => token.kind.isExtra) ∘ Token.shift offset =
      fun token => token.kind.isExtra := rfl
  have parts : isStringPart ∘ Token.shift offset = isStringPart := rfl
  simp only [noticeLength, List.takeWhile_map, List.length_map, ← List.map_drop, extras]
  cases tokens.drop (tokens.takeWhile (fun token => token.kind.isExtra)).length with
  | nil => rfl
  | cons first rest =>
      simp only [List.map_cons, Token.kind_shift, List.takeWhile_map, List.length_map,
        ← List.map_drop, parts]
      cases rest.drop (rest.takeWhile isStringPart).length with
      | nil => rfl
      | cons last after => rfl

/-- The parts of tokens elsewhere are the same parts elsewhere. -/
theorem partTokens_shift (offset : Nat) (bound tokens : List Token) :
    partTokens (bound.map (Token.shift offset)) (tokens.map (Token.shift offset)) =
      ((partTokens bound tokens).1.map (Extra.shift offset),
        (partTokens bound tokens).2.map (Stop.shift offset)) := by
  have deprecation (token : Token) : isDeprecation (token.shift offset) = isDeprecation token := rfl
  induction bound generalizing tokens with
  | nil => cases tokens <;> rfl
  | cons bounding bound ih =>
      cases tokens with
      | nil => rfl
      | cons token rest =>
          simp only [List.map_cons, partTokens, Token.kind_shift, deprecation, noticeLength_shift,
            ← List.map_drop, ← List.map_take, ih]
          split
          · rfl
          split
          · rfl
          split
          · rfl
          · rfl

/-- A bound on the number of tokens does not matter, if it is no less than the tokens. -/
theorem partTokens_bounds (first second tokens : List Token) (enough : tokens.length ≤ first.length)
    (also : tokens.length ≤ second.length) : partTokens first tokens = partTokens second tokens := by
  induction first generalizing second tokens with
  | nil =>
      cases tokens with
      | nil => simp [partTokens]
      | cons token rest => cases enough
  | cons bounding first ih =>
      cases tokens with
      | nil => simp [partTokens]
      | cons token rest =>
          cases second with
          | nil => cases also
          | cons otherBounding second =>
              rw [List.length_cons, List.length_cons] at enough also
              have next := ih second rest (by omega) (by omega)
              have later := ih second (rest.drop (noticeLength rest))
                (by rw [List.length_drop]; omega) (by rw [List.length_drop]; omega)
              simp only [partTokens, next, later]

/-- No extra is empty. -/
theorem partTokens_nonempty (bound tokens : List Token) :
    (∀ extra ∈ (partTokens bound tokens).1, extra.tokens ≠ []) ∧
      ∀ stop ∈ (partTokens bound tokens).2, stop.token ∈ tokens ∧
        ∀ extra ∈ stop.gap, extra.tokens ≠ [] := by
  obtain ⟨gap, stops⟩ := forall_partTokens (fun extra => extra.tokens ≠ [])
    (fun token _ => List.cons_ne_nil token []) (fun token _ _ => List.cons_ne_nil token _)
    bound tokens
  exact ⟨gap, fun stop member => ⟨(stops stop member).2.1, (stops stop member).1⟩⟩

/-- A notice does not go over a semicolon. -/
theorem noticeLength_append {semicolon : Token} (kind : semicolon.kind = .semicolon)
    (front more : List Token) :
    noticeLength (front ++ semicolon :: more) = noticeLength front := by
  have extra : semicolon.kind.isExtra = false := by
    rw [kind]
    rfl
  have part : isStringPart semicolon = false := by
    unfold isStringPart
    rw [kind]
    rfl
  have solid : (front ++ semicolon :: more).takeWhile (fun token => token.kind.isExtra) =
      front.takeWhile (fun token => token.kind.isExtra) :=
    @takeWhile_append_stop Token (fun token => token.kind.isExtra) semicolon extra front more
  have within := (front.takeWhile_sublist (fun token => token.kind.isExtra)).length_le
  simp only [noticeLength, solid, List.drop_append_of_le_length within]
  cases front.drop (front.takeWhile (fun token => token.kind.isExtra)).length with
  | nil => simp [kind]
  | cons first rest =>
      have parts := takeWhile_append_stop part rest more
      have inside := (rest.takeWhile_sublist isStringPart).length_le
      simp only [List.cons_append, parts, List.drop_append_of_le_length inside]
      cases rest.drop (rest.takeWhile isStringPart).length with
      | nil => simp [kind]
      | cons last after => rfl

theorem noticeLength_le (tokens : List Token) : noticeLength tokens ≤ tokens.length := by
  have dropped := tokens.length_drop (i := (tokens.takeWhile (fun token => token.kind.isExtra)).length)
  unfold noticeLength
  simp only
  split
  · exact Nat.zero_le _
  next first rest same =>
  have further := rest.length_drop (i := (rest.takeWhile isStringPart).length)
  have parts := (rest.takeWhile_sublist isStringPart).length_le
  rw [same, List.length_cons] at dropped
  split
  · split
    · omega
    next last after closed =>
    rw [closed, List.length_cons] at further
    split <;> omega
  · split <;> omega

/-- The stops of tokens with a semicolon in them are those before it, the semicolon and those after. -/
theorem partTokens_append {semicolon : Token} (kind : semicolon.kind = .semicolon)
    (bound front more : List Token) (inside : ∀ token ∈ front, token.kind ≠ .eof)
    (enough : (front ++ semicolon :: more).length ≤ bound.length) :
    partTokens bound (front ++ semicolon :: more) =
      ((partTokens front front).1,
        (partTokens front front).2 ++
          ⟨semicolon, (partTokens more more).1⟩ :: (partTokens more more).2) := by
  induction bound generalizing front with
  | nil => simp at enough
  | cons bounding bound ih =>
      rw [List.length_append, List.length_cons, List.length_cons] at enough
      cases front with
      | nil =>
          have after := partTokens_bounds bound more more (by simp at enough; omega) (Nat.le_refl _)
          have solid : semicolon.kind.isExtra = false := by
            rw [kind]
            rfl
          have plain : isDeprecation semicolon = false := by
            unfold isDeprecation Token.isDirective
            rw [kind]
            rfl
          have notEnd : (semicolon.kind == .eof) = false := by
            rw [kind]
            rfl
          simp only [List.nil_append, partTokens, notEnd, solid, plain, after]
          rfl
      | cons token rest =>
          obtain ⟨notEnd, later⟩ := List.forall_mem_cons.mp inside
          rw [List.length_cons] at enough
          have short := noticeLength_le rest
          have next := ih rest later (by simp; omega)
          have further := ih (rest.drop (noticeLength rest))
            (fun other member => later other (List.mem_of_mem_drop member)) (by simp; omega)
          have alone := partTokens_bounds rest (rest.drop (noticeLength rest))
            (rest.drop (noticeLength rest)) (by simp) (Nat.le_refl _)
          have notEnd' : (token.kind == .eof) = false := by simpa using notEnd
          simp only [List.cons_append, partTokens, notEnd', noticeLength_append kind,
            List.drop_append_of_le_length short, List.take_append_of_le_length short, next,
            further, alone]
          split
          · rename_i absurd
            cases absurd
          split
          · rfl
          split
          · rfl
          · rfl

end JaiSyntax

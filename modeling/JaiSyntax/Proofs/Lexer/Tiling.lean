import JaiSyntax.Proofs.Lossless
/-!
The tokens of a source tile it. No lexeme is empty, so every token but the last takes some bytes of the
source, from where the token before it ends, and all of them fall on whole characters.
-/

set_option autoImplicit false

namespace JaiSyntax

/-! ### Lexemes are not empty -/

theorem take_ne_nil {character : Char} {rest : List Char} {length : Nat} (some : 1 ≤ length) :
    (character :: rest).take length ≠ [] := by
  intro empty
  rcases List.take_eq_nil_iff.mp empty with none | none
  · omega
  · cases none

/-- Every piece of a string takes a character. -/
theorem stringPiece_pos (character : Char) (rest : List Char) :
    0 < (stringPiece (character :: rest)).2 := by
  rw [stringPiece]
  split
  · exact Nat.one_pos
  split
  · exact Nat.succ_pos _
  split
  · exact Nat.one_pos
  · next noQuote noBackslash noFeed =>
      have plain : isPlainContent character = true := by
        simp [isPlainContent, noQuote, noBackslash, noFeed]
      simp [SourceUnit.runLength, plain]

theorem stringPiece_goesOn (character : Char) (rest : List Char) :
    (stringPiece (character :: rest)).1 ≠ .endOfInput := by
  rw [stringPiece]
  split
  · exact StringPiece.noConfusion
  split
  · exact StringPiece.noConfusion
  split <;> exact StringPiece.noConfusion

theorem stringPiece_nonempty {text : List Char} {piece : StringPiece} {length : Nat}
    (same : stringPiece text = (piece, length)) (more : piece ≠ .endOfInput) :
    text.take length ≠ [] := by
  cases text with
  | nil =>
      cases same
      exact absurd rfl more
  | cons character rest =>
      have positive := stringPiece_pos character rest
      rw [same] at positive
      exact take_ne_nil positive

theorem stringLexemesFrom_nonempty (bound text : List Char) (lexemes : List Lexeme)
    (closes : stringLexemesFrom bound text = some lexemes) :
    ∀ lexeme ∈ lexemes, lexeme.text ≠ [] := by
  fun_induction stringLexemesFrom bound text generalizing lexemes with
  | case1 bound text length same => cases closes
  | case2 bound text length same =>
      cases closes
      exact List.forall_mem_singleton.mpr (stringPiece_nonempty same StringPiece.noConfusion)
  | case3 text piece length more unclosed same => cases closes
  | case4 text piece length more unclosed same covered lexeme character bound ih =>
      obtain ⟨rest, later, rfl⟩ := Option.map_eq_some_iff.mp closes
      have some := stringPiece_nonempty same more
      refine List.forall_mem_cons.mpr ⟨?_, ih rest later⟩
      cases piece with
      | escape form =>
          change (escapeLexeme form covered).text ≠ []
          rw [(escapeLexeme_text _ _).1]
          exact some
      | _ => exact some

theorem stringLexemes_nonempty (character : Char) (rest : List Char) :
    ∀ lexeme ∈ stringLexemes (character :: rest), lexeme.text ≠ [] := by
  unfold stringLexemes
  split
  · next lexemes closes =>
      exact List.forall_mem_cons.mpr
        ⟨take_ne_nil (Nat.le_refl 1), stringLexemesFrom_nonempty _ _ lexemes closes⟩
  · exact List.forall_mem_singleton.mpr (List.cons_ne_nil character rest)

theorem unlessEmpty_nonempty (kind : TokenKind) (text : List Char) :
    ∀ lexeme ∈ unlessEmpty kind text, lexeme.text ≠ [] := by
  unfold unlessEmpty
  split
  · exact List.forall_mem_nil _
  · next some => exact List.forall_mem_singleton.mpr (fun none => some (List.isEmpty_iff.mpr none))

/-- A line that closes a heredoc has the delimiter after its blanks. -/
theorem closingIndent_delimiter {delimiter line : List Char} {blanks : Nat}
    (closes : closingIndent? delimiter line = some blanks) : delimiter <+: line.drop blanks := by
  unfold closingIndent? at closes
  simp only at closes
  split at closes
  · next front =>
      have starts := List.isPrefixOf_iff_prefix.mp front
      split at closes
      · cases closes
        exact starts
      · split at closes
        · cases closes
        · cases closes
          exact starts
  · cases closes

/-- Where a heredoc body is closed, its delimiter follows. -/
theorem heredocBodyFrom_delimiter {delimiter : List Char} (covered : Nat) (text : List Char)
    (total : Nat) (closes : heredocBodyFrom delimiter covered text = (true, total)) :
    covered ≤ total ∧ delimiter <+: text.drop (total - covered) := by
  induction text generalizing covered with
  | nil => cases closes
  | cons character rest ih =>
      have later (closes : heredocBodyFrom delimiter (covered + 1) rest = (true, total)) :
          covered ≤ total ∧ delimiter <+: (character :: rest).drop (total - covered) := by
        obtain ⟨least, front⟩ := ih (covered + 1) closes
        have extent : total - covered = total - (covered + 1) + 1 := by omega
        rw [extent, List.drop_succ_cons]
        exact ⟨by omega, front⟩
      rw [heredocBodyFrom] at closes
      split at closes
      · split at closes
        · next blanks found =>
            have same := (Prod.mk.inj closes).2
            have extent : total - covered = blanks + 1 := by omega
            rw [extent, List.drop_succ_cons]
            exact ⟨by omega, closingIndent_delimiter found⟩
        · exact later closes
      · exact later closes

theorem heredocDelimiter_nonempty {text : List Char} {blanks size : Nat}
    (found : heredocDelimiter text = (blanks, size)) (some : size ≠ 0) :
    (text.drop blanks).take size ≠ [] := by
  obtain ⟨rfl, rfl⟩ := Prod.mk.inj found
  intro empty
  rcases List.take_eq_nil_iff.mp empty with none | none
  · exact some none
  · rw [none] at some
    exact some rfl

theorem heredocLexemes_nonempty {length : Nat} (some : 1 ≤ length) (character : Char)
    (rest : List Char) :
    ∀ lexeme ∈ heredocLexemes length (character :: rest), lexeme.text ≠ [] := by
  have directive : (character :: rest).take length ≠ [] := take_ne_nil some
  unfold heredocLexemes
  simp only
  generalize (character :: rest).drop length = after
  cases found : heredocDelimiter after with
  | mk blanks size =>
  split
  · exact List.forall_mem_singleton.mpr directive
  next sized =>
  have delimiter : (after.drop blanks).take size ≠ [] :=
    heredocDelimiter_nonempty found (by simpa using sized)
  have front : ∀ lexeme ∈ Lexeme.plain .directive ((character :: rest).take length) ::
      unlessEmpty .whitespace (after.take blanks), lexeme.text ≠ [] :=
    List.forall_mem_cons.mpr ⟨directive, unlessEmpty_nonempty _ _⟩
  simp only
  split
  · next closes =>
      have closing := (heredocBodyFrom_delimiter 0 _ _ (Prod.ext closes rfl)).2
      have last : ∀ lexeme ∈ [Lexeme.plain .heredocEnd ((((after.drop blanks).drop size).drop
          (heredocBody ((after.drop blanks).take size) ((after.drop blanks).drop size)).2).take
            size)], lexeme.text ≠ [] := by
        refine List.forall_mem_singleton.mpr (fun empty => ?_)
        rcases List.take_eq_nil_iff.mp empty with none | none
        · exact absurd none (by simpa using sized)
        · exact delimiter (List.prefix_nil.mp (none ▸ closing))
      exact List.forall_mem_append.mpr ⟨List.forall_mem_append.mpr
        ⟨front, List.forall_mem_cons.mpr ⟨delimiter, unlessEmpty_nonempty _ _⟩⟩, last⟩
  · exact List.forall_mem_append.mpr
      ⟨front, List.forall_mem_cons.mpr ⟨delimiter, unlessEmpty_nonempty _ _⟩⟩

theorem fixedLexemes_nonempty (character : Char) (rest : List Char) :
    ∀ lexeme ∈ fixedLexemes character (character :: rest), lexeme.text ≠ [] := by
  unfold fixedLexemes
  split
  · next spelling kind same =>
      exact List.forall_mem_singleton.mpr
        (fixedSpellings_proper _ (List.mem_of_find?_eq_some same)).1
  · obtain ⟨length, least, front, -⟩ := lineCommentLexeme_cut (character :: rest)
    exact List.forall_mem_singleton.mpr (front ▸ take_ne_nil (by omega))
  · obtain ⟨length, least, front, -⟩ := blockCommentLexeme_cut (character :: rest)
    exact List.forall_mem_singleton.mpr (front ▸ take_ne_nil (by omega))
  · exact stringLexemes_nonempty character rest
  · exact List.forall_mem_singleton.mpr (List.cons_ne_nil character [])

theorem directiveLexemes_nonempty (character : Char) (rest : List Char) :
    ∀ lexeme ∈ directiveLexemes (character :: rest), lexeme.text ≠ [] := by
  have directive : (character :: rest).take (wordLength ((character :: rest).drop 1) + 1) ≠ [] :=
    take_ne_nil (Nat.le_add_left 1 _)
  unfold directiveLexemes
  simp only
  split
  · exact List.forall_mem_singleton.mpr directive
  split
  · exact heredocLexemes_nonempty (Nat.le_add_left 1 _) character rest
  · exact List.forall_mem_singleton.mpr directive

theorem frontLexemes_nonempty (character : Char) (rest : List Char) :
    ∀ lexeme ∈ frontLexemes character rest, lexeme.text ≠ [] := by
  have taken {length : Nat} (some : (length != 0) = true) : (character :: rest).take length ≠ [] :=
    take_ne_nil (Nat.pos_of_ne_zero (bne_iff_ne.mp some))
  unfold frontLexemes
  simp only
  split
  · next some => exact List.forall_mem_singleton.mpr (taken some)
  split
  · next some => exact List.forall_mem_singleton.mpr (taken some)
  split
  · next digit =>
      refine List.forall_mem_singleton.mpr ?_
      rw [(numberLexeme_text _ _).1]
      exact take_ne_nil (numberExtent_pos rest digit)
  split
  · exact directiveLexemes_nonempty character rest
  split
  · exact List.forall_mem_singleton.mpr (take_ne_nil (Nat.le_add_left 1 _))
  · exact fixedLexemes_nonempty character rest

/-- What holds of the lexemes at the front of every text holds of all lexemes of a source. -/
theorem forall_lexemes {holds : Lexeme → Prop}
    (front : ∀ character rest, ∀ lexeme ∈ frontLexemes character rest, holds lexeme)
    (source : List Char) : ∀ lexeme ∈ lexemes source, holds lexeme := by
  have all (bound text : List Char) : ∀ lexeme ∈ lexemesFrom bound text, holds lexeme := by
    induction bound generalizing text with
    | nil =>
        cases text with
        | nil => exact List.forall_mem_nil _
        | cons character rest => exact List.forall_mem_nil _
    | cons bounding bound ih =>
        cases text with
        | nil => exact List.forall_mem_nil _
        | cons character rest => exact List.forall_mem_append.mpr ⟨front character rest, ih _⟩
  exact all source source

/-- No lexeme of a source is empty. -/
theorem lexemes_nonempty (source : List Char) : ∀ lexeme ∈ lexemes source, lexeme.text ≠ [] :=
  forall_lexemes frontLexemes_nonempty source

/-! ### Tokens without gaps -/

/-- Whether an offset falls between whole characters of a source, or at one of its ends. -/
def IsBoundary (source : List Char) (offset : Nat) : Prop :=
  ∃ before after, source = before ++ after ∧ utf8Length before = offset

/-- Tokens that cover the bytes of a source from `start` to `stop`: each takes some bytes, and starts on
a whole character where the one before it ends. -/
inductive Tiles (source : List Char) : Nat → List Token → Nat → Prop where
  | none {offset : Nat} (boundary : IsBoundary source offset) : Tiles source offset [] offset
  | cons {start stop : Nat} {token : Token} {rest : List Token} (starts : token.span.start = start)
      (boundary : IsBoundary source start) (some : start < token.span.stop)
      (later : Tiles source token.span.stop rest stop) : Tiles source start (token :: rest) stop

theorem utf8Length_pos {text : List Char} (some : text ≠ []) : 0 < utf8Length text := by
  cases text with
  | nil => exact absurd rfl some
  | cons character rest => exact Nat.add_pos_left character.utf8Size_pos _

/-- Lexemes that are not empty become tokens without gaps. -/
theorem tokensFrom_tiles (source before : List Char) (pieces : List Lexeme)
    (some : ∀ lexeme ∈ pieces, lexeme.text ≠ []) (whole : source = before ++ joinLexemes pieces) :
    Tiles source (utf8Length before) (tokensFrom (utf8Length before) pieces) (utf8Length source) := by
  induction pieces generalizing before with
  | nil =>
      rw [whole, joinLexemes, List.flatMap_nil, List.append_nil]
      exact .none ⟨before, [], (List.append_nil before).symm, rfl⟩
  | cons lexeme rest ih =>
      obtain ⟨first, later⟩ := List.forall_mem_cons.mp some
      have front : joinLexemes (lexeme :: rest) = lexeme.text ++ joinLexemes rest :=
        List.flatMap_cons
      have further := ih (before ++ lexeme.text) later (by rw [whole, front, List.append_assoc])
      rw [utf8Length_append] at further
      rw [tokensFrom]
      exact .cons rfl ⟨before, _, whole, rfl⟩ (Nat.lt_add_of_pos_right (utf8Length_pos first)) further

theorem contentTokens_tile (source : List Char) :
    Tiles source 0 (contentTokens source) (utf8Length source) := by
  rw [contentTokens_eq]
  exact tokensFrom_tiles source [] (lexemes source) (lexemes_nonempty source)
    (joinLexemes_lexemes source).symm

/-- The end of the file is the last token of a source and the only one of its kind; the tokens before it
cover the source from its first byte to its last, and their texts join to it. -/
theorem lex_tiles (source : List Char) : ∃ content,
    (lex source).tokens = content ++ [.endOfFile (utf8Length source)] ∧
      (∀ token ∈ content, token.kind ≠ .eof) ∧
      Tiles source 0 content (utf8Length source) ∧
      content.flatMap (fun token => token.span.text source) = source ∧
      textOfTokens content = String.ofList source :=
  ⟨contentTokens source, lex_tokens source, contentTokens_kinds source, contentTokens_tile source,
    slices_contentTokens source, textOfTokens_contentTokens source⟩

end JaiSyntax

import JaiSyntax.Lexer.Basic
/-!
The lexer loses nothing. The lexemes at the front of a text are a prefix of it that is not empty, so
that the lexemes of a source join to it, and none of them ends the file.
-/

set_option autoImplicit false

namespace JaiSyntax

def joinLexemes (lexemes : List Lexeme) : List Char := lexemes.flatMap Lexeme.text

/-- Lexemes that are cut off the front of a text, none of which ends the file. -/
structure CutFrom (text : List Char) (lexemes : List Lexeme) : Prop where
  covers : joinLexemes lexemes <+: text
  kinds : ∀ lexeme ∈ lexemes, lexeme.kind ≠ .eof

theorem joinLexemes_length (lexemes : List Lexeme) :
    (joinLexemes lexemes).length = lexemesLength lexemes := by
  induction lexemes with
  | nil => rfl
  | cons lexeme rest ih =>
      rw [lexemesLength, ← ih, joinLexemes, List.flatMap_cons, List.length_append]
      rfl

namespace CutFrom

variable {text : List Char} {lexemes : List Lexeme}

theorem nil (text : List Char) : CutFrom text [] :=
  ⟨List.nil_prefix, fun _ member => (List.not_mem_nil member).elim⟩

theorem single {lexeme : Lexeme} (covers : lexeme.text <+: text) (kind : lexeme.kind ≠ .eof) :
    CutFrom text [lexeme] := by
  refine ⟨?_, fun other member => ?_⟩
  · simpa [joinLexemes] using covers
  · rw [List.mem_singleton.mp member]
    exact kind

/-- Lexemes after a lexeme of the first `length` characters. -/
theorem cons {lexeme : Lexeme} (length : Nat) (front : lexeme.text = text.take length)
    (kind : lexeme.kind ≠ .eof) (rest : CutFrom (text.drop length) lexemes) :
    CutFrom text (lexeme :: lexemes) := by
  refine ⟨?_, fun other member => ?_⟩
  · obtain ⟨after, joined⟩ := rest.covers
    refine ⟨after, ?_⟩
    rw [joinLexemes, List.flatMap_cons, front, List.append_assoc]
    exact (congrArg _ joined).trans (List.take_append_drop length text)
  · rcases List.mem_cons.mp member with rfl | further
    · exact kind
    · exact rest.kinds other further

/-- A lexeme that is left out when it is empty. -/
theorem unlessEmpty {kind : TokenKind} (length : Nat) (notEnd : kind ≠ .eof)
    (rest : CutFrom (text.drop length) lexemes) :
    CutFrom text (unlessEmpty kind (text.take length) ++ lexemes) := by
  unfold JaiSyntax.unlessEmpty
  split
  · next empty =>
      have none : text.take length = [] := List.isEmpty_iff.mp empty
      have same : text.drop length = text := by
        have whole := List.take_append_drop length text
        rwa [none, List.nil_append] at whole
      rwa [same] at rest
  · exact .cons length rfl notEnd rest

end CutFrom

/-! ### Numbers, comments, strings and heredocs -/

theorem integerLexeme_text (base : NumberBase) (text digits : List Char) :
    (integerLexeme base text digits).text = text ∧
      (integerLexeme base text digits).kind = .int := by
  unfold integerLexeme
  split <;> exact ⟨rfl, rfl⟩

theorem floatLexeme_text (base : NumberBase) (text : List Char) (bits : Option Nat)
    (fault : LexFault) :
    (floatLexeme base text bits fault).text = text ∧
      (floatLexeme base text bits fault).kind = .float := by
  unfold floatLexeme
  split <;> exact ⟨rfl, rfl⟩

theorem numberLexeme_kind (extent : NumberExtent) (text : List Char) :
    (numberLexeme extent text).kind = .int ∨ (numberLexeme extent text).kind = .float := by
  unfold numberLexeme
  split
  all_goals first
    | exact Or.inl (integerLexeme_text _ _ _).2
    | exact Or.inr (floatLexeme_text _ _ _ _).2

theorem numberLexeme_text (extent : NumberExtent) (text : List Char) :
    (numberLexeme extent text).text = text ∧ (numberLexeme extent text).kind ≠ .eof := by
  constructor
  · unfold numberLexeme
    split
    all_goals first | exact (integerLexeme_text _ _ _).1 | exact (floatLexeme_text _ _ _ _).1
  · rcases numberLexeme_kind extent text with kind | kind
    · rw [kind]
      exact TokenKind.noConfusion
    · rw [kind]
      exact TokenKind.noConfusion

theorem digitsFrom_le (digit : Char → Bool) (covered : Nat) (text : List Char) :
    covered ≤ digitsFrom digit covered text := by
  fun_induction digitsFrom digit covered text <;> omega

theorem numberExtent_pos {character : Char} (rest : List Char) (digit : character.isDigit = true) :
    1 ≤ (numberExtent (character :: rest)).length := by
  have decimal : 1 ≤ digitsLength isDecimalDigit (character :: rest) := by
    change 1 ≤ if character.isDigit then digitsFrom isDecimalDigit 1 rest else 0
    rw [if_pos digit]
    exact digitsFrom_le _ 1 rest
  have whole : 1 ≤ (decimalExtent (digitsLength isDecimalDigit (character :: rest))
      (character :: rest)).length := Nat.le_add_right_of_le decimal
  unfold numberExtent
  split
  · split
    · simp only
      split
      · exact Nat.le_add_right_of_le (Nat.le_succ 1)
      · refine Nat.le_add_right_of_le (?_ : 1 ≤ _ + 2 + _)
        omega
    · exact whole
  · exact whole

theorem blockCommentFrom_le (depth covered : Nat) (text : List Char) :
    covered ≤ (blockCommentFrom depth covered text).2 := by
  fun_induction blockCommentFrom depth covered text <;> grind

theorem lineCommentFrom_le (escaped : Bool) (covered : Nat) (text : List Char) :
    covered ≤ lineCommentFrom escaped covered text := by
  fun_induction lineCommentFrom escaped covered text <;> omega

theorem blockCommentLexeme_cut (text : List Char) :
    ∃ length, 2 ≤ length ∧ (blockCommentLexeme text).text = text.take length ∧
      (blockCommentLexeme text).kind ≠ .eof := by
  have least := blockCommentFrom_le 1 2 (text.drop 2)
  unfold blockCommentLexeme blockComment
  split
  · next length same =>
      rw [same] at least
      exact ⟨length, least, rfl, by simp [Lexeme.plain]⟩
  · next depth length same =>
      rw [same] at least
      exact ⟨length, least, rfl, by simp [Lexeme.faulty]⟩

theorem lineCommentLexeme_cut (text : List Char) :
    ∃ length, 2 ≤ length ∧ (lineCommentLexeme text).text = text.take length ∧
      (lineCommentLexeme text).kind ≠ .eof :=
  ⟨_, lineCommentFrom_le false 2 (text.drop 2), rfl, by simp [lineCommentLexeme, Lexeme.plain]⟩

theorem escapeLexeme_text (form : EscapeForm) (text : List Char) :
    (escapeLexeme form text).text = text ∧ (escapeLexeme form text).kind ≠ .eof := by
  unfold escapeLexeme
  split <;> exact ⟨rfl, by simp [Lexeme.faulty]⟩

theorem stringLexemesFrom_cut (bound text : List Char) (lexemes : List Lexeme)
    (closes : stringLexemesFrom bound text = some lexemes) : CutFrom text lexemes := by
  induction bound generalizing text lexemes with
  | nil =>
      unfold stringLexemesFrom at closes
      split at closes
      · cases closes
      · cases closes
        exact .single (List.take_prefix _ _) (by simp [Lexeme.plain])
      · cases closes
  | cons character bound ih =>
      unfold stringLexemesFrom at closes
      split at closes
      · cases closes
      · cases closes
        exact .single (List.take_prefix _ _) (by simp [Lexeme.plain])
      · next piece length _ _ _ =>
          simp only [Option.map_eq_some_iff] at closes
          obtain ⟨rest, later, rfl⟩ := closes
          have cut := ih _ rest later
          split
          · exact .cons length (escapeLexeme_text _ _).1 (escapeLexeme_text _ _).2 cut
          · exact .cons length rfl (by simp [Lexeme.plain]) cut

theorem stringLexemes_cut (text : List Char) : CutFrom text (stringLexemes text) := by
  unfold stringLexemes
  split
  · next lexemes closes =>
      exact .cons 1 rfl (by simp [Lexeme.plain]) (stringLexemesFrom_cut _ _ _ closes)
  · exact .single (List.prefix_refl _) (by simp [Lexeme.faulty])

theorem heredocLexemes_cut (length : Nat) (text : List Char) :
    CutFrom text (heredocLexemes length text) := by
  unfold heredocLexemes
  simp only
  split
  · exact .single (List.take_prefix _ _) (by simp [Lexeme.faulty])
  split
  · rw [List.cons_append, List.cons_append, List.append_assoc]
    refine .cons length rfl (by simp [Lexeme.plain]) (.unlessEmpty _ (by decide) ?_)
    rw [List.cons_append]
    refine .cons _ rfl (by simp [Lexeme.plain]) (.unlessEmpty _ (by decide) ?_)
    exact .single (List.take_prefix _ _) (by simp [Lexeme.plain])
  · rw [List.cons_append]
    refine .cons length rfl (by simp [Lexeme.plain]) (.unlessEmpty _ (by decide) ?_)
    refine .cons _ rfl (by simp) ?_
    rw [← List.append_nil (unlessEmpty _ _)]
    exact .unlessEmpty _ (by decide) (.nil _)

/-! ### The lexemes of a source -/

theorem fixedSpellings_proper :
    ∀ entry ∈ fixedSpellings, entry.1 ≠ [] ∧ entry.2 ≠ .token .eof := by
  decide

/-- What a fixed spelling that was found says of the text. -/
theorem fixedSpelling_prefix {text spelling : List Char} {starts : FixedSpelling}
    (found : fixedSpelling? text = some (spelling, starts)) :
    (spelling, starts) ∈ fixedSpellings ∧ spelling <+: text := by
  rw [fixedSpelling?] at found
  have matched := List.find?_some found
  exact ⟨List.mem_of_find?_eq_some found, List.isPrefixOf_iff_prefix.mp matched⟩

theorem fixedLexemes_cut (character : Char) (rest : List Char) :
    CutFrom (character :: rest) (fixedLexemes character (character :: rest)) ∧
      joinLexemes (fixedLexemes character (character :: rest)) ≠ [] := by
  have taken : ∀ length, 2 ≤ length → (character :: rest).take length ≠ [] := by
    intro length least empty
    rcases List.take_eq_nil_iff.mp empty with none | none
    · omega
    · cases none
  unfold fixedLexemes
  split
  · next spelling kind same =>
      obtain ⟨known, front⟩ := fixedSpelling_prefix same
      have proper := fixedSpellings_proper _ known
      refine ⟨.single front ?_, ?_⟩
      · exact fun ends => proper.2 (congrArg _ ends)
      · simpa [joinLexemes, Lexeme.plain] using proper.1
  · obtain ⟨length, least, front, kind⟩ := lineCommentLexeme_cut (character :: rest)
    refine ⟨.single (front ▸ List.take_prefix _ _) kind, ?_⟩
    simpa [joinLexemes, front] using taken length least
  · obtain ⟨length, least, front, kind⟩ := blockCommentLexeme_cut (character :: rest)
    refine ⟨.single (front ▸ List.take_prefix _ _) kind, ?_⟩
    simpa [joinLexemes, front] using taken length least
  · refine ⟨stringLexemes_cut _, ?_⟩
    unfold stringLexemes
    split <;> simp [joinLexemes, Lexeme.plain, Lexeme.faulty]
  · exact ⟨.single ⟨rest, rfl⟩ (by simp [Lexeme.faulty]), by simp [joinLexemes, Lexeme.faulty]⟩

theorem directiveLexemes_cut (character : Char) (rest : List Char) :
    CutFrom (character :: rest) (directiveLexemes (character :: rest)) ∧
      joinLexemes (directiveLexemes (character :: rest)) ≠ [] := by
  unfold directiveLexemes
  simp only
  split
  · exact ⟨.single (List.take_prefix _ _) (by simp [Lexeme.plain]),
      by simp [joinLexemes, Lexeme.plain]⟩
  split
  · refine ⟨heredocLexemes_cut _ _, ?_⟩
    unfold heredocLexemes
    simp only
    split
    · simp [joinLexemes, Lexeme.faulty]
    · split <;> simp [joinLexemes, Lexeme.plain]
  · exact ⟨.single (List.take_prefix _ _) (by simp [Lexeme.plain]),
      by simp [joinLexemes, Lexeme.plain]⟩

/-- The lexemes at the front of a text are cut off it, and there are some. -/
theorem frontLexemes_cut (character : Char) (rest : List Char) :
    CutFrom (character :: rest) (frontLexemes character rest) ∧
      joinLexemes (frontLexemes character rest) ≠ [] := by
  have taken : ∀ length, length ≠ 0 → (character :: rest).take length ≠ [] := by
    intro length some empty
    rcases List.take_eq_nil_iff.mp empty with none | none
    · exact some none
    · cases none
  unfold frontLexemes
  simp only
  split
  · next some =>
      refine ⟨.single (List.take_prefix _ _) (by simp [Lexeme.plain]), ?_⟩
      simpa [joinLexemes, Lexeme.plain] using taken _ (by simpa using some)
  split
  · next some =>
      refine ⟨.single (List.take_prefix _ _) (by simp [Lexeme.plain]), ?_⟩
      simpa [joinLexemes, Lexeme.plain] using taken _ (by simpa using some)
  split
  · next digit =>
      have number := numberLexeme_text (numberExtent (character :: rest))
        ((character :: rest).take (numberExtent (character :: rest)).length)
      refine ⟨.single (number.1.symm ▸ List.take_prefix _ _) number.2, ?_⟩
      have least := numberExtent_pos rest digit
      simpa [joinLexemes, number.1] using taken _ (by omega)
  split
  · exact directiveLexemes_cut character rest
  split
  · exact ⟨.single (List.take_prefix _ _) (by simp [Lexeme.plain]),
      by simp [joinLexemes, Lexeme.plain]⟩
  · exact fixedLexemes_cut character rest

theorem lexemesFrom_cut (bound text : List Char) (enough : text.length ≤ bound.length) :
    joinLexemes (lexemesFrom bound text) = text ∧
      ∀ lexeme ∈ lexemesFrom bound text, lexeme.kind ≠ .eof := by
  induction bound generalizing text with
  | nil =>
      cases text with
      | nil => exact ⟨rfl, fun _ member => (List.not_mem_nil member).elim⟩
      | cons character rest => cases enough
  | cons bounding bound ih =>
      cases text with
      | nil => exact ⟨rfl, fun _ member => (List.not_mem_nil member).elim⟩
      | cons character rest =>
          obtain ⟨cut, some⟩ := frontLexemes_cut character rest
          obtain ⟨after, joined⟩ := cut.covers
          have dropped : (character :: rest).drop (lexemesLength (frontLexemes character rest)) =
              after := by
            rw [← joinLexemes_length, ← joined, List.drop_left]
          have shorter : after.length ≤ bound.length := by
            have lengths := congrArg List.length joined
            have positive := List.length_pos_iff.mpr some
            rw [List.length_append, List.length_cons] at lengths
            rw [List.length_cons, List.length_cons] at enough
            omega
          rw [lexemesFrom, dropped]
          obtain ⟨further, kinds⟩ := ih after shorter
          refine ⟨?_, fun lexeme member => ?_⟩
          · rw [joinLexemes, List.flatMap_append]
            exact (congrArg _ further).trans joined
          · rcases List.mem_append.mp member with front | later
            · exact cut.kinds lexeme front
            · exact kinds lexeme later

/-- The lexemes of a source join to it. -/
theorem joinLexemes_lexemes (source : List Char) : joinLexemes (lexemes source) = source :=
  (lexemesFrom_cut source source (Nat.le_refl _)).1

theorem tokensFrom_kinds (offset : Nat) (pieces : List Lexeme)
    (kinds : ∀ lexeme ∈ pieces, lexeme.kind ≠ .eof) :
    ∀ token ∈ tokensFrom offset pieces, token.kind ≠ .eof := by
  induction pieces generalizing offset with
  | nil => exact fun _ member => (List.not_mem_nil member).elim
  | cons lexeme rest ih =>
      intro token member
      rcases List.mem_cons.mp member with rfl | later
      · exact kinds lexeme List.mem_cons_self
      · exact ih _ (fun other inRest => kinds other (List.mem_cons_of_mem lexeme inRest)) token later

theorem foldl_texts (tokens : List Token) (start : String) :
    tokens.foldl (fun text token => text ++ token.text) start = start ++ textOfTokens tokens := by
  unfold textOfTokens
  induction tokens generalizing start with
  | nil => simp
  | cons token rest ih =>
      rw [List.foldl_cons, ih, List.foldl_cons, ih ("" ++ token.text), String.empty_append,
        String.append_assoc]

theorem textOfTokens_cons (token : Token) (rest : List Token) :
    textOfTokens (token :: rest) = token.text ++ textOfTokens rest := by
  rw [textOfTokens, List.foldl_cons, foldl_texts, String.empty_append]

theorem textOfTokens_tokensFrom (offset : Nat) (pieces : List Lexeme) :
    textOfTokens (tokensFrom offset pieces) = String.ofList (joinLexemes pieces) := by
  induction pieces generalizing offset with
  | nil => rfl
  | cons lexeme rest ih =>
      have front : joinLexemes (lexeme :: rest) = lexeme.text ++ joinLexemes rest :=
        List.flatMap_cons
      rw [tokensFrom, textOfTokens_cons, ih, front, String.ofList_append]

def contentTokens (source : List Char) : List Token := (lex source).tokens.dropLast

theorem contentTokens_eq (source : List Char) :
    contentTokens source = tokensFrom 0 (lexemes source) := by
  rw [contentTokens, lex, List.dropLast_concat]

theorem lex_tokens (source : List Char) :
    (lex source).tokens = contentTokens source ++ [.endOfFile (utf8Length source)] := by
  rw [contentTokens_eq]
  rfl

theorem contentTokens_kinds (source : List Char) :
    ∀ token ∈ contentTokens source, token.kind ≠ .eof := by
  rw [contentTokens_eq]
  exact tokensFrom_kinds 0 _ (lexemesFrom_cut source source (Nat.le_refl _)).2

/-- The texts of the tokens of a source join to it. -/
theorem textOfTokens_contentTokens (source : List Char) :
    textOfTokens (contentTokens source) = String.ofList source := by
  rw [contentTokens_eq, textOfTokens_tokensFrom, joinLexemes_lexemes]

end JaiSyntax

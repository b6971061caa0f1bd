import Mathlib.Data.List.TakeWhile
import JaiSyntax.Proofs.Lexer.Lossless
import JaiSyntax.Proofs.Reading.Source
/-!
Parsing loses nothing. The leaves of a tree are the tokens of its source, except that some words
became keywords, and their texts join to the source.
-/

set_option autoImplicit false

namespace JaiSyntax

/-! ### Parting a token list -/

theorem isStringPart_kind {token : Token} (part : isStringPart token = true) :
    token.kind.isExtra = false ∧ token.kind ≠ .eof := by
  unfold isStringPart at part
  rcases Bool.or_eq_true_iff.mp part with content | escape
  · rw [eq_of_beq content]
    decide
  · rw [eq_of_beq escape]
    decide

theorem isExtra_notEnd {token : Token} (extra : token.kind.isExtra = true) : token.kind ≠ .eof := by
  intro same
  rw [same] at extra
  cases extra

theorem drop_takeWhile_length (holds : Token → Bool) (tokens : List Token) :
    tokens.drop (tokens.takeWhile holds).length = tokens.dropWhile holds := by
  have dropped := @List.drop_left _ (tokens.takeWhile holds) (tokens.dropWhile holds)
  rwa [List.takeWhile_append_dropWhile] at dropped

theorem take_takeWhile_length_add (holds : Token → Bool) (tokens : List Token) (count : Nat) :
    tokens.take ((tokens.takeWhile holds).length + count) =
      tokens.takeWhile holds ++ (tokens.dropWhile holds).take count := by
  have taken := @List.take_length_add_append _ (tokens.takeWhile holds)
    (tokens.dropWhile holds) count
  rwa [List.takeWhile_append_dropWhile] at taken

/-- What belongs to a deprecation notice behind its directive: nothing, or a message with the extras
before it. -/
theorem notice_shape (tokens : List Token) :
    tokens.take (noticeLength tokens) = [] ∨ ∃ message, message ≠ [] ∧
      tokens.take (noticeLength tokens) =
        tokens.takeWhile (fun token => token.kind.isExtra) ++ message ∧
      ∀ token ∈ message, token.kind.isExtra = false ∧ token.kind ≠ .eof := by
  unfold noticeLength
  simp only [drop_takeWhile_length]
  split
  · exact Or.inl rfl
  next first rest ahead =>
  split
  · next quoted =>
      have opening : first.kind.isExtra = false ∧ first.kind ≠ .eof := by
        rw [eq_of_beq quoted]
        decide
      -- The literal runs through its closing quote, if it has one.
      have literal : ∀ count, (∀ token ∈ (rest.dropWhile isStringPart).take count,
          token.kind.isExtra = false ∧ token.kind ≠ .eof) → ∃ message, message ≠ [] ∧
          tokens.take ((tokens.takeWhile (fun token => token.kind.isExtra)).length +
              ((rest.takeWhile isStringPart).length + count + 1)) =
            tokens.takeWhile (fun token => token.kind.isExtra) ++ message ∧
          ∀ token ∈ message, token.kind.isExtra = false ∧ token.kind ≠ .eof := by
        intro count closing
        refine ⟨first :: (rest.takeWhile isStringPart ++ (rest.dropWhile isStringPart).take count),
          List.cons_ne_nil _ _, ?_, List.forall_mem_cons.mpr
            ⟨opening, List.forall_mem_append.mpr ⟨fun token member => ?_, closing⟩⟩⟩
        · rw [take_takeWhile_length_add, ahead, List.take_succ_cons, take_takeWhile_length_add]
        · exact isStringPart_kind (List.mem_takeWhile_imp member)
      split
      · exact Or.inr (literal 0 (by simp))
      next last after closed =>
      split
      · next ends =>
          refine Or.inr (literal 1 ?_)
          rw [closed, List.take_succ_cons, List.take_zero, List.forall_mem_singleton,
            eq_of_beq ends]
          decide
      · exact Or.inr (literal 0 (by simp))
  split
  · next invalid =>
      refine Or.inr ⟨[first], List.cons_ne_nil _ _, ?_, ?_⟩
      · rw [take_takeWhile_length_add, ahead, List.take_succ_cons, List.take_zero]
      · rw [List.forall_mem_singleton, eq_of_beq invalid]
        decide
  · exact Or.inl rfl

/-- The tokens of a deprecation notice do not end the file. -/
theorem notice_notEnd (tokens : List Token) :
    ∀ token ∈ tokens.take (noticeLength tokens), token.kind ≠ .eof := by
  rcases notice_shape tokens with none | ⟨message, -, same, solid⟩
  · rw [none]
    exact List.forall_mem_nil _
  · rw [same, List.forall_mem_append]
    refine ⟨fun token member => ?_, fun token member => (solid token member).2⟩
    have extra := List.mem_takeWhile_imp member
    exact isExtra_notEnd extra

/-- What belongs to a notice behind its directive ends with the message. -/
theorem notice_ends (tokens : List Token) :
    ∀ token ∈ (tokens.take (noticeLength tokens)).getLast?, token.kind.isExtra = false := by
  rcases notice_shape tokens with none | ⟨message, some, same, solid⟩
  · rw [none]
    intro token absurd
    cases absurd
  · rw [same, List.getLast?_append_of_ne_nil _ some]
    exact fun token member => (solid token (List.mem_of_getLast? member)).1

theorem takeWhile_append_of_all {tokens : List Token} (more : List Token)
    (all : ∀ token ∈ tokens, token.kind ≠ .eof) :
    (tokens ++ more).takeWhile (fun token => token.kind != .eof) =
      tokens ++ more.takeWhile (fun token => token.kind != .eof) := by
  rw [List.takeWhile_append_of_pos]
  intro token member
  simpa using all token member

/-- The parts of a token list hold all its tokens up to the end of the file. -/
theorem partTokens_tokens (bound tokens : List Token) (enough : tokens.length ≤ bound.length) :
    tokensOfExtras (partTokens bound tokens).1 ++ (partTokens bound tokens).2.flatMap Stop.tokens =
      tokens.takeWhile (fun token => token.kind != .eof) := by
  induction bound generalizing tokens with
  | nil =>
      cases tokens with
      | nil => rfl
      | cons token rest => cases enough
  | cons bounding bound ih =>
      cases tokens with
      | nil => rfl
      | cons token rest =>
          rw [List.length_cons, List.length_cons] at enough
          rw [partTokens, List.takeWhile_cons]
          split
          · next ends =>
              have none : (token.kind != .eof) = false := by simpa using ends
              rw [none]
              rfl
          next more =>
          have first : (token.kind != .eof) = true := by simpa using more
          rw [first, if_pos rfl]
          split
          · simp only [tokensOfExtras, List.flatMap_cons, Extra.tokens, List.cons_append]
            rw [← ih rest (by omega)]
            rfl
          split
          · have notice := takeWhile_append_of_all (rest.drop (noticeLength rest))
              (notice_notEnd rest)
            rw [List.take_append_drop] at notice
            rw [notice, ← ih (rest.drop (noticeLength rest)) (by rw [List.length_drop]; omega)]
            simp [tokensOfExtras, Extra.tokens]
          · rw [← ih rest (by omega)]
            simp [tokensOfExtras, Stop.tokens]

/-- Before the first token everything of a source is still to be read. -/
theorem initial_tokens (source : List Char) :
    (Segment.initial (utf8Length source) (lex source).tokens).tokens = contentTokens source := by
  have parts := partTokens_tokens (lex source).tokens (lex source).tokens (Nat.le_refl _)
  rw [show (lex source).tokens.takeWhile (fun token => token.kind != .eof) = contentTokens source
    from ?_] at parts
  · exact parts
  · rw [lex_tokens, takeWhile_append_of_all _ (contentTokens_kinds source)]
    simp [Token.endOfFile]

/-! ### Texts -/

theorem KeptTokens.text_eq {tokens kept : List Token} (same : KeptTokens tokens kept) :
    textOfTokens kept = textOfTokens tokens := by
  induction same with
  | nil => rfl
  | cons head _ ih =>
      rw [textOfTokens_cons, textOfTokens_cons, ih]
      rcases head with rfl | ⟨-, rfl⟩ <;> rfl

theorem KeptTokens.slices_eq {tokens kept : List Token} (same : KeptTokens tokens kept)
    (source : List Char) :
    kept.flatMap (fun token => token.span.text source) =
      tokens.flatMap (fun token => token.span.text source) := by
  induction same with
  | nil => rfl
  | cons head _ ih =>
      rw [List.flatMap_cons, List.flatMap_cons, ih]
      rcases head with rfl | ⟨-, rfl⟩ <;> rfl

theorem dropBytes?_append (before after : List Char) :
    dropBytes? (utf8Length before) (before ++ after) = some after := by
  induction before with
  | nil => cases after <;> rfl
  | cons character rest ih =>
      have size := character.utf8Size_pos
      obtain ⟨count, total⟩ : ∃ count, utf8Length (character :: rest) = count + 1 :=
        ⟨utf8Length (character :: rest) - 1, by rw [utf8Length_cons]; omega⟩
      rw [total, List.cons_append, dropBytes?, ← total, if_pos (by rw [utf8Length_cons]; omega),
        utf8Length_cons, Nat.add_sub_cancel_left, ih]

theorem takeBytes?_append (covered after : List Char) :
    takeBytes? (utf8Length covered) (covered ++ after) = some covered := by
  induction covered with
  | nil => cases after <;> rfl
  | cons character rest ih =>
      have size := character.utf8Size_pos
      obtain ⟨count, total⟩ : ∃ count, utf8Length (character :: rest) = count + 1 :=
        ⟨utf8Length (character :: rest) - 1, by rw [utf8Length_cons]; omega⟩
      rw [total, List.cons_append, takeBytes?, ← total, if_pos (by rw [utf8Length_cons]; omega),
        utf8Length_cons, Nat.add_sub_cancel_left, ih]
      rfl

/-- The span of a piece of a text slices the piece out. -/
theorem span_text (before covered after : List Char) :
    (Span.mk (utf8Length before) (utf8Length before + utf8Length covered)).text
      (before ++ (covered ++ after)) = covered := by
  have length : (Span.mk (utf8Length before) (utf8Length before + utf8Length covered)).length =
      utf8Length covered := Nat.add_sub_cancel_left _ _
  rw [Span.text, if_pos (Nat.le_add_right _ _), length, dropBytes?_append, Option.bind_some,
    takeBytes?_append]
  rfl

theorem slices_tokensFrom (before : List Char) (pieces : List Lexeme) (source : List Char)
    (whole : source = before ++ joinLexemes pieces) :
    (tokensFrom (utf8Length before) pieces).flatMap (fun token => token.span.text source) =
      joinLexemes pieces := by
  induction pieces generalizing before with
  | nil => rfl
  | cons lexeme rest ih =>
      have front : joinLexemes (lexeme :: rest) = lexeme.text ++ joinLexemes rest :=
        List.flatMap_cons
      have further := ih (before ++ lexeme.text) (by rw [whole, front, List.append_assoc])
      rw [utf8Length_append] at further
      rw [tokensFrom, List.flatMap_cons, further, front]
      have own := span_text before lexeme.text (joinLexemes rest)
      rw [← front, ← whole] at own
      rw [own]

theorem slices_contentTokens (source : List Char) :
    (contentTokens source).flatMap (fun token => token.span.text source) = source := by
  rw [contentTokens_eq]
  have joined := joinLexemes_lexemes source
  exact (slices_tokensFrom [] (lexemes source) source joined.symm).trans joined

/-! ### Trees -/

theorem leaves_kept (options : ParseOptions) (source : List Char) :
    KeptTokens (contentTokens source) (parse options source).tree.leaves := by
  obtain ⟨continues, ended⟩ := readSource_ended options.resyncOnDeclaration source
  have kept := continues.tokens
  rw [initial_tokens, Segment.tokens, ended, List.append_nil] at kept
  rw [parse_tree, Node.leaves_build]
  exact kept

/-- The leaves of a tree are the tokens of its source, each as it is or a word as a keyword; their
texts, and what their spans slice out of the source, join to the source. -/
theorem parse_keeps_tokens (options : ParseOptions) (source : List Char) :
    List.Forall₂
        (fun token leaf => leaf = token ∨ token.kind = .ident ∧ leaf = token.retag .keyword)
        (lex source).tokens.dropLast (parse options source).tree.leaves ∧
      (parse options source).tree.text = String.ofList source ∧
      (parse options source).tree.leaves.flatMap (fun leaf => leaf.span.text source) = source := by
  have kept := leaves_kept options source
  refine ⟨kept, ?_, ?_⟩
  · rw [Node.text, kept.text_eq, textOfTokens_contentTokens]
  · rw [kept.slices_eq source, slices_contentTokens]

end JaiSyntax

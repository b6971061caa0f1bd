import JaiSyntax.Proofs.Expression.Term
import JaiSyntax.Proofs.Lexer.Words
/-!
The words of terms in a source. A word that a space or a semicolon ends is a lexeme of its own, so that
words with spaces between them are lexed back to just these words.
-/

set_option autoImplicit false

namespace JaiSyntax

/-- A word of letters is a lexeme of its own in front of its end. -/
theorem ident_separable {first : Char} {rest : List Char} (starts : isWordStart first = true)
    (goesOn : ∀ character ∈ rest, isWordPart character = true) :
    (SourceWord.mk .ident (String.ofList (first :: rest))).Separable := by
  refine ⟨first, rest, .none, String.toList_ofList, isSolid (Or.inl starts),
    ⟨TokenKind.noConfusion, TokenKind.noConfusion, rfl⟩, fun stop ends more => ?_⟩
  have taken : (rest ++ stop :: more).takeWhile isWordPart = rest := by
    rw [List.takeWhile_append_of_pos goesOn]
    simp [(wordEnds_separate ends).noWord.2]
  have word : wordLength (first :: (rest ++ stop :: more)) = rest.length + 1 := by
    rw [wordLength, if_pos starts, taken]
  have text : (first :: (rest ++ stop :: more)).take (rest.length + 1) = first :: rest := by
    rw [List.take_succ_cons, List.take_left]
  simp only [frontLexemes, whiteSpaceLength_none _ (isSolid (Or.inl starts)), word, text]
  rfl

theorem Name.separable (name : Name) : name.word.Separable :=
  ident_separable name.starts name.goesOn

theorem Numeral.separable (numeral : Numeral) : numeral.word.Separable := by
  obtain ⟨value, lexeme⟩ := numeral.fits
  refine ⟨numeral.first, numeral.rest, value, String.toList_ofList,
    isSolid (Or.inr numeral.starts), ⟨TokenKind.noConfusion, TokenKind.noConfusion, rfl⟩,
    fun stop ends more => ?_⟩
  have extent : numberExtent (numeral.first :: (numeral.rest ++ stop :: more)) =
      numberExtent (numeral.first :: numeral.rest) :=
    numberExtent_append (wordEnds_separate ends) (List.cons_ne_nil _ _)
  have text : (numeral.first :: (numeral.rest ++ stop :: more)).take
      (numeral.first :: numeral.rest).length = numeral.first :: numeral.rest := by
    rw [List.length_cons, List.take_succ_cons, List.take_left]
  rw [frontLexemes_number numeral.starts, extent, numeral.whole, text, lexeme]
  rfl

/-- A word with a single spelling is a lexeme of its own if it is one in front of either end. -/
theorem separable_of_front {kind : TokenKind} (first : Char) (rest : List Char)
    (spelling : kind.description.toList = first :: rest) (solid : IsSolid first)
    (plain : kind ≠ .eof ∧ kind ≠ .directive ∧ kind.isExtra = false)
    (front : ∀ more, frontLexemes first (rest ++ ' ' :: more) = [.plain kind (first :: rest)] ∧
      frontLexemes first (rest ++ ';' :: more) = [.plain kind (first :: rest)]) :
    (SourceWord.fixed kind).Separable := by
  refine ⟨first, rest, .none, spelling, solid, plain, fun stop ends more => ?_⟩
  have cases : stop = ' ' ∨ stop = ';' := by
    simpa [wordEnds] using ends
  rcases cases with rfl | rfl
  · exact (front more).1
  · exact (front more).2

/-- The kinds with a single spelling that terms, statements and types are written with. -/
def spelledKinds : List TokenKind :=
  termKinds ++ [.semicolon, .colon, .lBrace, .rBrace, .dollar, .arrow]

theorem fixed_separable {kind : TokenKind} (known : kind ∈ spelledKinds) :
    (SourceWord.fixed kind).Separable := by
  revert kind
  simp only [spelledKinds, termKinds, unaryTokens, binaryOperators, leftOperator, List.map_cons,
    List.map_nil, List.cons_append, List.nil_append, List.forall_mem_cons, List.not_mem_nil,
    false_implies, implies_true, and_true]
  and_intros
  all_goals exact separable_of_front _ _ rfl ⟨by decide, by decide⟩ (by decide) (fun _ => ⟨rfl, rfl⟩)

theorem Term.words_separable (term : Term) : ∀ word ∈ term.words, word.Separable := by
  intro word member
  cases term.words_ofTerm word member with
  | name name => exact name.separable
  | numeral numeral => exact numeral.separable
  | fixed known => exact fixed_separable (List.mem_append_left _ known)

end JaiSyntax

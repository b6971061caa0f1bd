import JaiSyntax.Proofs.Lexer.Separation
import JaiSyntax.Proofs.Reading.Stage
/-!
The words of a source. A word that a space or a semicolon ends is a lexeme of its own, so that words
with spaces between them are lexed back to just these words.
-/

set_option autoImplicit false

namespace JaiSyntax

/-! ### Lexemes of words -/

def Lexeme.word (lexeme : Lexeme) : SourceWord := ⟨lexeme.kind, String.ofList lexeme.text⟩

/-- A lexeme without a fault that is no directive. -/
structure Lexeme.Calm (lexeme : Lexeme) : Prop where
  notEnd : lexeme.kind ≠ .eof
  notDirective : lexeme.kind ≠ .directive
  sound : lexeme.problem = none

/-- A text whose lexemes are calm, and are some words but for the extras among them. -/
structure LexedAs (text : List Char) (words : List SourceWord) : Prop where
  calm : ∀ piece ∈ lexemes text, piece.Calm
  words : ((lexemes text).map Lexeme.word).filter (fun word => !word.kind.isExtra) = words

namespace LexedAs

variable {text tail : List Char} {words : List SourceWord} {piece : Lexeme}

theorem nil : LexedAs [] [] := ⟨List.forall_mem_nil _, rfl⟩

theorem cons (front : lexemes text = piece :: lexemes tail) (calm : piece.Calm)
    (significant : piece.kind.isExtra = false) (later : LexedAs tail words) :
    LexedAs text (piece.word :: words) := by
  refine ⟨front ▸ List.forall_mem_cons.mpr ⟨calm, later.calm⟩, ?_⟩
  have kept : (!piece.word.kind.isExtra) = true := by
    simpa [Lexeme.word] using significant
  rw [front, List.map_cons, List.filter_cons, if_pos kept, later.words]

theorem skip (front : lexemes text = piece :: lexemes tail) (calm : piece.Calm)
    (extra : piece.kind.isExtra = true) (later : LexedAs tail words) : LexedAs text words := by
  refine ⟨front ▸ List.forall_mem_cons.mpr ⟨calm, later.calm⟩, ?_⟩
  have dropped : ¬(!piece.word.kind.isExtra) = true := by
    simpa [Lexeme.word] using extra
  rw [front, List.map_cons, List.filter_cons, if_neg dropped, later.words]

end LexedAs

theorem lexErrorsFrom_calm (offset : Nat) (pieces : List Lexeme)
    (calm : ∀ piece ∈ pieces, piece.Calm) : lexErrorsFrom offset pieces = [] := by
  induction pieces generalizing offset with
  | nil => rfl
  | cons piece rest ih =>
      obtain ⟨first, later⟩ := List.forall_mem_cons.mp calm
      rw [lexErrorsFrom, first.sound]
      exact ih _ later

/-- Without a directive, the significant tokens are those that are no extras. -/
theorem partTokens_calm (bound tokens : List Token) (size : Nat)
    (calm : ∀ token ∈ tokens, token.kind ≠ .eof ∧ token.kind ≠ .directive)
    (enough : tokens.length < bound.length) :
    (partTokens bound (tokens ++ [.endOfFile size])).2.map Stop.token =
      tokens.filter (fun token => !token.kind.isExtra) := by
  induction tokens generalizing bound with
  | nil =>
      cases bound with
      | nil => cases enough
      | cons bounding bound => rfl
  | cons token rest ih =>
      cases bound with
      | nil => cases enough
      | cons bounding bound =>
          obtain ⟨⟨notEnd, notDirective⟩, later⟩ := List.forall_mem_cons.mp calm
          have further := ih bound later (Nat.lt_of_succ_lt_succ enough)
          have noNotice : isDeprecation token = false := by
            simp [isDeprecation, Token.isDirective, notDirective]
          rw [List.cons_append, partTokens, if_neg (by simpa using notEnd)]
          cases extra : token.kind.isExtra with
          | true =>
              rw [List.filter_cons_of_neg (by simp [extra])]
              exact further
          | false =>
              rw [List.filter_cons_of_pos (by simp [extra]), noNotice]
              exact congrArg (token :: ·) further

theorem tokensFrom_words (offset : Nat) (pieces : List Lexeme) :
    (tokensFrom offset pieces).map Token.word = pieces.map Lexeme.word := by
  induction pieces generalizing offset with
  | nil => rfl
  | cons piece rest ih =>
      rw [tokensFrom, List.map_cons, List.map_cons, ih]
      rfl

theorem LexedAs.spells {source : List Char} {words : List SourceWord}
    (lexed : LexedAs source words) : Spells source words := by
  refine ⟨lexErrorsFrom_calm 0 _ lexed.calm, ?_⟩
  have calm : ∀ token ∈ tokensFrom 0 (lexemes source),
      token.kind ≠ .eof ∧ token.kind ≠ .directive := by
    intro token member
    have word : token.word ∈ (lexemes source).map Lexeme.word :=
      tokensFrom_words 0 _ ▸ List.mem_map_of_mem member
    obtain ⟨piece, inPieces, same⟩ := List.mem_map.mp word
    have kind : piece.kind = token.kind := congrArg SourceWord.kind same
    exact kind ▸ ⟨(lexed.calm piece inPieces).notEnd, (lexed.calm piece inPieces).notDirective⟩
  have parted := partTokens_calm (lex source).tokens _ (utf8Length source) calm (by simp [lex])
  have whole : (significantTokens source).map Token.word =
      ((tokensFrom 0 (lexemes source)).filter (fun token => !token.kind.isExtra)).map Token.word :=
    congrArg (List.map Token.word) parted
  rw [whole, ← lexed.words, ← tokensFrom_words 0, List.filter_map]
  rfl

/-! ### Words in front of their ends -/

def wordEnds : List Char := [' ', ';']

theorem wordEnds_separate {stop : Char} (ends : stop ∈ wordEnds) : Separates stop := by
  have all : wordEnds ⊆ ' ' :: delimiters := by
    simp [wordEnds, delimiters]
  exact separates (all ends)

def IsSolid (character : Char) : Prop := isWhiteSpace character = false ∧ character ≠ '\\'

def blankCodes : List Nat :=
  [0x9, 0xA, 0xB, 0xC, 0xD, 0x20, 0x85, 0xA0, 0x1680, 0x2000, 0x2001, 0x2002, 0x2003, 0x2004,
   0x2005, 0x2006, 0x2007, 0x2008, 0x2009, 0x200A, 0x2028, 0x2029, 0x202F, 0x205F, 0x3000]

theorem mem_blankCodes {character : Char} (blank : isWhiteSpace character = true) :
    character.toNat ∈ blankCodes := by
  simp only [isWhiteSpace, inRanges, whiteSpaceRanges, List.any_cons, List.any_nil, Bool.or_false,
    Bool.or_eq_true, Bool.and_eq_true, decide_eq_true_eq] at blank
  simp only [blankCodes, List.mem_cons, List.not_mem_nil, or_false]
  omega

/-- What starts a word or a number is no white space. -/
theorem isSolid {character : Char}
    (starts : isWordStart character = true ∨ character.isDigit = true) :
    IsSolid character := by
  have blanks : ∀ code ∈ blankCodes, isWordStart (Char.ofNat code) = false ∧
      (Char.ofNat code).isDigit = false := by
    decide +kernel
  constructor
  · rw [← Bool.not_eq_true]
    intro blank
    obtain ⟨noWord, noDigit⟩ := blanks _ (mem_blankCodes blank)
    rw [Char.ofNat_toNat] at noWord noDigit
    rcases starts with word | digit
    · exact Bool.false_ne_true (noWord.symm.trans word)
    · exact Bool.false_ne_true (noDigit.symm.trans digit)
  · rintro rfl
    revert starts
    decide

theorem digit_starts_no_word {character : Char} (digit : character.isDigit = true) :
    isWordStart character = false := by
  simp only [Char.isDigit, Bool.and_eq_true, decide_eq_true_eq, ge_iff_le,
    UInt32.le_iff_toNat_le] at digit
  change 48 ≤ character.toNat ∧ character.toNat ≤ 57 at digit
  have codes : ∀ code ∈ List.range' 48 10, isWordStart (Char.ofNat code) = false := by
    decide
  have plain := codes character.toNat (List.mem_range'_1.mpr ⟨digit.1, by omega⟩)
  rwa [Char.ofNat_toNat] at plain

/-- A text that starts with neither white space nor a backslash starts with no white space. -/
theorem whiteSpaceLength_none {character : Char} (rest : List Char) (solid : IsSolid character) :
    whiteSpaceLength (character :: rest) = 0 := by
  simp [whiteSpaceLength, whiteSpaceFrom, solid.1, solid.2]

/-- A digit at the front is the start of a number. -/
theorem frontLexemes_number {character : Char} (digit : character.isDigit = true) (rest : List Char) :
    frontLexemes character rest =
      [numberLexeme (numberExtent (character :: rest))
        ((character :: rest).take (numberExtent (character :: rest)).length)] := by
  have noWord : wordLength (character :: rest) = 0 := by
    simp [wordLength, digit_starts_no_word digit]
  simp only [frontLexemes, whiteSpaceLength_none _ (isSolid (Or.inr digit)), noWord, digit]
  rfl

/-- A word that is a lexeme of its own where a space or a semicolon follows. -/
def SourceWord.Separable (word : SourceWord) : Prop :=
  ∃ first rest value, word.text.toList = first :: rest ∧ IsSolid first ∧
    (word.kind ≠ .eof ∧ word.kind ≠ .directive ∧ word.kind.isExtra = false) ∧
    ∀ stop ∈ wordEnds, ∀ more,
      frontLexemes first (rest ++ stop :: more) = [⟨word.kind, first :: rest, value, none⟩]

def spaced : List SourceWord → List Char
  | [] => []
  | [word] => word.text.toList
  | word :: next :: rest => word.text.toList ++ ' ' :: spaced (next :: rest)

/-- A space in front of a word is a lexeme of its own. -/
theorem LexedAs.space {text : List Char} {words : List SourceWord} (later : LexedAs text words)
    {character : Char} {rest : List Char} (starts : text = character :: rest)
    (solid : IsSolid character) : LexedAs (' ' :: text) words := by
  subst starts
  have space : isWhiteSpace ' ' = true := by
    decide
  have blanks : whiteSpaceLength (' ' :: character :: rest) = 1 := by
    simp [whiteSpaceLength, whiteSpaceFrom, solid.1, solid.2, space]
  have front : frontLexemes ' ' (character :: rest) = [.plain .whitespace [' ']] := by
    simp [frontLexemes, blanks]
  exact .skip (lexemes_front front rfl) ⟨by decide, by decide, rfl⟩ rfl later

/-- A word in front of its end is a lexeme of its own. -/
theorem LexedAs.word {word : SourceWord} (separable : word.Separable) {stop : Char}
    (ends : stop ∈ wordEnds) {more : List Char} {words : List SourceWord}
    (later : LexedAs (stop :: more) words) :
    LexedAs (word.text.toList ++ stop :: more) (word :: words) := by
  obtain ⟨first, rest, value, spelling, -, ⟨notEnd, notDirective, significant⟩, front⟩ := separable
  have lexed : lexemes (word.text.toList ++ stop :: more) =
      ⟨word.kind, word.text.toList, value, none⟩ :: lexemes (stop :: more) := by
    rw [spelling]
    exact lexemes_front (front stop ends more) (by simp [joinLexemes])
  have whole := LexedAs.cons lexed ⟨notEnd, notDirective, rfl⟩ significant later
  rwa [Lexeme.word, String.ofList_toList] at whole

theorem LexedAs.semicolon : LexedAs [';'] [.fixed .semicolon] := by
  have front : frontLexemes ';' [] = [.plain .semicolon [';']] := rfl
  have lexed : lexemes [';'] = .plain .semicolon [';'] :: lexemes [] := lexemes_front front rfl
  exact .cons lexed ⟨by decide, by decide, rfl⟩ rfl .nil

theorem spaced_solid {words : List SourceWord} (some : words ≠ [])
    (separable : ∀ word ∈ words, word.Separable) (more : List Char) :
    ∃ character rest, spaced words ++ more = character :: rest ∧ IsSolid character := by
  match words with
  | [] => exact absurd rfl some
  | word :: rest =>
      obtain ⟨character, after, value, spelling, solid, -⟩ := separable word List.mem_cons_self
      cases rest <;> exact ⟨character, _, by rw [spaced, spelling]; rfl, solid⟩

/-- Words with spaces between them and a semicolon after them are lexed one by one. -/
theorem LexedAs.spaced {words : List SourceWord} (some : words ≠ [])
    (separable : ∀ word ∈ words, word.Separable) :
    LexedAs (spaced words ++ [';']) (words ++ [.fixed .semicolon]) := by
  induction words with
  | nil => exact absurd rfl some
  | cons word rest ih =>
      obtain ⟨first, later⟩ := List.forall_mem_cons.mp separable
      cases rest with
      | nil => exact .word first (by decide) .semicolon
      | cons next rest =>
          have following := List.cons_ne_nil next rest
          obtain ⟨character, after, whole, solid⟩ := spaced_solid following later [';']
          rw [JaiSyntax.spaced, List.append_assoc, List.cons_append]
          exact .word first (by decide) ((ih following later).space whole solid)

end JaiSyntax

import JaiSyntax.Proofs.Lexer.Reports
import JaiSyntax.Proofs.Locality.Tokens
import Mathlib.Data.List.Chain
/-!
The tokens of a source form groups: a string from its opening quote to its closing one, a heredoc from
its directive to its closing word, and any other token on its own. Quotes, the pieces of strings and the
parts of heredocs occur in no other way, and keywords do not occur at all.
-/

set_option autoImplicit false

namespace JaiSyntax

open SourceUnit

/-! ### Groups of tokens -/

/-- The kinds of tokens that occur in a string or a heredoc only, at the end of the file, or not at
all. -/
def groupedKinds : List TokenKind :=
  [.quote, .stringContent, .escapeSequence, .heredocStart, .heredocBody, .heredocEnd, .keyword, .eof]

def TokenKind.isGrouped (kind : TokenKind) : Bool := groupedKinds.contains kind

/-- Whether two pieces of a string may stand side by side: of two contents one is a raw line feed. -/
def Token.Adjoins (left right : Token) : Prop :=
  left.kind = .stringContent → right.kind = .stringContent → left.text = "\n" ∨ right.text = "\n"

structure IsStringBody (pieces : List Token) : Prop where
  kinds : ∀ piece ∈ pieces, piece.kind = .stringContent ∨ piece.kind = .escapeSequence
  apart : pieces.IsChain Token.Adjoins

/-- The tokens that open a heredoc: its directive, layout if there is any, and its delimiter. -/
inductive OpensHeredoc (delimiter : String) : List Token → Prop where
  | adjacent {directive start : Token} (named : directive.kind = .directive)
      (spelled : directive.text = "#string") (opens : start.kind = .heredocStart)
      (same : start.text = delimiter) : OpensHeredoc delimiter [directive, start]
  | spaced {directive blanks start : Token} (named : directive.kind = .directive)
      (spelled : directive.text = "#string") (layout : blanks.kind = .whitespace)
      (opens : start.kind = .heredocStart) (same : start.text = delimiter) :
      OpensHeredoc delimiter [directive, blanks, start]

/-- Tokens in groups up to the end of the file. -/
inductive Grouped : List Token → Prop where
  | ended {token : Token} (last : token.kind = .eof) : Grouped [token]
  | single {token : Token} {rest : List Token} (alone : token.kind.isGrouped = false)
      (later : Grouped rest) : Grouped (token :: rest)
  | string {opening closing : Token} {pieces rest : List Token} (opens : opening.kind = .quote)
      (body : IsStringBody pieces) (closes : closing.kind = .quote) (later : Grouped rest) :
      Grouped (opening :: (pieces ++ closing :: rest))
  /-- A heredoc that a line with its delimiter closes. -/
  | heredoc {delimiter : String} {front rest : List Token} {body closing : Token}
      (opens : OpensHeredoc delimiter front) (inside : body.kind = .heredocBody)
      (closes : closing.kind = .heredocEnd) (same : closing.text = delimiter)
      (later : Grouped rest) : Grouped (front ++ body :: closing :: rest)
  /-- A heredoc that never closes takes the rest of the source. -/
  | openHeredoc {delimiter : String} {front : List Token} {last : Token}
      (opens : OpensHeredoc delimiter front) (ends : last.kind = .eof) : Grouped (front ++ [last])
  | openHeredocBody {delimiter : String} {front : List Token} {invalid last : Token}
      (opens : OpensHeredoc delimiter front) (body : invalid.kind = .error) (ends : last.kind = .eof) :
      Grouped (front ++ [invalid, last])

/-! ### Lexemes in front of groups -/

/-- Lexemes whose tokens can stand in front of any groups. -/
def Leads (front : List Lexeme) : Prop :=
  ∀ (offset : Nat) (rest : List Token), Grouped rest → Grouped (tokensFrom offset front ++ rest)

def Concludes (front : List Lexeme) : Prop :=
  ∀ (offset : Nat) (last : Token), last.kind = .eof → Grouped (tokensFrom offset front ++ [last])

theorem leads_single {lexeme : Lexeme} (alone : lexeme.kind.isGrouped = false) : Leads [lexeme] :=
  fun _ _ later => .single alone later

/-! ### Strings -/

def Lexeme.Adjoins (left right : Lexeme) : Prop :=
  left.kind = .stringContent → right.kind = .stringContent → left.text = ['\n'] ∨ right.text = ['\n']

/-- A content starts with a plain character and is the longest run of such. -/
theorem stringPiece_content {text : List Char} {length : Nat}
    (content : stringPiece text = (.content, length)) :
    ∃ character rest, text = character :: rest ∧ isPlainContent character = true ∧
      length = runLength isPlainContent text := by
  cases text with
  | nil => cases content
  | cons character rest =>
      rw [stringPiece] at content
      split at content
      · cases content
      split at content
      · cases content
      split at content
      · cases content
      · next noQuote noBackslash noFeed =>
          refine ⟨character, rest, rfl, ?_, (Prod.mk.inj content).2.symm⟩
          simp [isPlainContent, noQuote, noBackslash, noFeed]

theorem stringPiece_lineBreak {text : List Char} {length : Nat}
    (feed : stringPiece text = (.lineBreak, length)) : text.take length = ['\n'] := by
  cases text with
  | nil => cases feed
  | cons character rest =>
      rw [stringPiece] at feed
      split at feed
      · cases feed
      split at feed
      · cases feed
      split at feed
      · next code =>
          cases feed
          have same : character = '\n' := (is_iff _ _).mp code
          rw [same]
          rfl
      · cases feed

/-- The pieces of a string that closes: the contents and escapes, and then the closing quote. -/
structure ClosesString (text : List Char) (body : List Lexeme) (closing : Lexeme) : Prop where
  kinds : ∀ piece ∈ body, piece.kind = .stringContent ∨ piece.kind = .escapeSequence
  apart : body.IsChain Lexeme.Adjoins
  /-- The first piece is content other than a line feed only where the text goes on with such. -/
  first : ∀ piece ∈ body.head?, piece.kind = .stringContent → piece.text = ['\n'] ∨
    ∃ character rest, text = character :: rest ∧ isPlainContent character = true
  closes : closing.kind = .quote

theorem escapeLexeme_kind (form : EscapeForm) (text : List Char) :
    (escapeLexeme form text).kind = .escapeSequence := by
  unfold escapeLexeme
  split <;> rfl

/-- A piece in front of the others of a string that closes. -/
theorem ClosesString.cons {text : List Char} {piece : StringPiece} {length : Nat}
    (found : stringPiece text = (piece, length)) (more : piece ≠ .endOfInput)
    (unclosed : piece ≠ .close) {body : List Lexeme} {closing : Lexeme}
    (later : ClosesString (text.drop length) body closing) :
    ClosesString text (pieceLexeme piece (text.take length) :: body) closing := by
  have kind : (pieceLexeme piece (text.take length)).kind = .stringContent ∨
      (pieceLexeme piece (text.take length)).kind = .escapeSequence := by
    unfold pieceLexeme
    split
    · exact Or.inr (escapeLexeme_kind _ _)
    · exact Or.inl rfl
  refine ⟨List.forall_mem_cons.mpr ⟨kind, later.kinds⟩, ?_, ?_, later.closes⟩
  · rw [List.isChain_cons]
    refine ⟨fun next member content other => ?_, later.apart⟩
    cases piece with
    | endOfInput => exact (more rfl).elim
    | close => exact (unclosed rfl).elim
    | escape form =>
        rw [pieceLexeme, escapeLexeme_kind] at content
        cases content
    | lineBreak => exact Or.inl (stringPiece_lineBreak found)
    | content =>
        -- The run of content is the longest one, so no other content follows it.
        obtain ⟨_, _, _, _, run⟩ := stringPiece_content found
        rcases later.first next member other with feed | ⟨character, rest, behind, plain⟩
        · exact Or.inr feed
        · rw [run] at behind
          rw [head_drop_runLength behind] at plain
          cases plain
  · intro front member content
    obtain rfl := Option.some.inj member
    cases piece with
    | endOfInput => exact (more rfl).elim
    | close => exact (unclosed rfl).elim
    | escape form =>
        rw [pieceLexeme, escapeLexeme_kind] at content
        cases content
    | lineBreak => exact Or.inl (stringPiece_lineBreak found)
    | content =>
        obtain ⟨character, rest, whole, plain, _⟩ := stringPiece_content found
        exact Or.inr ⟨character, rest, whole, plain⟩

theorem stringLexemesFrom_closes (bound text : List Char) (lexemes : List Lexeme)
    (closes : stringLexemesFrom bound text = some lexemes) :
    ∃ body closing, lexemes = body ++ [closing] ∧ ClosesString text body closing := by
  fun_induction stringLexemesFrom bound text generalizing lexemes with
  | case1 bound text length same => cases closes
  | case2 bound text length same =>
      cases closes
      refine ⟨[], .plain .quote (text.take length), rfl, List.forall_mem_nil _, .nil, ?_, rfl⟩
      exact fun piece none => (Option.not_mem_none piece none).elim
  | case3 text piece length more unclosed same => cases closes
  | case4 text piece length more unclosed same covered lexeme character bound ih =>
      obtain ⟨rest, later, rfl⟩ := Option.map_eq_some_iff.mp closes
      obtain ⟨body, closing, rfl, string⟩ := ih rest later
      exact ⟨pieceLexeme piece covered :: body, closing, rfl, string.cons same more unclosed⟩

theorem tokensFrom_adjoins (offset : Nat) (pieces : List Lexeme)
    (apart : pieces.IsChain Lexeme.Adjoins) :
    (tokensFrom offset pieces).IsChain Token.Adjoins := by
  induction pieces generalizing offset with
  | nil => exact .nil
  | cons piece rest ih =>
      rw [List.isChain_cons] at apart
      refine List.isChain_cons.mpr ⟨fun next member content other => ?_, ih _ apart.2⟩
      cases rest with
      | nil => cases member
      | cons second rest =>
          obtain rfl := Option.some.inj member
          rcases apart.1 second rfl content other with feed | feed
          · exact Or.inl (congrArg String.ofList feed)
          · exact Or.inr (congrArg String.ofList feed)

theorem tokensFrom_mem {offset : Nat} {pieces : List Lexeme} {token : Token}
    (member : token ∈ tokensFrom offset pieces) :
    ∃ piece ∈ pieces, token.kind = piece.kind ∧ token.text = String.ofList piece.text := by
  induction pieces generalizing offset with
  | nil => cases member
  | cons piece rest ih =>
      rcases List.mem_cons.mp member with rfl | later
      · exact ⟨piece, List.mem_cons_self, rfl, rfl⟩
      · obtain ⟨other, inRest, same⟩ := ih later
        exact ⟨other, List.mem_cons_of_mem piece inRest, same⟩

theorem leads_string (text : List Char) : Leads (stringLexemes text) := by
  unfold stringLexemes
  split
  · next lexemes closes =>
      obtain ⟨body, closing, rfl, string⟩ := stringLexemesFrom_closes _ _ lexemes closes
      intro offset rest later
      have inside (start : Nat) : IsStringBody (tokensFrom start body) := by
        refine ⟨fun token member => ?_, tokensFrom_adjoins start body string.apart⟩
        obtain ⟨piece, inBody, kind, -⟩ := tokensFrom_mem member
        exact kind ▸ string.kinds piece inBody
      rw [tokensFrom, tokensFrom_append, List.cons_append, List.append_assoc]
      exact .string rfl (inside _) string.closes later
  · exact leads_single rfl

/-! ### Heredocs -/

/-- The body of a heredoc that closes is not empty, and its delimiter follows it. -/
theorem heredocBody_closes {delimiter text : List Char}
    (closed : (heredocBody delimiter text).1 = true) :
    text.take (heredocBody delimiter text).2 ≠ [] ∧
      (text.drop (heredocBody delimiter text).2).take delimiter.length = delimiter := by
  have whole : heredocBodyFrom delimiter 0 text = (true, (heredocBody delimiter text).2) :=
    Prod.ext closed rfl
  have some := heredocBodyFrom_blanks whole
  obtain ⟨-, follows⟩ := heredocBodyFrom_delimiter 0 text _ whole
  constructor
  · cases text with
    | nil => cases closed
    | cons character rest => exact take_ne_nil (by omega)
  · exact (List.prefix_iff_eq_take.mp follows).symm

theorem heredocDelimiter_size (text : List Char) :
    ((text.drop (heredocDelimiter text).1).take (heredocDelimiter text).2).length =
      (heredocDelimiter text).2 :=
  List.length_take_of_le (runLength_le _ _)

theorem opens_tokensFrom (offset : Nat) (blanks : List Char) {directive delimiter : List Char}
    {start : Lexeme}
    (named : directive = heredocDirective) (opens : start.kind = .heredocStart)
    (spelled : start.text = delimiter) :
    OpensHeredoc (String.ofList delimiter) (tokensFrom offset
      (.plain .directive directive :: (unlessEmpty .whitespace blanks ++ [start]))) := by
  subst named
  have directive : String.ofList heredocDirective = "#string" := rfl
  unfold unlessEmpty
  split
  · exact .adjacent rfl directive opens (congrArg String.ofList spelled)
  · exact .spaced rfl directive rfl opens (congrArg String.ofList spelled)

theorem leads_closedHeredoc {directive blanks delimiter body closing : List Char}
    (named : directive = heredocDirective) (some : body ≠ []) (same : closing = delimiter) :
    Leads (.plain .directive directive :: unlessEmpty .whitespace blanks ++
      .plain .heredocStart delimiter :: unlessEmpty .heredocBody body ++
        [.plain .heredocEnd closing]) := by
  intro offset rest later
  have whole : .plain .directive directive :: unlessEmpty .whitespace blanks ++
      .plain .heredocStart delimiter :: unlessEmpty .heredocBody body ++
        [.plain .heredocEnd closing] =
      (.plain .directive directive :: (unlessEmpty .whitespace blanks ++
        [.plain .heredocStart delimiter])) ++
        [.plain .heredocBody body, .plain .heredocEnd closing] := by
    simp [unlessEmpty, some]
  rw [whole, tokensFrom_append, List.append_assoc]
  exact .heredoc (opens_tokensFrom offset _ named rfl rfl) rfl rfl (congrArg String.ofList same) later

theorem concludes_openHeredoc {directive blanks delimiter body : List Char} {start : Lexeme}
    (named : directive = heredocDirective) (opens : start.kind = .heredocStart)
    (spelled : start.text = delimiter) :
    Concludes (.plain .directive directive :: unlessEmpty .whitespace blanks ++
      start :: unlessEmpty .error body) := by
  intro offset last ends
  have whole : .plain .directive directive :: unlessEmpty .whitespace blanks ++
      start :: unlessEmpty .error body =
      (.plain .directive directive :: (unlessEmpty .whitespace blanks ++ [start])) ++
        unlessEmpty .error body := by
    simp
  have front := opens_tokensFrom offset blanks named opens spelled
  rw [whole, tokensFrom_append, List.append_assoc]
  unfold unlessEmpty at front ⊢
  by_cases empty : body.isEmpty = true
  · simp only [empty, if_true]
    exact .openHeredoc front ends
  · simp only [empty]
    exact .openHeredocBody front rfl ends

/-- A heredoc stands in front of any groups, or it takes the whole text. -/
theorem heredocLexemes_grouped {length : Nat} {text : List Char}
    (named : text.take length = heredocDirective) :
    Leads (heredocLexemes length text) ∨ Concludes (heredocLexemes length text) ∧
      text.length ≤ lexemesLength (heredocLexemes length text) := by
  unfold heredocLexemes
  simp only
  split
  · exact Or.inl (leads_single rfl)
  have size := heredocDelimiter_size (text.drop length)
  split
  · next closed =>
      obtain ⟨some, follows⟩ := heredocBody_closes closed
      rw [size] at follows
      exact Or.inl (leads_closedHeredoc named some follows)
  · next unclosed =>
      refine Or.inr ⟨concludes_openHeredoc named rfl rfl, ?_⟩
      rw [heredocBody_unclosed unclosed]
      simp only [lexemesLength_append, lexemesLength, unlessEmpty_length, Lexeme.plain,
        List.length_take, List.length_drop]
      omega

/-! ### Sources -/

theorem fixedSpellings_alone :
    ∀ entry ∈ fixedSpellings, entry.2 ∉ groupedKinds.map FixedSpelling.token := by
  decide

theorem leads_fixed (character : Char) (text : List Char) : Leads (fixedLexemes character text) := by
  unfold fixedLexemes
  split
  · next spelling kind same =>
      have other := fixedSpellings_alone _ (List.mem_of_find?_eq_some same)
      refine leads_single (Bool.eq_false_iff.mpr fun grouped => other ?_)
      exact List.mem_map_of_mem (List.contains_iff_mem.mp grouped)
  · exact leads_single rfl
  · refine leads_single ?_
    unfold blockCommentLexeme
    split <;> rfl
  · exact leads_string text
  · exact leads_single rfl

theorem directiveLexemes_grouped (text : List Char) :
    Leads (directiveLexemes text) ∨ Concludes (directiveLexemes text) ∧
      text.length ≤ lexemesLength (directiveLexemes text) := by
  unfold directiveLexemes
  simp only
  split
  · exact Or.inl (leads_single rfl)
  split
  · next opens => exact heredocLexemes_grouped (beq_iff_eq.mp opens)
  · exact Or.inl (leads_single rfl)

theorem numberLexeme_alone (extent : NumberExtent) (text : List Char) :
    (numberLexeme extent text).kind.isGrouped = false := by
  rcases numberLexeme_kind extent text with kind | kind
  · rw [kind]
    rfl
  · rw [kind]
    rfl

theorem frontLexemes_grouped (character : Char) (rest : List Char) :
    Leads (frontLexemes character rest) ∨ Concludes (frontLexemes character rest) ∧
      (character :: rest).length ≤ lexemesLength (frontLexemes character rest) := by
  unfold frontLexemes
  simp only
  split
  · exact Or.inl (leads_single rfl)
  split
  · exact Or.inl (leads_single rfl)
  split
  · exact Or.inl (leads_single (numberLexeme_alone _ _))
  split
  · exact directiveLexemes_grouped (character :: rest)
  split
  · exact Or.inl (leads_single rfl)
  · exact Or.inl (leads_fixed character (character :: rest))

theorem lexemesFrom_grouped (bound text : List Char) (offset : Nat) {last : Token}
    (ends : last.kind = .eof) : Grouped (tokensFrom offset (lexemesFrom bound text) ++ [last]) := by
  induction bound generalizing text offset with
  | nil => cases text <;> exact .ended ends
  | cons bounding bound ih =>
      cases text with
      | nil => exact .ended ends
      | cons character rest =>
          rw [lexemesFrom]
          rcases frontLexemes_grouped character rest with leads | ⟨concludes, all⟩
          · rw [tokensFrom_append, List.append_assoc]
            exact leads offset _ (ih _ _)
          · rw [List.drop_eq_nil_of_le all]
            have none : lexemesFrom bound [] = [] := by cases bound <;> rfl
            rw [none, List.append_nil]
            exact concludes offset last ends

/-- The tokens of a source are in groups. -/
theorem lex_groups (source : List Char) : Grouped (lex source).tokens :=
  lexemesFrom_grouped source source 0 rfl

end JaiSyntax

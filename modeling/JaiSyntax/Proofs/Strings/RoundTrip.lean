import JaiSyntax.Proofs.Lexer.Groups
import JaiSyntax.Proofs.Lexer.Reports
import JaiSyntax.Proofs.Locality.Tokens
import JaiSyntax.Proofs.Strings.Spelling
/-!
Strings read back. However the characters of a string are written, its tokens stand for just these
characters, and only a number that is no code point is an error, with the replacement character in its
place.
-/

set_option autoImplicit false

namespace JaiSyntax

open SourceUnit

/-! ### What the tokens of a string stand for -/

def Token.denotes (token : Token) : List Char :=
  match token.kind, token.value with
  | .stringContent, _ => token.text.toList
  | .escapeSequence, .char character => [character]
  | _, _ => []

def Lexeme.denotes (piece : Lexeme) : List Char :=
  match piece.kind, piece.value with
  | .stringContent, _ => piece.text
  | .escapeSequence, .char character => [character]
  | _, _ => []

/-- One error for each piece that stands for no character. -/
def escapeErrors (offset : Nat) : List (Option Char × List Char) → List LexError
  | [] => []
  | (meaning, piece) :: rest =>
      let later := escapeErrors (offset + utf8Length piece) rest
      match meaning with
      | some _ => later
      | none => ⟨⟨offset, offset + utf8Length piece⟩, .invalidEscape (String.ofList piece)⟩ :: later

theorem escapeErrors_some (offset : Nat) (content : List Char) (pieces : List (List Char)) :
    escapeErrors offset ((content.map some).zip pieces) = [] := by
  induction content generalizing offset pieces with
  | nil => rfl
  | cons character content ih =>
      cases pieces with
      | nil => rfl
      | cons piece pieces => exact ih _ pieces

structure Renders (meanings : List (Option Char)) (pieces : List (List Char)) (body : List Lexeme) :
    Prop where
  joined : joinLexemes body = pieces.flatten
  kinds : ∀ piece ∈ body, piece.kind = .stringContent ∨ piece.kind = .escapeSequence
  denotes : body.flatMap Lexeme.denotes =
    meanings.map (fun meaning => meaning.getD replacementCharacter)
  errors (offset : Nat) : lexErrorsFrom offset body = escapeErrors offset (meanings.zip pieces)

theorem escapeErrors_append (offset : Nat) (first second : List (Option Char × List Char)) :
    escapeErrors offset (first ++ second) = escapeErrors offset first ++
      escapeErrors (offset + utf8Length (first.map Prod.snd).flatten) second := by
  induction first generalizing offset with
  | nil => rfl
  | cons entry rest ih =>
      obtain ⟨meaning, piece⟩ := entry
      have further := ih (offset + utf8Length piece)
      rw [Nat.add_assoc, ← utf8Length_append] at further
      cases meaning with
      | some character => exact further
      | none => exact congrArg (List.cons _) further

namespace Renders

variable {meanings others : List (Option Char)} {pieces more : List (List Char)}
  {body later : List Lexeme}

theorem nil : Renders [] [] [] := ⟨rfl, List.forall_mem_nil _, rfl, fun _ => rfl⟩

theorem append (front : Renders meanings pieces body) (same : meanings.length = pieces.length)
    (back : Renders others more later) :
    Renders (meanings ++ others) (pieces ++ more) (body ++ later) := by
  refine ⟨?_, ?_, ?_, fun offset => ?_⟩
  · rw [joinLexemes, List.flatMap_append, List.flatten_append]
    exact congrArg₂ _ front.joined back.joined
  · exact List.forall_mem_append.mpr ⟨front.kinds, back.kinds⟩
  · rw [List.flatMap_append, List.map_append, front.denotes, back.denotes]
  · have second : (meanings.zip pieces).map Prod.snd = pieces :=
      List.map_snd_zip (Nat.le_of_eq same.symm)
    rw [List.zip_append same, lexErrorsFrom_append, escapeErrors_append, front.errors, back.errors,
      front.joined, second]

theorem run (characters : List Char) :
    Renders (characters.map some) (characters.map (fun character => [character]))
      [.plain .stringContent characters] := by
  refine ⟨?_, ?_, ?_, fun offset => ?_⟩
  · rw [← List.flatMap_def, List.flatMap_singleton']
    exact List.append_nil _
  · exact List.forall_mem_singleton.mpr (Or.inl rfl)
  · rw [List.map_map]
    exact (List.append_nil _).trans (List.map_id' characters).symm
  · induction characters generalizing offset with
    | nil => rfl
    | cons character rest ih => exact ih _

theorem escape {form : EscapeForm} {piece : List Char} {meaning : Option Char}
    (escapes : Escapes form piece meaning) : Renders [meaning] [piece] [escapeLexeme form piece] := by
  have stands := escapes.stands
  cases meaning with
  | some character =>
      have lexeme : escapeLexeme form piece = ⟨.escapeSequence, piece, .char character, none⟩ := by
        rw [escapeLexeme, stands]
      rw [lexeme]
      exact ⟨rfl, List.forall_mem_singleton.mpr (Or.inr rfl), rfl, fun _ => rfl⟩
  | none =>
      have lexeme : escapeLexeme form piece = .faulty .escapeSequence piece (.char replacementCharacter)
          (.invalidEscape (String.ofList piece)) := by
        rw [escapeLexeme, stands]
      rw [lexeme]
      exact ⟨rfl, List.forall_mem_singleton.mpr (Or.inr rfl), rfl, fun _ => rfl⟩

end Renders

/-! ### The scan of a body -/

section Scan

variable {meanings : List (Option Char)} {pieces : List (List Char)}

/-- Pieces begin with a run of plain characters, and something else follows the run. -/
theorem exists_run (spelled : List.Forall₂ WrittenAs meanings pieces) (more : List Char) :
    ∃ (run : List Char) (others : List (Option Char)) (later : List (List Char)),
      meanings = run.map some ++ others ∧ pieces = run.map (fun character => [character]) ++ later ∧
        (∀ character ∈ run, isPlainContent character = true) ∧ List.Forall₂ WrittenAs others later ∧
        ∀ character ∈ (later.flatten ++ '"' :: more).head?, isPlainContent character = false := by
  induction spelled with
  | nil =>
      refine ⟨[], [], [], rfl, rfl, List.forall_mem_nil _, .nil, ?_⟩
      rintro character ⟨⟩
      decide
  | @cons meaning piece meanings pieces first rest ih =>
      -- A piece that is no plain character is not in the run, nor is anything behind it.
      have alone (ends : ∀ character ∈ piece.head?, isPlainContent character = false) (some : piece ≠ []) :
          ∀ character ∈ ((piece :: pieces).flatten ++ '"' :: more).head?,
            isPlainContent character = false := by
        intro character member
        rw [List.flatten_cons, List.append_assoc, List.head?_append_of_ne_nil _ some] at member
        exact ends character member
      rcases first.cases with ⟨character, noQuote, noBackslash, rfl, rfl⟩ | ⟨form, escapes⟩
      · cases plain : isPlainContent character with
        | true =>
            obtain ⟨run, others, later, rfl, rfl, all, spelled, ends⟩ := ih
            exact ⟨character :: run, others, later, rfl, rfl, List.forall_mem_cons.mpr ⟨plain, all⟩,
              spelled, ends⟩
        | false =>
            refine ⟨[], _, _, rfl, rfl, List.forall_mem_nil _, .cons first rest, ?_⟩
            refine alone ?_ (List.cons_ne_nil _ _)
            rintro _ ⟨⟩
            exact plain
      · refine ⟨[], _, _, rfl, rfl, List.forall_mem_nil _, .cons first rest, ?_⟩
        obtain ⟨text, rfl⟩ := escapes.backslash
        refine alone ?_ (List.cons_ne_nil _ _)
        rintro _ ⟨⟩
        decide

theorem stringPiece_run {character : Char} {run text : List Char}
    (plain : ∀ other ∈ character :: run, isPlainContent other = true)
    (ends : ∀ other ∈ text.head?, isPlainContent other = false) :
    stringPiece (character :: run ++ text) = (.content, (character :: run).length) := by
  have covered : runLength isPlainContent (character :: run ++ text) = (character :: run).length :=
    runLength_front plain ends
  have own := plain character List.mem_cons_self
  simp only [isPlainContent, Bool.not_eq_true', Bool.or_eq_false_iff] at own
  obtain ⟨⟨noQuote, noBackslash⟩, noFeed⟩ := own
  rw [List.cons_append, stringPiece, noQuote, noBackslash, noFeed]
  exact congrArg (Prod.mk StringPiece.content) covered

/-- The scan of a string body goes over all its pieces and stops at the quote behind them. -/
def EndsBehind (bound more : List Char) (meanings : List (Option Char)) (pieces : List (List Char)) :
    Prop :=
  ∃ body, stringLexemesFrom bound (pieces.flatten ++ '"' :: more) =
      some (body ++ [.plain .quote ['"']]) ∧ Renders meanings pieces body

theorem endsBehind_nil (bound more : List Char) : EndsBehind bound more [] [] :=
  ⟨[], stringLexemesFrom_close bound more, .nil⟩

/-- One lexeme, over one piece or over a run of them, in front of what is scanned to its end. -/
theorem EndsBehind.cons {bound more covered : List Char} {piece : StringPiece}
    {front others : List (Option Char)} {own later : List (List Char)}
    (rest : EndsBehind bound more others later) (bounding : Char) (joined : own.flatten = covered)
    (found : stringPiece (covered ++ (later.flatten ++ '"' :: more)) = (piece, covered.length))
    (further : piece ≠ .endOfInput) (unclosed : piece ≠ .close)
    (renders : Renders front own [pieceLexeme piece covered]) (same : front.length = own.length) :
    EndsBehind (bounding :: bound) more (front ++ others) (own ++ later) := by
  obtain ⟨body, scanned, rendered⟩ := rest
  refine ⟨pieceLexeme piece covered :: body, ?_, renders.append same rendered⟩
  rw [List.flatten_append, joined, List.append_assoc, stringLexemesFrom_cons found further unclosed,
    List.drop_left, List.take_left, scanned]
  rfl

theorem endsBehind_spelled (bound : List Char) (spelled : List.Forall₂ WrittenAs meanings pieces)
    (enough : pieces.length ≤ bound.length) (more : List Char) :
    EndsBehind bound more meanings pieces := by
  -- Each lexeme covers one piece or more, so that the bound is that of the pieces.
  induction bound generalizing meanings pieces with
  | nil =>
      obtain rfl := List.eq_nil_of_length_eq_zero (Nat.le_zero.mp enough)
      cases spelled
      exact endsBehind_nil [] more
  | cons bounding bound ih =>
      obtain ⟨run, others, later, rfl, rfl, plain, rest, ends⟩ := exists_run spelled more
      rw [List.length_append, List.length_map] at enough
      cases run with
      | cons character run =>
          have covered : ((character :: run).map (fun other => [other])).flatten = character :: run := by
            rw [← List.flatMap_def, List.flatMap_singleton']
          rw [List.length_cons, List.length_cons] at enough
          have scanned := ih rest (by omega)
          exact scanned.cons bounding covered (stringPiece_run plain ends) StringPiece.noConfusion
            StringPiece.noConfusion (.run _) (by simp)
      | nil =>
          cases rest with
          | nil => exact endsBehind_nil _ more
          | @cons meaning piece others later first rest =>
              rw [List.length_nil, List.length_cons, List.length_cons, Nat.zero_add] at enough
              have scanned := ih rest (Nat.le_of_succ_le_succ enough)
              have covered (text : List Char) : [text].flatten = text := List.append_nil text
              rcases first.cases with ⟨character, noQuote, noBackslash, rfl, rfl⟩ | ⟨form, escapes⟩
              · rcases (isPlainContent_eq_false_iff character).mp (ends character rfl) with
                  quote | backslash | rfl
                · exact absurd quote noQuote
                · exact absurd backslash noBackslash
                have lineBreak : Renders [some '\n'] [['\n']] [pieceLexeme .lineBreak ['\n']] := .run ['\n']
                exact scanned.cons bounding (covered ['\n']) rfl StringPiece.noConfusion
                  StringPiece.noConfusion lineBreak rfl
              · have alone : Renders [meaning] [piece] [pieceLexeme (.escape form) piece] := .escape escapes
                exact scanned.cons bounding (covered piece) (escapes.scanned _) StringPiece.noConfusion
                  StringPiece.noConfusion alone rfl

end Scan

/-! ### Strings -/

structure ReadsString (source content : List Char) (errors : List LexError) : Prop where
  tokens : ∃ opening inside closing ending,
    (lex source).tokens = opening :: inside ++ [closing, ending] ∧
      [opening, closing, ending].map Token.kind = [.quote, .quote, .eof] ∧
      (∀ token ∈ inside, token.kind = .stringContent ∨ token.kind = .escapeSequence) ∧
      inside.flatMap Token.denotes = content
  errors : (lex source).errors = errors

def literalOf (pieces : List (List Char)) : List Char := '"' :: pieces.flatten ++ ['"']

section Strings

variable {meanings : List (Option Char)} {pieces : List (List Char)}

theorem WrittenAs.ne_nil {meaning : Option Char} {piece : List Char} (written : WrittenAs meaning piece) :
    piece ≠ [] := by
  cases written <;> exact List.cons_ne_nil _ _

theorem length_le_flatten (spelled : List.Forall₂ WrittenAs meanings pieces) :
    pieces.length ≤ pieces.flatten.length := by
  induction spelled with
  | nil => exact Nat.le_refl 0
  | cons first _ ih =>
      have positive := List.length_pos_iff.mpr first.ne_nil
      rw [List.length_cons, List.flatten_cons, List.length_append]
      omega

theorem lexemes_literalOf (spelled : List.Forall₂ WrittenAs meanings pieces) (more : List Char) :
    ∃ body, lexemes (literalOf pieces ++ more) =
        .plain .quote ['"'] :: body ++ .plain .quote ['"'] :: lexemes more ∧
      Renders meanings pieces body := by
  have whole : literalOf pieces ++ more = '"' :: (pieces.flatten ++ '"' :: more) := by
    simp [literalOf]
  have enough : pieces.length ≤ ('"' :: (pieces.flatten ++ '"' :: more)).length := by
    have shorter := length_le_flatten spelled
    rw [List.length_cons, List.length_append]
    omega
  obtain ⟨body, scanned, renders⟩ := endsBehind_spelled _ spelled enough more
  have front : frontLexemes '"' (pieces.flatten ++ '"' :: more) =
      .plain .quote ['"'] :: (body ++ [.plain .quote ['"']]) := by
    have string : frontLexemes '"' (pieces.flatten ++ '"' :: more) =
        stringLexemes ('"' :: (pieces.flatten ++ '"' :: more)) := rfl
    rw [string, stringLexemes, List.drop_succ_cons, List.drop_zero, scanned]
    rfl
  have covers : '"' :: (pieces.flatten ++ '"' :: more) =
      joinLexemes (.plain .quote ['"'] :: (body ++ [.plain .quote ['"']])) ++ more := by
    simp [joinLexemes, Lexeme.plain, ← renders.joined]
  refine ⟨body, ?_, renders⟩
  rw [whole, lexemes_front front covers]
  simp

theorem tokensFrom_denotes (offset : Nat) (body : List Lexeme) :
    (tokensFrom offset body).flatMap Token.denotes = body.flatMap Lexeme.denotes := by
  induction body generalizing offset with
  | nil => rfl
  | cons piece rest ih =>
      have own : Token.denotes ⟨piece.kind, ⟨offset, offset + utf8Length piece.text⟩, piece.value,
          String.ofList piece.text⟩ = piece.denotes := by
        simp only [Token.denotes, Lexeme.denotes, String.toList_ofList]
      rw [tokensFrom, List.flatMap_cons, List.flatMap_cons, own, ih]

/-- A string stands for what its pieces mean, with an error for each piece that means nothing. -/
theorem reads_literalOf (spelled : List.Forall₂ WrittenAs meanings pieces) :
    ReadsString (literalOf pieces) (meanings.map (fun meaning => meaning.getD replacementCharacter))
      (escapeErrors 1 (meanings.zip pieces)) := by
  obtain ⟨body, same, renders⟩ := lexemes_literalOf spelled []
  rw [List.append_nil] at same
  have closed : lexemes (literalOf pieces) = .plain .quote ['"'] :: (body ++ [.plain .quote ['"']]) := same
  have tokens : (lex (literalOf pieces)).tokens = tokensFrom 0 [.plain .quote ['"']] ++
      (tokensFrom 1 body ++ (tokensFrom (1 + utf8Length (joinLexemes body)) [.plain .quote ['"']] ++
        [.endOfFile (utf8Length (literalOf pieces))])) := by
    rw [lex, closed, tokensFrom, tokensFrom_append, List.cons_append, List.append_assoc]
    rfl
  have errors : lexErrorsFrom 0 (.plain .quote ['"'] :: (body ++ [.plain .quote ['"']])) =
      lexErrorsFrom 1 body := by
    have own : lexErrorsFrom 0 (.plain .quote ['"'] :: (body ++ [.plain .quote ['"']])) =
        lexErrorsFrom 1 (body ++ [.plain .quote ['"']]) := rfl
    rw [own, lexErrorsFrom_append]
    exact List.append_nil _
  constructor
  · refine ⟨_, tokensFrom 1 body, _, _, tokens, rfl, ?_, ?_⟩
    · intro token member
      obtain ⟨piece, inside, kind, -⟩ := tokensFrom_mem member
      exact kind ▸ renders.kinds piece inside
    · rw [tokensFrom_denotes, renders.denotes]
  · rw [lex, closed, ← renders.errors, ← errors]

end Strings

/-! ### Escape sequences of any source -/

def Lexeme.FromEscape (piece : Lexeme) : Prop :=
  piece.kind = .escapeSequence → ∃ form text length,
    stringPiece text = (.escape form, length) ∧ piece = escapeLexeme form (text.take length)

section Origin

theorem fromEscape_single {piece : Lexeme} (other : piece.kind ≠ .escapeSequence) :
    ∀ only ∈ [piece], only.FromEscape :=
  List.forall_mem_singleton.mpr (fun same => absurd same other)

theorem fromEscape_unlessEmpty {kind : TokenKind} (other : kind ≠ .escapeSequence) (text : List Char) :
    ∀ piece ∈ unlessEmpty kind text, piece.FromEscape := by
  unfold unlessEmpty
  split
  · exact List.forall_mem_nil _
  · exact fromEscape_single other

theorem fromEscape_stringFrom (bound text : List Char) (pieces : List Lexeme)
    (closes : stringLexemesFrom bound text = some pieces) : ∀ piece ∈ pieces, piece.FromEscape := by
  fun_induction stringLexemesFrom bound text generalizing pieces with
  | case1 bound text length same => cases closes
  | case2 bound text length same =>
      cases closes
      exact fromEscape_single TokenKind.noConfusion
  | case3 text piece length more unclosed same => cases closes
  | case4 text piece length more unclosed same covered lexeme character bound ih =>
      obtain ⟨rest, later, rfl⟩ := Option.map_eq_some_iff.mp closes
      refine List.forall_mem_cons.mpr ⟨?_, ih rest later⟩
      cases piece with
      | escape form => exact fun _ => ⟨form, text, length, same, rfl⟩
      | _ => exact fun kind => TokenKind.noConfusion kind

theorem fromEscape_string (text : List Char) : ∀ piece ∈ stringLexemes text, piece.FromEscape := by
  unfold stringLexemes
  split
  · next pieces closes =>
      exact List.forall_mem_cons.mpr
        ⟨fun kind => TokenKind.noConfusion kind, fromEscape_stringFrom _ _ pieces closes⟩
  · exact fromEscape_single TokenKind.noConfusion

theorem fromEscape_heredoc (length : Nat) (text : List Char) :
    ∀ piece ∈ heredocLexemes length text, piece.FromEscape := by
  have plain {kind : TokenKind} (other : kind ≠ .escapeSequence) (text : List Char) :
      (Lexeme.plain kind text).FromEscape := fun same => absurd same other
  rcases heredocLexemes_cases length text with bare | ⟨blanks, delimiter, body, closing, closed⟩ |
    ⟨blanks, delimiter, body, unclosed, -⟩
  · rw [bare]
    exact fromEscape_single TokenKind.noConfusion
  · rw [closed, List.forall_mem_append, List.forall_mem_append, List.forall_mem_cons,
      List.forall_mem_cons]
    exact ⟨⟨⟨plain (by decide) _, fromEscape_unlessEmpty (by decide) _⟩, plain (by decide) _,
      fromEscape_unlessEmpty (by decide) _⟩, fromEscape_single TokenKind.noConfusion⟩
  · rw [unclosed, List.forall_mem_append, List.forall_mem_cons, List.forall_mem_cons]
    exact ⟨⟨plain (by decide) _, fromEscape_unlessEmpty (by decide) _⟩,
      fun kind => TokenKind.noConfusion kind, fromEscape_unlessEmpty (by decide) _⟩

theorem fromEscape_front (character : Char) (rest : List Char) :
    ∀ piece ∈ frontLexemes character rest, piece.FromEscape := by
  have other {kind : TokenKind} (alone : kind.isGrouped = false) : kind ≠ .escapeSequence := by
    rintro rfl
    cases alone
  unfold frontLexemes
  simp only
  split
  · exact fromEscape_single TokenKind.noConfusion
  split
  · exact fromEscape_single TokenKind.noConfusion
  split
  · exact fromEscape_single (other (numberLexeme_alone _ _))
  split
  · unfold directiveLexemes
    simp only
    split
    · exact fromEscape_single TokenKind.noConfusion
    split
    · exact fromEscape_heredoc _ _
    · exact fromEscape_single TokenKind.noConfusion
  split
  · exact fromEscape_single TokenKind.noConfusion
  unfold fixedLexemes
  split
  · next spelling kind same =>
      have known := fixedSpellings_alone _ (List.mem_of_find?_eq_some same)
      have ungrouped : kind.isGrouped = false := by
        refine Bool.eq_false_iff.mpr (fun grouped => known ?_)
        exact List.mem_map_of_mem (List.contains_iff_mem.mp grouped)
      exact fromEscape_single (other ungrouped)
  · exact fromEscape_single TokenKind.noConfusion
  · unfold blockCommentLexeme
    split <;> exact fromEscape_single TokenKind.noConfusion
  · exact fromEscape_string _
  · exact fromEscape_single TokenKind.noConfusion

/-- A token is a lexeme at its place, and the fault of the lexeme is reported there. -/
theorem tokensFrom_reported {offset : Nat} {pieces : List Lexeme} {token : Token}
    (member : token ∈ tokensFrom offset pieces) :
    ∃ piece ∈ pieces, token.kind = piece.kind ∧ token.value = piece.value ∧
      token.text = String.ofList piece.text ∧
      ∀ fault, piece.problem = some ⟨fault, piece.text⟩ →
        ⟨token.span, fault⟩ ∈ lexErrorsFrom offset pieces := by
  induction pieces generalizing offset with
  | nil => cases member
  | cons piece rest ih =>
      rcases List.mem_cons.mp member with rfl | later
      · refine ⟨piece, List.mem_cons_self, rfl, rfl, rfl, fun fault same => ?_⟩
        rw [lexErrorsFrom, same]
        exact List.mem_cons_self
      · obtain ⟨other, inside, kind, value, text, reported⟩ := ih later
        refine ⟨other, List.mem_cons_of_mem _ inside, kind, value, text, fun fault same => ?_⟩
        have found := reported fault same
        rw [lexErrorsFrom]
        cases piece.problem with
        | none => exact found
        | some problem => exact List.mem_cons_of_mem _ found

theorem escapeLexeme_unassigned {form : EscapeForm} {text digits : List Char} {length number : Nat}
    (scanned : stringPiece text = (.escape form, length))
    (same : text.take length = bracedEscapeText digits) (some : digits ≠ [])
    (numeral : IsNumeral 16 digits number) (unassigned : ∀ character : Char, character.toNat ≠ number) :
    escapeLexeme form (text.take length) =
      .faulty .escapeSequence (bracedEscapeText digits) (.char replacementCharacter)
        (.invalidEscape (String.ofList (bracedEscapeText digits))) := by
  have braced := Escapes.braced some numeral.hexDigits
  rw [numeral.no_scalar (by decide) unassigned] at braced
  have found := braced.scanned (text.drop length)
  rw [← same, List.take_append_drop, scanned] at found
  have form' : form = .unicodeBraced := StringPiece.escape.inj (Prod.mk.inj found).1
  rw [same, form', escapeLexeme, braced.stands]

/-- A string reads back as its characters, each written as itself or by its code point, without an error; a
number in braces that is no code point is the replacement character and one error, in such a string as in any
other source. -/
theorem lex_string :
    (∀ (content : List Char) (pieces : List (List Char)),
        List.Forall₂ (fun character piece => WrittenAs (some character) piece) content pieces →
          ReadsString (literalOf pieces) content []) ∧
      (∀ (meanings : List (Option Char)) (pieces : List (List Char)),
        List.Forall₂ WrittenAs meanings pieces →
          ReadsString (literalOf pieces) (meanings.map (fun meaning => meaning.getD '\uFFFD'))
            (escapeErrors 1 (meanings.zip pieces))) ∧
      ∀ (source digits : List Char) (number : Nat) (token : Token),
        token ∈ (lex source).tokens → token.kind = .escapeSequence →
          token.text = String.ofList (bracedEscapeText digits) → digits ≠ [] →
            IsNumeral 16 digits number → (∀ character : Char, character.toNat ≠ number) →
              token.value = .char '\uFFFD' ∧
                ⟨token.span, .invalidEscape token.text⟩ ∈ (lex source).errors := by
  refine ⟨fun content pieces spelled => ?_, fun _ _ spelled => reads_literalOf spelled, ?_⟩
  · have reads := reads_literalOf (List.forall₂_map_left_iff.mpr spelled)
    have own : (content.map some).map (fun meaning => meaning.getD replacementCharacter) = content := by
      rw [List.map_map]
      exact List.map_id' content
    rwa [escapeErrors_some, own] at reads
  · intro source digits number token member kind text some numeral unassigned
    have inside : token ∈ tokensFrom 0 (lexemes source) := by
      rcases List.mem_append.mp member with inside | ending
      · exact inside
      · cases List.mem_singleton.mp ending
        cases kind
    obtain ⟨piece, found, kind', value, text', reported⟩ := tokensFrom_reported inside
    obtain ⟨form, whole, length, scanned, rfl⟩ :=
      forall_lexemes fromEscape_front source piece found (kind' ▸ kind)
    have same : whole.take length = bracedEscapeText digits := by
      rw [text, (escapeLexeme_text _ _).1] at text'
      exact String.ofList_injective text'.symm
    rw [escapeLexeme_unassigned scanned same some numeral unassigned] at value reported
    rw [text]
    exact ⟨value, reported _ rfl⟩

/-- A letter by its code point with leading zeros, a raw line feed and a quote in octal, and a surrogate. -/
theorem lex_string_of_escapes :
    ReadsString (literalOf [bracedEscapeText ['0', '0', 'E', '9'], ['\n'], ['\\', '0', '4', '2']])
        ['é', '\n', '"'] [] ∧
      ReadsString (literalOf [bracedEscapeText ['d', '8', '0', '0']]) ['\uFFFD']
        [⟨⟨1, 9⟩, .invalidEscape (String.ofList (bracedEscapeText ['d', '8', '0', '0']))⟩] ∧
      ∀ token ∈ (lex (literalOf [bracedEscapeText ['d', '8', '0', '0']])).tokens,
        token.kind = .escapeSequence → token.text = String.ofList (bracedEscapeText ['d', '8', '0', '0']) →
          token.value = .char '\uFFFD' := by
  have letter : IsNumeral 16 ['0', '0', 'E', '9'] 'é'.toNat :=
    ⟨[0, 0, 14, 9], .cons ⟨by decide, by decide⟩ (.cons ⟨by decide, by decide⟩
      (.cons ⟨by decide, by decide⟩ (.cons ⟨by decide, by decide⟩ .nil))), by decide⟩
  have quote : IsNumeral 8 ['0', '4', '2'] '"'.toNat :=
    ⟨[0, 4, 2], .cons ⟨by decide, by decide⟩ (.cons ⟨by decide, by decide⟩
      (.cons ⟨by decide, by decide⟩ .nil)), by decide⟩
  have surrogate : IsNumeral 16 ['d', '8', '0', '0'] 0xD800 :=
    ⟨[13, 8, 0, 0], .cons ⟨by decide, by decide⟩ (.cons ⟨by decide, by decide⟩
      (.cons ⟨by decide, by decide⟩ (.cons ⟨by decide, by decide⟩ .nil))), by decide⟩
  have unassigned (character : Char) : character.toNat ≠ 0xD800 := by
    intro same
    have valid : character.toNat.isValidChar := character.valid
    rw [same] at valid
    revert valid
    decide
  refine ⟨lex_string.1 _ _ (.cons (.braced (by decide) letter) (.cons (.raw (by decide) (by decide))
    (.cons (.octal rfl quote) .nil))), ?_, ?_⟩
  · exact lex_string.2.1 [none] _ (.cons (.unassigned (by decide) surrogate unassigned) .nil)
  · intro token member kind text
    exact (lex_string.2.2 _ _ _ token member kind text (by decide) surrogate unassigned).1

end Origin

end JaiSyntax

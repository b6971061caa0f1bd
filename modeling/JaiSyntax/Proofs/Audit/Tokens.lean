import JaiSyntax.Proofs.Audit.Basic
import JaiSyntax.Proofs.Locality.Tokens
import JaiSyntax.Proofs.Reading.Source
/-!
The audit of the lexer and of the token cursor. A fixed spelling that starts a comment is its opener, and
the tokens that a cursor has handed out are those before its gap.
-/

set_option autoImplicit false

namespace JaiSyntax

/-! ### The lexer -/

theorem lineComment_spelling :
    ∀ entry ∈ fixedSpellings, entry.2 = .lineComment → entry.1 = ['/', '/'] := by
  decide

theorem blockComment_spelling :
    ∀ entry ∈ fixedSpellings, entry.2 = .blockComment → entry.1 = ['/', '*'] := by
  decide

theorem auditFixed_eq (character : Char) (text : List Char) :
    auditFixed character text = some (fixedLexemes character text) := by
  unfold auditFixed fixedLexemes
  cases found : fixedSpelling? text with
  | none => rfl
  | some entry =>
      obtain ⟨spelling, starts⟩ := entry
      obtain ⟨member, front⟩ := fixedSpelling_prefix found
      cases starts with
      | token kind => rfl
      | lineComment =>
          have spelled : spelling = ['/', '/'] := lineComment_spelling _ member rfl
          rw [spelled] at front
          exact if_pos (List.isPrefixOf_iff_prefix.mpr front)
      | blockComment =>
          have spelled : spelling = ['/', '*'] := blockComment_spelling _ member rfl
          rw [spelled] at front
          exact if_pos (List.isPrefixOf_iff_prefix.mpr front)
      | string => rfl

theorem auditHeredoc_eq (length : Nat) (text : List Char) :
    auditHeredoc length text = some (heredocLexemes length text) := by
  unfold auditHeredoc
  simp only
  cases found : heredocDelimiter (text.drop length) with
  | mk blanks size =>
  by_cases none : size = 0
  · rw [if_neg (by simp [none])]
  · have delimiter := heredocDelimiter_nonempty found none
    rw [List.isEmpty_eq_false_iff.mpr delimiter, Bool.and_false, if_neg Bool.false_ne_true]

theorem auditDirective_eq (text : List Char) :
    auditDirective text = some (directiveLexemes text) := by
  unfold auditDirective
  simp only
  split
  · next heredoc =>
      obtain ⟨word, spelled⟩ := Bool.and_eq_true_iff.mp heredoc
      have some : ¬ (wordLength (text.drop 1) == 0) = true := by simpa using word
      rw [auditHeredoc_eq, directiveLexemes, if_neg some, if_pos spelled]
  · rfl

theorem auditFront_eq (character : Char) (rest : List Char) :
    auditFront character rest = some (frontLexemes character rest) := by
  unfold auditFront
  simp only
  split
  · rfl
  next regular =>
  obtain ⟨outside, digit⟩ := Bool.or_eq_false_iff.mp (Bool.eq_false_iff.mpr regular)
  obtain ⟨blank, word⟩ := Bool.or_eq_false_iff.mp outside
  have front : frontLexemes character rest =
      if character == '#' then directiveLexemes (character :: rest)
      else if character == '@' && wordLength rest != 0 then
        [.plain .note ((character :: rest).take (wordLength rest + 1))]
      else fixedLexemes character (character :: rest) := by
    rw [frontLexemes]
    simp only [blank, word, digit, Bool.false_eq_true, if_false]
  rw [front]
  split
  · exact auditDirective_eq _
  split
  · rfl
  · exact auditFixed_eq _ _

theorem auditLexemesFrom_eq (bound text : List Char) :
    auditLexemesFrom bound text = some (lexemesFrom bound text) := by
  induction bound generalizing text with
  | nil => cases text <;> rfl
  | cons bounding bound ih =>
      cases text with
      | nil => rfl
      | cons character rest =>
          rw [auditLexemesFrom, auditFront_eq]
          simp only [Option.bind_eq_bind, Option.bind_some, ih]
          rw [lexemesFrom]

/-- Lexing a source passes its audit. -/
theorem auditLex_eq (source : List Char) : auditLex source = some (lex source) := by
  rw [auditLex, auditLexemesFrom_eq]
  rfl

/-! ### The token cursor -/

/-- The places of the significant tokens ahead, the first of which is at `index`. -/
def stopPlaces (index : Nat) : List Stop → List Nat
  | [] => []
  | stop :: rest => index :: stopPlaces (index + 1 + (tokensOfExtras stop.gap).length) rest

theorem significantFrom_eq (index : Nat) (bound tokens : List Token) :
    significantFrom index bound tokens =
      stopPlaces (index + (tokensOfExtras (partTokens bound tokens).1).length)
        (partTokens bound tokens).2 := by
  induction bound generalizing index tokens with
  | nil => cases tokens <;> rfl
  | cons bounding bound ih =>
      cases tokens with
      | nil => rfl
      | cons token rest =>
          rw [significantFrom, partTokens]
          split
          · rfl
          split
          · rw [ih]
            congr 1
            rw [tokensOfExtras, tokensOfExtras, List.flatMap_cons, List.length_append, Extra.tokens,
              List.length_singleton]
            omega
          split
          · rw [ih]
            congr 1
            rw [tokensOfExtras, tokensOfExtras, List.flatMap_cons, List.length_append, Extra.tokens,
              List.length_cons, List.length_take_of_le (noticeLength_le rest)]
            omega
          · rw [ih]
            rfl

/-- A cursor in front of the tokens that were not handed out yet. -/
structure TokenCursor.Tracks (significant : List Nat) (cursor : TokenCursor) (emitted : Nat) :
    Prop where
  proper : cursor.Proper
  places : significant.drop cursor.position =
    stopPlaces (emitted + (tokensOfExtras cursor.gap).length) cursor.ahead

namespace Tally

variable {significant : List Nat}

/-- What an audited move makes of a state: the move itself, with its tokens counted. -/
def Passes (significant : List Nat) (audited : Option Tally) (state : ParserState) : Prop :=
  ∃ emitted, audited = some ⟨state, emitted⟩ ∧ state.cursor.Tracks significant emitted

theorem tracks_initial (size : Nat) (tokens : List Token) :
    (ParserState.initial size tokens).cursor.Tracks (significantFrom 0 tokens tokens) 0 where
  proper := TokenCursor.ofTokens_proper size tokens
  places := significantFrom_eq 0 tokens tokens

theorem flush_tracks (tally : Tally) (tracks : tally.state.cursor.Tracks significant tally.emitted) :
    tally.flush.state.cursor.Tracks significant tally.flush.emitted where
  proper := tracks.proper.withoutGap
  places := tracks.places

theorem Passes.bind {audited : Option Tally} {state : ParserState} {next : Tally → Option Tally}
    {later : ParserState} (passes : Passes significant audited state)
    (further : ∀ emitted, state.cursor.Tracks significant emitted →
      Passes significant (next ⟨state, emitted⟩) later) :
    Passes significant (audited.bind next) later := by
  obtain ⟨emitted, same, tracks⟩ := passes
  rw [same, Option.bind_some]
  exact further emitted tracks

/-- The current token is the first that was not handed out yet, once the extras before it are. -/
theorem bumpAs_passes (change : Token → Token) {tally : Tally}
    (tracks : tally.state.cursor.Tracks significant tally.emitted) :
    Passes significant (tally.bumpAs significant change) (tally.state.bumpAs change) := by
  have flushed := flush_tracks tally tracks
  rw [bumpAs, ParserState.bumpAs]
  change Passes significant (if tally.state.flush.isAtEnd = true then _ else _)
    (if tally.state.flush.isAtEnd = true then _ else _)
  by_cases ended : tally.state.flush.isAtEnd = true
  · rw [if_pos ended, if_pos ended]
    exact ⟨_, rfl, flushed⟩
  · rw [if_neg ended, if_neg ended]
    obtain ⟨stop, rest, ahead, advanced⟩ := flushed.proper.advance_eq (Bool.eq_false_iff.mpr ended)
    have places := flushed.places
    rw [ahead, stopPlaces] at places
    have first : significant[tally.state.flush.cursor.position]? = some tally.flush.emitted := by
      rw [← List.head?_drop]
      exact congrArg List.head? places
    refine ⟨tally.flush.emitted + 1, if_pos first, ?_⟩
    change TokenCursor.Tracks significant tally.flush.state.cursor.advance.2 _
    rw [advanced]
    constructor
    · refine ⟨?_, ?_, ?_, flushed.proper.endOfFile⟩
      · exact flushed.proper.gaps stop (by rw [ahead]; exact List.mem_cons_self)
      · exact fun later member => flushed.proper.gaps later (by
          rw [ahead]
          exact List.mem_cons_of_mem stop member)
      · exact fun later member => flushed.proper.ahead later (by
          rw [ahead]
          exact List.mem_cons_of_mem stop member)
    · have later := congrArg List.tail places
      rw [List.tail_drop] at later
      exact later

end Tally

end JaiSyntax

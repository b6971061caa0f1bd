import JaiSyntax.Proofs.Lexer.Concatenation
import Mathlib.Data.List.Nodup
/-!
Lexical errors and the tokens they report. Whether a token is faulty can be seen from its kind and its
neighbours, for all but numbers and escape sequences. Every faulty token is reported by one error, and
every error reports a token, in the order of the source.
-/

set_option autoImplicit false

namespace JaiSyntax

/-! ### Places of tokens -/

/-- A token with the kind of the one before it and the kinds of those behind it. -/
structure Occurrence where
  before : Option TokenKind
  token : Token
  after : List TokenKind

def occurrencesAfter (before : Option TokenKind) : List Token → List Occurrence
  | [] => []
  | token :: rest => ⟨before, token, rest.map Token.kind⟩ :: occurrencesAfter (some token.kind) rest

def occurrences (tokens : List Token) : List Occurrence := occurrencesAfter none tokens

namespace Occurrence

/-- The kind behind a place, what is of the skipped kind left out. -/
def next (skipped : TokenKind) (place : Occurrence) : Option TokenKind :=
  place.after.find? (fun kind => kind != skipped)

/-- An invalid token that is not the body of a heredoc. -/
def IsInvalid (place : Occurrence) : Prop :=
  place.token.kind = .error ∧ place.before ≠ some .heredocStart

def IsOpenHeredoc (place : Occurrence) : Prop :=
  place.token.kind = .heredocStart ∧ place.next .heredocBody ≠ some .heredocEnd

/-- A directive that opens a heredoc and has no delimiter. -/
def IsBareDirective (place : Occurrence) : Prop :=
  place.token.kind = .directive ∧ place.token.text = "#string" ∧
    place.next .whitespace ≠ some .heredocStart

def IsFaulty (place : Occurrence) : Prop :=
  place.IsInvalid ∨ place.IsOpenHeredoc ∨ place.IsBareDirective

end Occurrence

def LexFault.Concerns (fault : LexFault) (place : Occurrence) : Prop :=
  match fault with
  | .unterminatedString => place.IsInvalid
  | .unterminatedBlockComment _ => place.IsInvalid
  | .invalidCharacter character => place.IsInvalid ∧ place.token.text = character.toString
  | .unterminatedHeredoc delimiter => place.IsOpenHeredoc ∧ place.token.text = delimiter
  | .missingHeredocDelimiter => place.IsBareDirective
  | .intOverflow => place.token.kind = .int
  | .floatBitsTooLong _ => place.token.kind = .float
  | .invalidFloat => place.token.kind = .float
  | .invalidEscape text =>
      place.token.kind = .escapeSequence ∧ place.token.value = .char '\uFFFD' ∧
        place.token.text = text

/-- What a fault covers in a source of `size` bytes: the token it is found at, or all of the source from
there on. -/
def LexFault.extent (fault : LexFault) (size : Nat) (span : Span) : Span :=
  match fault with
  | .unterminatedHeredoc _ => ⟨span.start, size⟩
  | _ => span

structure LexError.Reports (size : Nat) (place : Occurrence) (error : LexError) : Prop where
  concerns : error.fault.Concerns place
  span : error.span = error.fault.extent size place.token.span

/-! ### Lexemes and their faults -/

def Lexeme.place (offset : Nat) (before : Option TokenKind) (piece : Lexeme) (rest : List Lexeme) :
    Occurrence :=
  ⟨before, ⟨piece.kind, ⟨offset, offset + utf8Length piece.text⟩, piece.value,
    String.ofList piece.text⟩, rest.map Lexeme.kind ++ [.eof]⟩

def LexFault.coverage (fault : LexFault) (piece : Lexeme) (rest : List Lexeme) : List Char :=
  match fault with
  | .unterminatedHeredoc _ => joinLexemes (piece :: rest)
  | _ => piece.text

/-- Whether a lexeme has a fault that can be found at its place, or none where there is nothing to
report. -/
def Lexeme.Fits (before : Option TokenKind) (piece : Lexeme) (rest : List Lexeme) : Prop :=
  match piece.problem with
  | none => ∀ offset, ¬ (piece.place offset before rest).IsFaulty
  | some problem => (∀ offset, problem.fault.Concerns (piece.place offset before rest)) ∧
      problem.covered = problem.fault.coverage piece rest

def Sound (before : Option TokenKind) : List Lexeme → Prop
  | [] => True
  | piece :: rest => piece.Fits before rest ∧ Sound (some piece.kind) rest

/-- A lexeme that fits wherever no heredoc has just been opened, and opens none. -/
structure Lexeme.Stands (piece : Lexeme) : Prop where
  closed : piece.kind ≠ .heredocStart
  fits (before : Option TokenKind) (rest : List Lexeme) :
    before ≠ some .heredocStart → piece.Fits before rest

namespace Lexeme

variable {piece : Lexeme} {text : List Char}

theorem fits_of_kind {before : Option TokenKind} {rest : List Lexeme} (fine : piece.problem = none)
    (other : piece.kind ∉ [TokenKind.error, .heredocStart, .directive]) : piece.Fits before rest := by
  unfold Fits
  rw [fine]
  intro offset faulty
  simp only [List.mem_cons, List.not_mem_nil, or_false, not_or] at other
  rcases faulty with invalid | opened | bare
  · exact other.1 invalid.1
  · exact other.2.1 opened.1
  · exact other.2.2 bare.1

theorem stands_of_kind (kind : TokenKind) (fine : piece.problem = none) (same : piece.kind = kind)
    (other : kind ∉ [TokenKind.error, .heredocStart, .directive]) : piece.Stands := by
  subst same
  constructor
  · exact (List.ne_of_not_mem_cons (List.not_mem_of_not_mem_cons other))
  · intro before rest _
    exact fits_of_kind fine other

theorem stands_plain {kind : TokenKind} (text : List Char)
    (other : kind ∉ [TokenKind.error, .heredocStart, .directive]) : (plain kind text).Stands :=
  stands_of_kind kind rfl rfl other

theorem stands_directive (other : text ≠ heredocDirective) : (plain .directive text).Stands := by
  constructor
  · exact TokenKind.noConfusion
  · intro before rest _ offset faulty
    rcases faulty with invalid | opened | bare
    · exact TokenKind.noConfusion invalid.1
    · exact TokenKind.noConfusion opened.1
    · exact other (String.ofList_injective bare.2.1)

theorem stands_invalid {fault : LexFault}
    (known : fault = .unterminatedString ∨ (∃ depth, fault = .unterminatedBlockComment depth) ∨
      ∃ character, fault = .invalidCharacter character ∧ text = [character]) :
    (faulty .error text .none fault).Stands := by
  constructor
  · exact TokenKind.noConfusion
  · intro before rest outside
    have invalid (offset : Nat) :
        ((faulty .error text .none fault).place offset before rest).IsInvalid := ⟨rfl, outside⟩
    rcases known with rfl | ⟨depth, rfl⟩ | ⟨character, rfl, rfl⟩
    · exact ⟨invalid, rfl⟩
    · exact ⟨invalid, rfl⟩
    · exact ⟨fun offset => ⟨invalid offset, rfl⟩, rfl⟩

theorem stands_integer (base : NumberBase) (text digits : List Char) :
    (integerLexeme base text digits).Stands := by
  unfold integerLexeme
  split
  · exact stands_of_kind .int rfl rfl (by decide)
  · exact ⟨TokenKind.noConfusion, fun _ _ _ => ⟨fun _ => rfl, rfl⟩⟩

theorem stands_float (base : NumberBase) (text : List Char) (bits? : Option Nat)
    {fault : LexFault} (known : fault = .invalidFloat ∨ ∃ digits, fault = .floatBitsTooLong digits) :
    (floatLexeme base text bits? fault).Stands := by
  unfold floatLexeme
  split
  · exact stands_of_kind .float rfl rfl (by decide)
  · constructor
    · exact TokenKind.noConfusion
    · intro before rest _
      rcases known with rfl | ⟨digits, rfl⟩
      · exact ⟨fun _ => rfl, rfl⟩
      · exact ⟨fun _ => rfl, rfl⟩

theorem stands_number (extent : NumberExtent) (text : List Char) :
    (numberLexeme extent text).Stands := by
  unfold numberLexeme
  split
  · exact stands_integer ..
  · exact stands_float _ _ _ (Or.inl rfl)
  · exact stands_integer ..
  · exact stands_integer ..
  · exact stands_integer ..
  · exact stands_float _ _ _ (Or.inr ⟨_, rfl⟩)
  · exact stands_float _ _ _ (Or.inl rfl)

theorem stands_escape (form : EscapeForm) (text : List Char) : (escapeLexeme form text).Stands := by
  unfold escapeLexeme
  split
  · exact stands_of_kind .escapeSequence rfl rfl (by decide)
  · exact ⟨TokenKind.noConfusion, fun _ _ _ => ⟨fun _ => ⟨rfl, rfl, rfl⟩, rfl⟩⟩

end Lexeme

theorem stands_stringFrom (bound text : List Char) (pieces : List Lexeme)
    (closes : stringLexemesFrom bound text = some pieces) : ∀ piece ∈ pieces, piece.Stands := by
  fun_induction stringLexemesFrom bound text generalizing pieces with
  | case1 bound text length same => cases closes
  | case2 bound text length same =>
      cases closes
      exact List.forall_mem_singleton.mpr (Lexeme.stands_plain _ (by decide))
  | case3 text piece length more unclosed same => cases closes
  | case4 text piece length more unclosed same covered lexeme character bound ih =>
      obtain ⟨rest, later, rfl⟩ := Option.map_eq_some_iff.mp closes
      have first : lexeme.Stands := by
        cases piece with
        | escape form => exact Lexeme.stands_escape form covered
        | _ => exact Lexeme.stands_plain covered (by decide)
      exact List.forall_mem_cons.mpr ⟨first, ih rest later⟩

theorem stands_string (text : List Char) : ∀ piece ∈ stringLexemes text, piece.Stands := by
  unfold stringLexemes
  split
  · next pieces closes =>
      have quote : (Lexeme.plain .quote (text.take 1)).Stands := Lexeme.stands_plain _ (by decide)
      exact List.forall_mem_cons.mpr ⟨quote, stands_stringFrom _ _ pieces closes⟩
  · exact List.forall_mem_singleton.mpr (Lexeme.stands_invalid (Or.inl rfl))

theorem fixedSpellings_fine : ∀ entry ∈ fixedSpellings,
    entry.2 ∉ [TokenKind.error, .heredocStart, .directive].map FixedSpelling.token := by
  decide

theorem stands_fixed (character : Char) (text : List Char) :
    ∀ piece ∈ fixedLexemes character text, piece.Stands := by
  unfold fixedLexemes
  split
  · next spelling kind same =>
      have fine := fixedSpellings_fine _ (List.mem_of_find?_eq_some same)
      have other : kind ∉ [TokenKind.error, .heredocStart, .directive] := fun known =>
        fine (List.mem_map_of_mem known)
      exact List.forall_mem_singleton.mpr (Lexeme.stands_plain spelling other)
  · exact List.forall_mem_singleton.mpr (Lexeme.stands_plain _ (by decide))
  · have comment : (blockCommentLexeme text).Stands := by
      unfold blockCommentLexeme
      split
      · exact Lexeme.stands_plain _ (by decide)
      · exact Lexeme.stands_invalid (Or.inr (Or.inl ⟨_, rfl⟩))
    exact List.forall_mem_singleton.mpr comment
  · exact stands_string text
  · have known : ∃ other, LexFault.invalidCharacter character = .invalidCharacter other ∧
        [character] = [other] := ⟨character, rfl, rfl⟩
    exact List.forall_mem_singleton.mpr (Lexeme.stands_invalid (Or.inr (Or.inr known)))

theorem directiveLexemes_cases (text : List Char) :
    (∀ piece ∈ directiveLexemes text, piece.Stands) ∨
      ∃ length, text.take length = heredocDirective ∧
        directiveLexemes text = heredocLexemes length text := by
  unfold directiveLexemes
  simp only
  split
  · exact Or.inl (List.forall_mem_singleton.mpr (Lexeme.stands_plain _ (by decide)))
  split
  · next opens => exact Or.inr ⟨_, beq_iff_eq.mp opens, rfl⟩
  · next other =>
      have closed : text.take (wordLength (text.drop 1) + 1) ≠ heredocDirective := by
        intro same
        exact other (beq_iff_eq.mpr same)
      exact Or.inl (List.forall_mem_singleton.mpr (Lexeme.stands_directive closed))

theorem frontLexemes_cases (character : Char) (rest : List Char) :
    (∀ piece ∈ frontLexemes character rest, piece.Stands) ∨
      ∃ length, (character :: rest).take length = heredocDirective ∧
        frontLexemes character rest = heredocLexemes length (character :: rest) := by
  unfold frontLexemes
  simp only
  split
  · exact Or.inl (List.forall_mem_singleton.mpr (Lexeme.stands_plain _ (by decide)))
  split
  · exact Or.inl (List.forall_mem_singleton.mpr (Lexeme.stands_plain _ (by decide)))
  split
  · exact Or.inl (List.forall_mem_singleton.mpr (Lexeme.stands_number _ _))
  split
  · exact directiveLexemes_cases (character :: rest)
  split
  · exact Or.inl (List.forall_mem_singleton.mpr (Lexeme.stands_plain _ (by decide)))
  · exact Or.inl (stands_fixed character (character :: rest))

/-! ### Heredocs -/

theorem heredocBody_unclosed {delimiter text : List Char}
    (unclosed : ¬ (heredocBody delimiter text).1 = true) :
    (heredocBody delimiter text).2 = text.length := by
  have same : heredocBodyFrom delimiter 0 text = (false, (heredocBody delimiter text).2) :=
    Prod.ext (Bool.eq_false_iff.mpr unclosed) rfl
  rw [heredocBodyFrom_unclosed same, Nat.zero_add]

theorem heredocLexemes_cases (length : Nat) (text : List Char) :
    heredocLexemes length text =
        [.faulty .directive (text.take length) .none .missingHeredocDelimiter] ∨
      (∃ blanks delimiter body closing, heredocLexemes length text =
        .plain .directive (text.take length) :: unlessEmpty .whitespace blanks ++
          .plain .heredocStart delimiter :: unlessEmpty .heredocBody body ++
            [.plain .heredocEnd closing]) ∨
      ∃ blanks delimiter body, heredocLexemes length text =
        .plain .directive (text.take length) :: unlessEmpty .whitespace blanks ++
          ⟨.heredocStart, delimiter, .none,
            some ⟨.unterminatedHeredoc (String.ofList delimiter), delimiter ++ body⟩⟩ ::
              unlessEmpty .error body ∧
        text.length ≤ lexemesLength (heredocLexemes length text) := by
  unfold heredocLexemes
  simp only
  split
  · exact Or.inl rfl
  split
  · exact Or.inr (Or.inl ⟨_, _, _, _, rfl⟩)
  · next unclosed =>
      refine Or.inr (Or.inr ⟨_, _, _, rfl, ?_⟩)
      rw [heredocBody_unclosed unclosed]
      simp only [lexemesLength_append, lexemesLength, unlessEmpty_length, Lexeme.plain,
        List.length_take, List.length_drop]
      omega

/-! ### Lexemes that fit -/

/-- The first kind among lexemes that is not the skipped one, with the end of the file behind them. -/
def nextKind (skipped : TokenKind) (pieces : List Lexeme) : Option TokenKind :=
  (pieces.map Lexeme.kind ++ [TokenKind.eof]).find? (fun kind => kind != skipped)

theorem next_place (skipped : TokenKind) (offset : Nat) (before : Option TokenKind) (piece : Lexeme)
    (rest : List Lexeme) : (piece.place offset before rest).next skipped = nextKind skipped rest := rfl

theorem nextKind_cons_self {piece : Lexeme} (rest : List Lexeme) :
    nextKind piece.kind (piece :: rest) = nextKind piece.kind rest := by
  simp [nextKind]

theorem nextKind_cons_of_ne {skipped : TokenKind} {piece : Lexeme} (rest : List Lexeme)
    (other : piece.kind ≠ skipped) : nextKind skipped (piece :: rest) = some piece.kind := by
  simp [nextKind, other]

theorem nextKind_unlessEmpty (skipped : TokenKind) (text : List Char) (rest : List Lexeme) :
    nextKind skipped (unlessEmpty skipped text ++ rest) = nextKind skipped rest := by
  unfold unlessEmpty
  split
  · rfl
  · exact nextKind_cons_self rest

theorem nextKind_append {skipped kind : TokenKind} {front later : List Lexeme}
    (other : ∀ piece ∈ front, piece.kind ≠ kind) (behind : nextKind skipped later ≠ some kind) :
    nextKind skipped (front ++ later) ≠ some kind := by
  induction front with
  | nil => exact behind
  | cons piece rest ih =>
      obtain ⟨first, further⟩ := List.forall_mem_cons.mp other
      by_cases same : piece.kind = skipped
      · subst same
        rw [List.cons_append, nextKind_cons_self]
        exact ih further
      · rw [List.cons_append, nextKind_cons_of_ne _ same]
        exact fun equal => first (Option.some.inj equal)

namespace Sound

variable {before : Option TokenKind} {later : List Lexeme}

theorem cons {piece : Lexeme} {rest : List Lexeme} (fits : piece.Fits before rest)
    (sound : Sound (some piece.kind) rest) : Sound before (piece :: rest) :=
  ⟨fits, sound⟩

/-- Lexemes that fit where no heredoc is open can stand in front of such that are sound there. -/
theorem append {front : List Lexeme} (stand : ∀ piece ∈ front, piece.Stands)
    (outside : before ≠ some .heredocStart)
    (sound : ∀ before, before ≠ some .heredocStart → Sound before later) :
    Sound before (front ++ later) := by
  induction front generalizing before with
  | nil => exact sound before outside
  | cons piece rest ih =>
      obtain ⟨first, further⟩ := List.forall_mem_cons.mp stand
      have inside : some piece.kind ≠ some TokenKind.heredocStart := by
        intro same
        exact first.closed (Option.some.inj same)
      exact cons (first.fits before (rest ++ later) outside) (ih further inside)

theorem unlessEmpty {kind : TokenKind} (text : List Char)
    (other : kind ∉ [TokenKind.error, .heredocStart, .directive])
    (sound : ∀ before, Sound before later) :
    Sound before (JaiSyntax.unlessEmpty kind text ++ later) := by
  unfold JaiSyntax.unlessEmpty
  split
  · exact sound before
  · exact cons (Lexeme.fits_of_kind rfl other) (sound _)

theorem directive (text blanks : List Char) {start : Lexeme} (opens : start.kind = .heredocStart)
    (sound : ∀ before, Sound before (start :: later)) :
    Sound before (.plain .directive text ::
      (JaiSyntax.unlessEmpty .whitespace blanks ++ start :: later)) := by
  apply cons
  · intro offset faulty
    rcases faulty with invalid | opened | bare
    · exact TokenKind.noConfusion invalid.1
    · exact TokenKind.noConfusion opened.1
    · apply bare.2.2
      rw [next_place, nextKind_unlessEmpty, nextKind_cons_of_ne later (by rw [opens]; decide), opens]
  · exact unlessEmpty blanks (by decide) sound

theorem closed (delimiter body closing : List Char)
    (sound : Sound (some .heredocEnd) later) :
    Sound before (.plain .heredocStart delimiter ::
      (JaiSyntax.unlessEmpty .heredocBody body ++ .plain .heredocEnd closing :: later)) := by
  apply cons
  · intro offset faulty
    rcases faulty with invalid | opened | bare
    · exact TokenKind.noConfusion invalid.1
    · apply opened.2
      rw [next_place, nextKind_unlessEmpty]
      exact nextKind_cons_of_ne later TokenKind.noConfusion
    · exact TokenKind.noConfusion bare.1
  · apply unlessEmpty body (by decide)
    intro before
    have other : TokenKind.heredocEnd ∉ [TokenKind.error, .heredocStart, .directive] := by decide
    exact cons (Lexeme.fits_of_kind rfl other) sound

/-- The delimiter of a heredoc that takes the rest of a text is reported, and its body is not. -/
theorem unclosed (delimiter body : List Char) :
    Sound before (⟨.heredocStart, delimiter, .none,
      some ⟨.unterminatedHeredoc (String.ofList delimiter), delimiter ++ body⟩⟩ ::
        JaiSyntax.unlessEmpty .error body) := by
  have joined : joinLexemes (JaiSyntax.unlessEmpty .error body) = body := by
    unfold JaiSyntax.unlessEmpty
    split
    · next empty => exact (List.isEmpty_iff.mp empty).symm
    · exact List.append_nil body
  have next : nextKind .heredocBody (JaiSyntax.unlessEmpty .error body) ≠ some .heredocEnd := by
    unfold JaiSyntax.unlessEmpty
    split
    · decide
    · rw [nextKind_cons_of_ne [] TokenKind.noConfusion]
      exact fun same => TokenKind.noConfusion (Option.some.inj same)
  apply cons
  · constructor
    · exact fun offset => ⟨⟨rfl, next⟩, rfl⟩
    · exact congrArg (delimiter ++ ·) joined.symm
  · -- The body is invalid, but it stands right behind the delimiter.
    unfold JaiSyntax.unlessEmpty
    split
    · trivial
    · refine cons ?_ trivial
      intro offset faulty
      rcases faulty with invalid | opened | bare
      · exact invalid.2 rfl
      · exact TokenKind.noConfusion opened.1
      · exact TokenKind.noConfusion bare.1

theorem heredoc {length : Nat} {text : List Char} (named : text.take length = heredocDirective)
    (next : nextKind .whitespace later ≠ some .heredocStart)
    (ends : text.length ≤ lexemesLength (heredocLexemes length text) → later = [])
    (sound : ∀ before, before ≠ some .heredocStart → Sound before later) :
    Sound before (heredocLexemes length text ++ later) := by
  rcases heredocLexemes_cases length text with bare | ⟨blanks, delimiter, body, closing, whole⟩ |
    ⟨blanks, delimiter, body, whole, rest⟩
  · rw [bare, named]
    exact cons ⟨fun offset => ⟨rfl, rfl, next⟩, rfl⟩ (sound _ (by decide))
  · rw [whole, List.append_assoc, List.append_assoc]
    exact directive _ blanks rfl (fun before => closed delimiter body closing (sound _ (by decide)))
  · rw [ends rest, List.append_nil, whole]
    exact directive _ blanks rfl (fun before => unclosed delimiter body)

end Sound

theorem heredocLexemes_directive (length : Nat) (text : List Char) :
    ∃ directive more, heredocLexemes length text = directive :: more ∧
      directive.kind = .directive := by
  rcases heredocLexemes_cases length text with bare | ⟨blanks, delimiter, body, closing, whole⟩ |
    ⟨blanks, delimiter, body, whole, -⟩
  · exact ⟨_, _, bare, rfl⟩
  · exact ⟨_, _, whole, rfl⟩
  · exact ⟨_, _, whole, rfl⟩

/-- No text begins, its white space left out, with the delimiter of a heredoc. -/
theorem nextKind_lexemesFrom (bound text : List Char) :
    nextKind .whitespace (lexemesFrom bound text) ≠ some .heredocStart := by
  have none : nextKind .whitespace [] ≠ some .heredocStart := by decide
  induction bound generalizing text with
  | nil => cases text <;> exact none
  | cons bounding bound ih =>
      cases text with
      | nil => exact none
      | cons character rest =>
          have later := ih ((character :: rest).drop (lexemesLength (frontLexemes character rest)))
          rw [lexemesFrom]
          rcases frontLexemes_cases character rest with stand | ⟨length, named, heredoc⟩
          · exact nextKind_append (fun piece member => (stand piece member).closed) later
          · -- A delimiter stands behind the directive of its heredoc and never comes first.
            obtain ⟨directive, more, front, kind⟩ :=
              heredocLexemes_directive length (character :: rest)
            rw [heredoc, front, List.cons_append,
              nextKind_cons_of_ne _ (by rw [kind]; exact TokenKind.noConfusion), kind]
            exact fun same => TokenKind.noConfusion (Option.some.inj same)

theorem sound_lexemesFrom (bound text : List Char) (before : Option TokenKind)
    (outside : before ≠ some .heredocStart) : Sound before (lexemesFrom bound text) := by
  induction bound generalizing text before with
  | nil => cases text <;> trivial
  | cons bounding bound ih =>
      cases text with
      | nil => trivial
      | cons character rest =>
          rw [lexemesFrom]
          rcases frontLexemes_cases character rest with stand | ⟨length, named, heredoc⟩
          · exact Sound.append stand outside (ih _)
          · rw [heredoc]
            apply Sound.heredoc named (nextKind_lexemesFrom _ _) _ (ih _)
            -- A heredoc that is never closed takes the whole text, and no lexeme follows it.
            intro all
            rw [List.drop_eq_nil_of_le all]
            cases bound <;> rfl

/-! ### Errors and the tokens they report -/

theorem kinds_tokensFrom (offset size : Nat) (pieces : List Lexeme) :
    (tokensFrom offset pieces ++ [Token.endOfFile size]).map Token.kind =
      pieces.map Lexeme.kind ++ [TokenKind.eof] := by
  induction pieces generalizing offset with
  | nil => rfl
  | cons piece rest ih => exact congrArg (piece.kind :: ·) (ih _)

theorem occurrencesAfter_tokensFrom (before : Option TokenKind) (offset size : Nat) (piece : Lexeme)
    (rest : List Lexeme) :
    occurrencesAfter before (tokensFrom offset (piece :: rest) ++ [Token.endOfFile size]) =
      piece.place offset before rest :: occurrencesAfter (some piece.kind)
        (tokensFrom (offset + utf8Length piece.text) rest ++ [Token.endOfFile size]) := by
  rw [tokensFrom, List.cons_append, occurrencesAfter, kinds_tokensFrom, Lexeme.place]

theorem Lexeme.Fits.reports {before : Option TokenKind} {piece : Lexeme} {rest : List Lexeme}
    {problem : LexProblem} (fits : piece.Fits before rest) (found : piece.problem = some problem)
    (offset : Nat) :
    LexError.Reports (offset + utf8Length (joinLexemes (piece :: rest)))
      (piece.place offset before rest)
      ⟨⟨offset, offset + utf8Length problem.covered⟩, problem.fault⟩ := by
  unfold Fits at fits
  rw [found] at fits
  obtain ⟨concerns, covered⟩ := fits
  constructor
  · exact concerns offset
  · rw [covered]
    cases problem.fault <;> rfl

/-- Lexemes that fit become tokens whose errors report, one after another, each faulty one of them. -/
theorem reports_tokensFrom (offset : Nat) (before : Option TokenKind) (pieces : List Lexeme)
    (sound : Sound before pieces) (size : Nat)
    (whole : size = offset + utf8Length (joinLexemes pieces)) :
    ∃ reported, reported.Sublist
        (occurrencesAfter before (tokensFrom offset pieces ++ [Token.endOfFile size])) ∧
      List.Forall₂ (LexError.Reports size) reported (lexErrorsFrom offset pieces) ∧
      ∀ place ∈ occurrencesAfter before (tokensFrom offset pieces ++ [Token.endOfFile size]),
        place.IsFaulty → place ∈ reported := by
  -- The size is that of the whole source: an error of a heredoc that is never closed goes up to there.
  induction pieces generalizing offset before with
  | nil =>
      refine ⟨[], List.nil_sublist _, .nil, List.forall_mem_singleton.mpr ?_⟩
      intro faulty
      rcases faulty with invalid | opened | bare
      · exact TokenKind.noConfusion invalid.1
      · exact TokenKind.noConfusion opened.1
      · exact TokenKind.noConfusion bare.1
  | cons piece rest ih =>
      obtain ⟨fits, later⟩ := sound
      have joined : joinLexemes (piece :: rest) = piece.text ++ joinLexemes rest := List.flatMap_cons
      have remaining : size = offset + utf8Length piece.text + utf8Length (joinLexemes rest) := by
        rw [whole, joined, utf8Length_append, Nat.add_assoc]
      obtain ⟨reported, inside, matched, complete⟩ :=
        ih (offset + utf8Length piece.text) (some piece.kind) later remaining
      rw [occurrencesAfter_tokensFrom, lexErrorsFrom]
      cases found : piece.problem with
      | none =>
          unfold Lexeme.Fits at fits
          rw [found] at fits
          refine ⟨reported, inside.cons _, matched, List.forall_mem_cons.mpr ⟨?_, complete⟩⟩
          intro faulty
          exact absurd faulty (fits offset)
      | some problem =>
          have first := fits.reports found offset
          rw [← whole] at first
          refine ⟨_ :: reported, inside.cons_cons _, .cons first matched, ?_⟩
          intro place member faulty
          rcases List.mem_cons.mp member with rfl | further
          · exact List.mem_cons_self
          · exact List.mem_cons_of_mem _ (complete place further faulty)

theorem lexErrorsFrom_ordered (offset : Nat) (pieces : List Lexeme)
    (some : ∀ lexeme ∈ pieces, lexeme.text ≠ []) :
    (∀ error ∈ lexErrorsFrom offset pieces, offset ≤ error.span.start) ∧
      (lexErrorsFrom offset pieces).Pairwise
        (fun earlier later => earlier.span.start < later.span.start) := by
  induction pieces generalizing offset with
  | nil => exact ⟨List.forall_mem_nil _, .nil⟩
  | cons piece rest ih =>
      obtain ⟨first, further⟩ := List.forall_mem_cons.mp some
      have taken := utf8Length_pos first
      obtain ⟨behind, ordered⟩ := ih (offset + utf8Length piece.text) further
      have beyond : ∀ error ∈ lexErrorsFrom (offset + utf8Length piece.text) rest,
          offset < error.span.start := by
        intro error member
        have := behind error member
        omega
      rw [lexErrorsFrom]
      cases piece.problem with
      | none => exact ⟨fun error member => Nat.le_of_lt (beyond error member), ordered⟩
      | some problem =>
          constructor
          · intro error member
            rcases List.mem_cons.mp member with rfl | later
            · exact Nat.le_refl offset
            · exact Nat.le_of_lt (beyond error later)
          · exact List.pairwise_cons.mpr ⟨beyond, ordered⟩

theorem LexError.Reports.start_eq {size : Nat} {place : Occurrence} {error : LexError}
    (reports : error.Reports size place) : error.span.start = place.token.span.start := by
  rw [reports.span]
  cases error.fault <;> rfl

theorem LexError.Reports.unique {size : Nat} {place : Occurrence} {errors : List LexError}
    {error other : LexError} (reports : error.Reports size place) (again : other.Reports size place)
    (ordered : errors.Pairwise (fun earlier later => earlier.span.start < later.span.start))
    (listed : error ∈ errors) (also : other ∈ errors) : other = error := by
  have distinct : (errors.map (fun error => error.span.start)).Nodup :=
    List.pairwise_map.mpr (ordered.imp Nat.ne_of_lt)
  exact List.inj_on_of_nodup_map distinct also listed (again.start_eq.trans reports.start_eq.symm)

theorem lexErrors_ordered (source : List Char) :
    (lex source).errors.Pairwise (fun earlier later => earlier.span.start < later.span.start) :=
  (lexErrorsFrom_ordered 0 _ (lexemes_nonempty source)).2

/-- The errors of a source report tokens of it in their order, all faulty ones among them. -/
theorem lexErrors_report (source : List Char) :
    ∃ reported, reported.Sublist (occurrences (lex source).tokens) ∧
      List.Forall₂ (LexError.Reports (utf8Length source)) reported (lex source).errors ∧
      ∀ place ∈ occurrences (lex source).tokens, place.IsFaulty → place ∈ reported :=
  reports_tokensFrom 0 none (lexemes source) (sound_lexemesFrom source source none (by decide))
    (utf8Length source) (by rw [joinLexemes_lexemes, Nat.zero_add])

/-- The errors of a source come in the order of their starts and report tokens of it in that order, each
with a fault that is found at such a token and over the extent of the fault; every faulty token is reported
by just one of them. -/
theorem lex_reports (source : List Char) :
    (lex source).errors.Pairwise (fun earlier later => earlier.span.start < later.span.start) ∧
      ∃ reported, reported.Sublist (occurrences (lex source).tokens) ∧
        List.Forall₂ (LexError.Reports (utf8Length source)) reported (lex source).errors ∧
        ∀ place ∈ occurrences (lex source).tokens, place.IsFaulty →
          place ∈ reported ∧
            ∃! error, error ∈ (lex source).errors ∧ error.Reports (utf8Length source) place := by
  have ordered := lexErrors_ordered source
  obtain ⟨reported, inside, matched, complete⟩ := lexErrors_report source
  refine ⟨ordered, reported, inside, matched, ?_⟩
  intro place member faulty
  have listed := complete place member faulty
  obtain ⟨index, bound, rfl⟩ := List.mem_iff_getElem.mp listed
  have within : index < (lex source).errors.length := matched.length_eq ▸ bound
  have reports := matched.get bound within
  have found := List.getElem_mem within
  exact ⟨listed, _, ⟨found, reports⟩, fun other also => reports.unique also.2 ordered found also.1⟩

end JaiSyntax

import JaiSyntax.Proofs.Lexer.Concatenation
import JaiSyntax.Proofs.Locality.Tokens
import Mathlib.Logic.Function.Iterate
/-!
The lexer as it works through a source: round after round it appends tokens and errors and gets further. It
emits the pieces of a string while it reads them, and takes them back if the source ends inside the string.
Its tokens and errors are those of the lexemes of the source.
-/

set_option autoImplicit false

namespace JaiSyntax

theorem joinLexemes_append (first second : List Lexeme) :
    joinLexemes (first ++ second) = joinLexemes first ++ joinLexemes second := List.flatMap_append

theorem joinLexemes_piece (piece : StringPiece) (covered : List Char) :
    joinLexemes [pieceLexeme piece covered] = covered := by
  rw [joinLexemes, List.flatMap_singleton, pieceLexeme_text]

/-- What has been emitted, the place reached, and the source from there on. -/
structure LexState where
  tokens : List Token
  errors : List LexError
  offset : Nat
  rest : List Char
  deriving DecidableEq

namespace LexState

def start (source : List Char) : LexState := ⟨[], [], 0, source⟩

def emit (state : LexState) (pieces : List Lexeme) : LexState where
  tokens := state.tokens ++ tokensFrom state.offset pieces
  errors := state.errors ++ lexErrorsFrom state.offset pieces
  offset := state.offset + utf8Length (joinLexemes pieces)
  rest := state.rest.drop (joinLexemes pieces).length

/-- Cut tokens and errors back to as many as there were at the opening quote, and append a single error from
the quote up to the place reached. -/
def abandon (quote state : LexState) : LexState :=
  let text := quote.rest.take (quote.rest.length - state.rest.length)
  let span : Span := ⟨quote.offset, state.offset⟩
  { state with
    tokens := state.tokens.take quote.tokens.length ++ [⟨.error, span, .none, String.ofList text⟩]
    errors := state.errors.take quote.errors.length ++ [⟨span, .unterminatedString⟩] }

/-- Emit the pieces of a string up to its closing quote; `quote` is the state at its opening quote. -/
def readString (quote state : LexState) : LexState :=
  let piece := (stringPiece state.rest).1
  let covered := state.rest.take (stringPiece state.rest).2
  if piece = .endOfInput then quote.abandon state
  else if piece = .close then state.emit [.plain .quote covered]
  else readString quote (state.emit [pieceLexeme piece covered])
termination_by state.rest.length
decreasing_by
  next more _ =>
    have some := stringPiece_nonempty (Prod.eta (stringPiece state.rest)).symm more
    have positive := List.length_pos_iff.mpr some
    have within := (List.take_sublist (stringPiece state.rest).2 state.rest).length_le
    simp only [emit, joinLexemes_piece, List.length_drop]
    omega

def step (state : LexState) : LexState :=
  match state.rest with
  | [] => state
  | character :: rest =>
      if character = '"' then state.readString (state.emit [.plain .quote [character]])
      else state.emit (frontLexemes character rest)

def after (source : List Char) (count : Nat) : LexState := step^[count] (start source)

def finish (state : LexState) : Lexed where
  tokens := state.tokens ++ [.endOfFile state.offset]
  errors := state.errors

/-! ### Emitted lexemes -/

section Emit

variable {state quote : LexState} {pieces : List Lexeme} {text : List Char}

theorem emit_nil (state : LexState) : state.emit [] = state := by
  simp [emit, joinLexemes, tokensFrom, lexErrorsFrom]

theorem emit_append (state : LexState) (first second : List Lexeme) :
    (state.emit first).emit second = state.emit (first ++ second) := by
  simp only [emit, tokensFrom_append, lexErrorsFrom_append, joinLexemes_append, utf8Length_append,
    List.length_append, List.drop_drop, List.append_assoc, Nat.add_assoc]

theorem emit_rest (covers : state.rest = joinLexemes pieces ++ text) :
    (state.emit pieces).rest = text := by
  rw [emit, covers, List.drop_left]

/-- However much has been emitted since the opening quote, only the error is left of it. -/
theorem abandon_emit (covers : quote.rest = joinLexemes pieces) :
    quote.abandon (quote.emit pieces) =
      quote.emit [.faulty .error quote.rest .none .unterminatedString] := by
  have reached : (quote.emit pieces).rest = [] := by
    apply emit_rest
    rw [covers, List.append_nil]
  have joined : joinLexemes [.faulty .error quote.rest .none .unterminatedString] = quote.rest :=
    List.flatMap_singleton _ _
  have tokens : (quote.emit pieces).tokens.take quote.tokens.length = quote.tokens := List.take_left
  have errors : (quote.emit pieces).errors.take quote.errors.length = quote.errors := List.take_left
  rw [abandon, tokens, errors, reached, List.length_nil, Nat.sub_zero, List.take_length]
  rw [emit, emit, joined, ← covers, List.drop_length]
  rfl

end Emit

/-! ### Strings -/

section Strings

variable {quote : LexState} {pieces : List Lexeme} {text : List Char}

theorem readString_end (covers : quote.rest = joinLexemes pieces) :
    quote.readString (quote.emit pieces) =
      quote.emit [.faulty .error quote.rest .none .unterminatedString] := by
  have reached : (quote.emit pieces).rest = [] := by
    apply emit_rest
    rw [covers, List.append_nil]
  rw [readString, reached]
  exact abandon_emit covers

/-- What is emitted for a string: its lexemes, or one error if it never closes. -/
theorem readString_emit {bound : List Char} (covers : quote.rest = joinLexemes pieces ++ text)
    (enough : text.length ≤ bound.length) :
    quote.readString (quote.emit pieces) =
      match stringLexemesFrom bound text with
      | some more => quote.emit (pieces ++ more)
      | none => quote.emit [.faulty .error quote.rest .none .unterminatedString] := by
  -- Each piece that is read moves from `text` to `pieces`, and together they stay the rest at the quote.
  induction bound generalizing pieces text with
  | nil =>
      obtain rfl := List.length_eq_zero_iff.mp (Nat.le_zero.mp enough)
      rw [List.append_nil] at covers
      exact readString_end covers
  | cons bounding bound ih =>
      cases text with
      | nil =>
          rw [List.append_nil] at covers
          exact readString_end covers
      | cons character rest =>
          have reached : (quote.emit pieces).rest = character :: rest := emit_rest covers
          have more := stringPiece_goesOn character rest
          have some := stringPiece_pos character rest
          cases scanned : stringPiece (character :: rest) with
          | mk piece length =>
          rw [scanned] at more some
          rw [readString, reached, scanned]
          by_cases closes : piece = .close
          · subst closes
            rw [stringLexemesFrom.eq_def, scanned, if_neg more, if_pos rfl, emit_append]
          · have further : quote.rest = joinLexemes
                (pieces ++ [pieceLexeme piece ((character :: rest).take length)]) ++
                (character :: rest).drop length := by
              rw [covers, joinLexemes_append, joinLexemes_piece, List.append_assoc,
                List.take_append_drop]
            have short : ((character :: rest).drop length).length ≤ bound.length := by
              rw [List.length_cons, List.length_cons] at enough
              rw [List.length_drop, List.length_cons]
              omega
            rw [if_neg more, if_neg closes, emit_append, ih further short,
              stringLexemesFrom_cons scanned more closes]
            cases stringLexemesFrom bound ((character :: rest).drop length) with
            | none => rfl
            | some later => simp only [Option.map_some, List.append_assoc, List.singleton_append]

end Strings

theorem step_end {state : LexState} (ended : state.rest = []) : state.step = state := by
  rw [step, ended]

/-- A round emits the lexemes at the front. -/
theorem step_emit {state : LexState} {character : Char} {rest : List Char}
    (ahead : state.rest = character :: rest) :
    state.step = state.emit (frontLexemes character rest) := by
  rw [step, ahead]
  by_cases same : character = '"'
  · subst same
    have covers : state.rest = joinLexemes [.plain .quote ['"']] ++ rest := ahead
    have front : frontLexemes '"' rest = stringLexemes ('"' :: rest) := rfl
    have enough : rest.length ≤ ('"' :: rest).length := Nat.le_succ rest.length
    have read := readString_emit covers enough
    simp only [if_true]
    rw [read, front, stringLexemes, List.drop_succ_cons, List.drop_zero, ahead]
    cases stringLexemesFrom ('"' :: rest) rest with
    | none => rfl
    | some more => rfl
  · exact if_neg same

/-! ### Rounds -/

theorem after_succ (source : List Char) (count : Nat) :
    after source (count + 1) = (after source count).step :=
  Function.iterate_succ_apply' step count (start source)

/-- A round leaves the same to be said about the source. -/
theorem step_emit_lexemes (state : LexState) :
    state.step.emit (lexemes state.step.rest) = state.emit (lexemes state.rest) := by
  cases ahead : state.rest with
  | nil => rw [step_end ahead, ahead]
  | cons character rest =>
      obtain ⟨tail, covers⟩ := (frontLexemes_cut character rest).1.covers
      have reached : state.step.rest = tail := by
        rw [step_emit ahead]
        apply emit_rest
        rw [ahead, covers]
      rw [reached, step_emit ahead, emit_append, ← lexemes_front rfl covers.symm]

/-- What has been emitted, with the lexemes of what is left, is what the lexemes of the source make. -/
theorem after_emit_lexemes (source : List Char) (count : Nat) :
    (after source count).emit (lexemes (after source count).rest) =
      (start source).emit (lexemes source) := by
  induction count with
  | zero => rfl
  | succ count ih => rw [after_succ, step_emit_lexemes, ih]

theorem after_rest_length (source : List Char) (count : Nat) :
    (after source count).rest.length ≤ source.length - count := by
  induction count with
  | zero => exact Nat.le_refl _
  | succ count ih =>
      rw [after_succ]
      cases ahead : (after source count).rest with
      | nil =>
          rw [step_end ahead, ahead]
          exact Nat.zero_le _
      | cons character rest =>
          have some := List.length_pos_iff.mpr (frontLexemes_cut character rest).2
          rw [ahead, List.length_cons] at ih
          rw [step_emit ahead]
          simp only [emit, ahead, List.length_drop, List.length_cons]
          omega

theorem after_suffix (source : List Char) (count : Nat) : (after source count).rest <:+ source := by
  induction count with
  | zero => exact List.suffix_rfl
  | succ count ih =>
      rw [after_succ]
      cases ahead : (after source count).rest with
      | nil =>
          rw [step_end ahead]
          exact ih
      | cons character rest =>
          rw [step_emit ahead]
          exact (List.drop_suffix _ _).trans ih

/-- The place reached is where what is left starts. -/
theorem after_place (source : List Char) (count : Nat) :
    (after source count).offset + utf8Length (after source count).rest = utf8Length source := by
  have offsets := congrArg LexState.offset (after_emit_lexemes source count)
  simp only [emit, joinLexemes_lexemes, start, Nat.zero_add] at offsets
  exact offsets

/-- Once the source is used up, the lexer has the answer of `lex`. -/
theorem lex_eq_finish_of_end {source : List Char} {count : Nat}
    (ended : (after source count).rest = []) : lex source = (after source count).finish := by
  have all := after_emit_lexemes source count
  have empty : lexemes [] = [] := rfl
  rw [ended, empty, emit_nil] at all
  rw [all, finish, emit, joinLexemes_lexemes]
  simp only [start, Nat.zero_add, List.nil_append]
  rfl

/-- The source is used up after as many rounds as it has characters. -/
theorem lex_eq_finish (source : List Char) : lex source = (after source source.length).finish := by
  apply lex_eq_finish_of_end
  have length := after_rest_length source source.length
  rw [Nat.sub_self] at length
  exact List.length_eq_zero_iff.mp (Nat.le_zero.mp length)

end LexState

end JaiSyntax

import JaiSyntax.Lexer.Extent
import JaiSyntax.Lexer.Escape
import JaiSyntax.Lexer.Fault
import JaiSyntax.Number.Literal
import JaiSyntax.Text.Comment
import JaiSyntax.Text.Heredoc
import JaiSyntax.Text.Slice
import JaiSyntax.Token.Basic
/-!
The lexer. A source is cut into lexemes whose texts join to it: first the regular tokens, by their
extents, and then the comments, strings and heredocs that an opening token starts. Malformed text
becomes a lexeme of kind `error` with its fault, never a gap. Offsets are added afterwards.
-/

set_option autoImplicit false

namespace JaiSyntax

/-- A fault and the text it concerns, from the start of its lexeme on. -/
structure LexProblem where
  fault : LexFault
  covered : List Char
  deriving DecidableEq

/-- A piece of a source with the kind and the value of its token. -/
structure Lexeme where
  kind : TokenKind
  text : List Char
  value : TokenValue
  problem : Option LexProblem
  deriving DecidableEq

namespace Lexeme

def plain (kind : TokenKind) (text : List Char) : Lexeme := ⟨kind, text, .none, none⟩

def faulty (kind : TokenKind) (text : List Char) (value : TokenValue) (fault : LexFault) : Lexeme :=
  ⟨kind, text, value, some ⟨fault, text⟩⟩

end Lexeme

/-! ### Numbers -/

/-- An integer literal. One that does not fit 64 bits has the largest value that does. -/
def integerLexeme (base : NumberBase) (text digits : List Char) : Lexeme :=
  match word? base.radix digits with
  | some value => ⟨.int, text, .int value base, none⟩
  | none => .faulty .int text (.int maxWord base) .intOverflow

/-- A float literal. One without a value is not a number. -/
def floatLexeme (base : NumberBase) (text : List Char) (bits? : Option Nat) (fault : LexFault) :
    Lexeme :=
  match bits? with
  | some bits => ⟨.float, text, .float bits base, none⟩
  | none => .faulty .float text (.float Binary64.notANumber base) fault

def numberLexeme (extent : NumberExtent) (text : List Char) : Lexeme :=
  let digits := text.drop 2
  match extent.form, extent.tail with
  | .decimal, 0 => integerLexeme .decimal text text
  | .decimal, _ => floatLexeme .decimal text (decimalFloat? text) .invalidFloat
  | .binary, _ => integerLexeme .binary text digits
  | .octal, _ => integerLexeme .octal text digits
  | .hexadecimal, 0 => integerLexeme .hexadecimal text digits
  | .floatBits, 0 =>
      floatLexeme .hexadecimal text (floatBits? digits)
        (.floatBitsTooLong (withoutSeparators digits).length)
  | _, _ => floatLexeme .hexadecimal text (hexFloat? digits) .invalidFloat

/-! ### Comments, strings and heredocs -/

def blockCommentLexeme (text : List Char) : Lexeme :=
  match blockComment text with
  | (.terminated, length) => .plain .blockComment (text.take length)
  | (.unterminated depth, length) =>
      .faulty .error (text.take length) .none (.unterminatedBlockComment depth)

def lineCommentLexeme (text : List Char) : Lexeme :=
  .plain .lineComment (text.take (lineComment text))

/-- An escape sequence; one that stands for no character has the replacement character as value. -/
def escapeLexeme (form : EscapeForm) (text : List Char) : Lexeme :=
  match escapedCharacter? form text with
  | some character => ⟨.escapeSequence, text, .char character, none⟩
  | none =>
      .faulty .escapeSequence text (.char replacementCharacter)
        (.invalidEscape (String.ofList text))

/-- The rest of a string after its opening quote, through the closing one; none if it never closes.
Every piece takes at least one character, so the text bounds the number of pieces. -/
def stringLexemesFrom (bound : List Char) (text : List Char) : Option (List Lexeme) :=
  match stringPiece text with
  | (.endOfInput, _) => none
  | (.close, length) => some [.plain .quote (text.take length)]
  | (piece, length) =>
      let covered := text.take length
      let lexeme :=
        match piece with
        | .escape form => escapeLexeme form covered
        | _ => .plain .stringContent covered
      match bound with
      | [] => none
      | _ :: bound => (stringLexemesFrom bound (text.drop length)).map (lexeme :: ·)

/-- A string from its opening quote. One that never closes is a single error up to the end. -/
def stringLexemes (text : List Char) : List Lexeme :=
  match stringLexemesFrom text (text.drop 1) with
  | some lexemes => .plain .quote (text.take 1) :: lexemes
  | none => [.faulty .error text .none .unterminatedString]

def unlessEmpty (kind : TokenKind) (text : List Char) : List Lexeme :=
  if text.isEmpty then [] else [.plain kind text]

def heredocLexemes (length : Nat) (text : List Char) : List Lexeme :=
  let directive := text.take length
  let after := text.drop length
  let (blanks, size) := heredocDelimiter after
  if size == 0 then [.faulty .directive directive .none .missingHeredocDelimiter]
  else
    let delimiter := (after.drop blanks).take size
    let rest := (after.drop blanks).drop size
    let (terminated, bodyLength) := heredocBody delimiter rest
    let body := rest.take bodyLength
    let front := .plain .directive directive :: unlessEmpty .whitespace (after.take blanks)
    if terminated then
      front ++ .plain .heredocStart delimiter :: unlessEmpty .heredocBody body
        ++ [.plain .heredocEnd ((rest.drop bodyLength).take size)]
    else
      front ++ ⟨.heredocStart, delimiter, .none,
          some ⟨.unterminatedHeredoc (String.ofList delimiter), delimiter ++ body⟩⟩
        :: unlessEmpty .error body

/-! ### The lexemes of a source -/

def heredocDirective : List Char := ['#', 's', 't', 'r', 'i', 'n', 'g']

/-- The lexemes that start with a fixed spelling, or an error for a character that starts none. -/
def fixedLexemes (character : Char) (text : List Char) : List Lexeme :=
  match fixedSpelling? text with
  | some (spelling, .token kind) => [.plain kind spelling]
  | some (_, .lineComment) => [lineCommentLexeme text]
  | some (_, .blockComment) => [blockCommentLexeme text]
  | some (_, .string) => stringLexemes text
  | none => [.faulty .error [character] .none (.invalidCharacter character)]

/-- The lexemes that start with a number sign: a directive with its heredoc, or a lone sign. -/
def directiveLexemes (text : List Char) : List Lexeme :=
  let word := wordLength (text.drop 1)
  let directive := text.take (word + 1)
  if word == 0 then [.plain .hash directive]
  else if directive == heredocDirective then heredocLexemes (word + 1) text
  else [.plain .directive directive]

def frontLexemes (character : Char) (rest : List Char) : List Lexeme :=
  let text := character :: rest
  let blanks := whiteSpaceLength text
  let word := wordLength text
  if blanks != 0 then [.plain .whitespace (text.take blanks)]
  else if word != 0 then [.plain .ident (text.take word)]
  else if character.isDigit then
    let extent := numberExtent text
    [numberLexeme extent (text.take extent.length)]
  else if character == '#' then directiveLexemes text
  else if character == '@' && wordLength rest != 0 then
    [.plain .note (text.take (wordLength rest + 1))]
  else fixedLexemes character text

def lexemesLength : List Lexeme → Nat
  | [] => 0
  | lexeme :: rest => lexeme.text.length + lexemesLength rest

/-- Cut a text into lexemes. Every step takes at least one character, so the text bounds the number
of steps. -/
def lexemesFrom : List Char → List Char → List Lexeme
  | _, [] => []
  | [], _ => []
  | _ :: bound, character :: rest =>
      let front := frontLexemes character rest
      front ++ lexemesFrom bound ((character :: rest).drop (lexemesLength front))

def lexemes (source : List Char) : List Lexeme := lexemesFrom source source

/-! ### Tokens -/

def tokensFrom (offset : Nat) : List Lexeme → List Token
  | [] => []
  | lexeme :: rest =>
      let stop := offset + utf8Length lexeme.text
      ⟨lexeme.kind, ⟨offset, stop⟩, lexeme.value, String.ofList lexeme.text⟩
        :: tokensFrom stop rest

def lexErrorsFrom (offset : Nat) : List Lexeme → List LexError
  | [] => []
  | lexeme :: rest =>
      let later := lexErrorsFrom (offset + utf8Length lexeme.text) rest
      match lexeme.problem with
      | none => later
      | some problem =>
          ⟨⟨offset, offset + utf8Length problem.covered⟩, problem.fault⟩ :: later

structure Lexed where
  tokens : List Token
  errors : List LexError

/-- Lex a source. Bad input never fails: it gives error tokens and entries in the error list. The
offsets are 32-bit ones up to a size of `Span.maxOffset` bytes. -/
def lex (source : List Char) : Lexed :=
  let pieces := lexemes source
  { tokens := tokensFrom 0 pieces ++ [.endOfFile (utf8Length source)]
    errors := lexErrorsFrom 0 pieces }

/-- The text of a heredoc from its body: without the rest of the opening line, the line break before
the closing delimiter and the indentation of that delimiter. -/
def heredocText (body : List Char) : List Char :=
  let lines := (body.dropWhile (fun character => character != '\n')).drop 1
  let isBlank := fun character => character == ' ' || character == '\t'
  let backwards := lines.reverse.dropWhile isBlank
  let withoutFeed := if backwards.head? == some '\n' then backwards.drop 1 else backwards
  let withoutReturn :=
    if withoutFeed.head? == some '\r' then withoutFeed.drop 1 else withoutFeed
  withoutReturn.reverse

end JaiSyntax

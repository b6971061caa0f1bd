import JaiSyntax.Grammar.TokenSet
import JaiSyntax.Parser.Error
import JaiSyntax.Token.Basic
/-!
What a grammar complains about. A complaint names its cause only; the place and the token found there
are added when it is reported.
-/

set_option autoImplicit false

namespace JaiSyntax

inductive Expectation where
  | token (kind : TokenKind)
  | caseLabel
  | stringLiteral
  | expression
  | identifier
  | parameterName
  | enumMember
  | assemblyLine
  | type
  deriving DecidableEq

namespace Expectation

def code : Expectation → ErrorCode
  | .token _ | .caseLabel | .stringLiteral => .unexpectedToken
  | .expression => .expectedExpression
  | .identifier | .parameterName | .enumMember | .assemblyLine => .expectedIdentifier
  | .type => .expectedType

def words : Expectation → String
  | .token kind => (TokenSet.empty.insert kind).formatExpected
  | .caseLabel => "`case`"
  | .stringLiteral => "string literal"
  | .expression => "expression"
  | .identifier => "identifier"
  | .parameterName => "parameter name"
  | .enumMember => "enum member name"
  | .assemblyLine => "instruction or register declaration"
  | .type => "type"

end Expectation

inductive Complaint where
  /-- Something else was expected at the current token. -/
  | expected (expectation : Expectation)
  /-- The brace that was opened last is not closed at the current token. -/
  | unclosedBrace
  /-- A statement of a kind ended without its semicolon. -/
  | missingTerminator (statement : NodeKind)
  | missingAfterEnumMember
  | missingAfterAssemblyLine
  /-- No declared conflict decides between candidates; one of them is used. -/
  | ambiguous (candidates : List NodeKind) (chosen : NodeKind)
  deriving DecidableEq

/-- A token as error messages name it: by its text, or by a description when the text says little. -/
def foundWords (token : Token) : String :=
  match token.kind with
  | .eof | .error | .stringContent | .heredocBody => token.kind.description
  | _ => "`" ++ token.text ++ "`"

namespace Complaint

/-- The error that a complaint makes at the current token, after the previous one, and inside the
brace at `opener`. -/
def toError (complaint : Complaint) (current previous : Token) (opener : Span) : SyntaxError :=
  let found := ", found " ++ foundWords current
  let semicolon (place : String) :=
    SyntaxError.plain .missingTerminator ("expected `;`" ++ place ++ found)
      (.point previous.span.stop)
  match complaint with
  | .expected expectation =>
      .plain expectation.code ("expected " ++ expectation.words ++ found) current.span
  | .unclosedBrace =>
      { SyntaxError.plain .unclosedDelimiter ("unclosed `\x7b`" ++ found) opener with
        related := some (current.span, "block ends here") }
  | .missingTerminator statement => { semicolon "" with context := some statement }
  | .missingAfterEnumMember => semicolon " after enum member"
  | .missingAfterAssemblyLine => semicolon " after assembly line"
  | .ambiguous candidates chosen =>
      .plain .ambiguousConstruct
        ("ambiguous syntax: " ++ ", ".intercalate (candidates.map NodeKind.name)
          ++ " all match here; using " ++ chosen.name)
        current.span

end Complaint

end JaiSyntax

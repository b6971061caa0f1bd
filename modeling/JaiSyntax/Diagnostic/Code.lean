/-!
Error codes. A code has a written form, whose first digit is its category, and a short description.
-/

set_option autoImplicit false

namespace JaiSyntax

/-- What a source can get wrong: letters and literals, the grammar, or a gap in the policy that
decides between two readings. -/
inductive ErrorCategory where
  | lexical | structural | ambiguity
  deriving DecidableEq

namespace ErrorCategory

def name : ErrorCategory → String
  | .lexical => "lexical"
  | .structural => "structural"
  | .ambiguity => "ambiguity"

end ErrorCategory

inductive ErrorCode where
  -- Lexical errors.
  | unterminatedString | invalidCharacter | invalidNumber | unterminatedComment | invalidEscape
  | unterminatedHeredoc | missingHeredocDelimiter
  -- Structural errors.
  | unexpectedToken | expectedExpression | unclosedDelimiter | expectedIdentifier | expectedType
  | expectedProcedure | expectedBlock | missingTerminator | invalidDeclaration | tooManyErrors
  -- Ambiguity policy.
  | ambiguousConstruct
  deriving DecidableEq, Inhabited

namespace ErrorCode

def all : List ErrorCode :=
  [.unterminatedString, .invalidCharacter, .invalidNumber, .unterminatedComment, .invalidEscape,
   .unterminatedHeredoc, .missingHeredocDelimiter, .unexpectedToken, .expectedExpression,
   .unclosedDelimiter, .expectedIdentifier, .expectedType, .expectedProcedure, .expectedBlock,
   .missingTerminator, .invalidDeclaration, .tooManyErrors, .ambiguousConstruct]

/-- The written form: `E`, the category digit and a number. -/
def render : ErrorCode → String
  | .unterminatedString => "E0001"
  | .invalidCharacter => "E0002"
  | .invalidNumber => "E0003"
  | .unterminatedComment => "E0004"
  | .invalidEscape => "E0005"
  | .unterminatedHeredoc => "E0006"
  | .missingHeredocDelimiter => "E0007"
  | .unexpectedToken => "E1001"
  | .expectedExpression => "E1002"
  | .unclosedDelimiter => "E1003"
  | .expectedIdentifier => "E1004"
  | .expectedType => "E1005"
  | .expectedProcedure => "E1006"
  | .expectedBlock => "E1007"
  | .missingTerminator => "E1008"
  | .invalidDeclaration => "E1009"
  | .tooManyErrors => "E1010"
  | .ambiguousConstruct => "E2001"

def description : ErrorCode → String
  | .unterminatedString => "unterminated string literal"
  | .invalidCharacter => "invalid character in source"
  | .invalidNumber => "invalid number literal"
  | .unterminatedComment => "unterminated block comment"
  | .invalidEscape => "invalid escape sequence"
  | .unterminatedHeredoc => "unterminated heredoc string"
  | .missingHeredocDelimiter => "missing heredoc delimiter"
  | .unexpectedToken => "unexpected token"
  | .expectedExpression => "expected expression"
  | .unclosedDelimiter => "unclosed delimiter"
  | .expectedIdentifier => "expected identifier"
  | .expectedType => "expected type"
  | .expectedProcedure => "expected procedure"
  | .expectedBlock => "expected block"
  | .missingTerminator => "missing statement terminator"
  | .invalidDeclaration => "invalid declaration"
  | .tooManyErrors => "too many errors"
  | .ambiguousConstruct => "ambiguous construct"

def category : ErrorCode → ErrorCategory
  | .unterminatedString | .invalidCharacter | .invalidNumber | .unterminatedComment
  | .invalidEscape | .unterminatedHeredoc | .missingHeredocDelimiter => .lexical
  | .ambiguousConstruct => .ambiguity
  | _ => .structural

/-- The code with a given written form, in either letter case. -/
def ofText? (text : String) : Option ErrorCode :=
  all.find? (fun code => code.render == text.map Char.toUpper)

def explanation (code : ErrorCode) : String :=
  code.render ++ " (" ++ code.category.name ++ " error): " ++ code.description

end ErrorCode

end JaiSyntax

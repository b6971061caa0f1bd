import JaiSyntax.Diagnostic.Basic
/-!
Lexical errors: what a lexer found wrong, and where. Each fault has a code, a message, a label for
the source and sometimes a hint.
-/

set_option autoImplicit false

namespace JaiSyntax

inductive LexFault where
  | unterminatedString
  | unterminatedBlockComment (depth : Nat)
  | unterminatedHeredoc (delimiter : String)
  | missingHeredocDelimiter
  | invalidEscape (text : String)
  | intOverflow
  | floatBitsTooLong (digits : Nat)
  | invalidFloat
  | invalidCharacter (character : Char)
  deriving DecidableEq

namespace LexFault

def code : LexFault → ErrorCode
  | .unterminatedString => .unterminatedString
  | .unterminatedBlockComment _ => .unterminatedComment
  | .unterminatedHeredoc _ => .unterminatedHeredoc
  | .missingHeredocDelimiter => .missingHeredocDelimiter
  | .invalidEscape _ => .invalidEscape
  | .intOverflow | .floatBitsTooLong _ | .invalidFloat => .invalidNumber
  | .invalidCharacter _ => .invalidCharacter

def message : LexFault → String
  | .unterminatedString => "unterminated string literal"
  | .unterminatedBlockComment depth =>
      "unterminated block comment (" ++ toString depth ++ " still open)"
  | .unterminatedHeredoc delimiter =>
      "unterminated heredoc string, no line starts with `" ++ delimiter ++ "`"
  | .missingHeredocDelimiter => "`#string` needs a delimiter on the same line"
  | .invalidEscape text => "invalid escape sequence `" ++ text ++ "`"
  | .intOverflow => "integer literal does not fit in 64 bits"
  | .floatBitsTooLong digits =>
      "float bit pattern has " ++ toString digits ++ " hex digits, expected at most 16"
  | .invalidFloat => "invalid float literal"
  | .invalidCharacter character => "unexpected character `" ++ character.toString ++ "`"

def label : LexFault → String
  | .unterminatedString => "string starts here and never closes"
  | .unterminatedBlockComment _ => "comment starts here"
  | .unterminatedHeredoc _ => "heredoc starts here"
  | .missingHeredocDelimiter => "delimiter expected after this"
  | .invalidEscape _ => "not a valid escape"
  | .intOverflow | .floatBitsTooLong _ | .invalidFloat => "in this literal"
  | .invalidCharacter _ => "not valid here"

def hint? : LexFault → Option String
  | .unterminatedHeredoc delimiter =>
      some ("end the string with `" ++ delimiter ++ "` at the start of a line")
  | .missingHeredocDelimiter =>
      some "write the delimiter right after `#string`, e.g. `#string DONE`"
  | .unterminatedString => some "add a closing `\"`"
  | _ => none

end LexFault

structure LexError where
  span : Span
  fault : LexFault
  deriving DecidableEq

namespace LexError

def code (error : LexError) : ErrorCode := error.fault.code

def message (error : LexError) : String := error.fault.message

def toDiagnostic (error : LexError) : Diagnostic :=
  { Diagnostic.ofCode error.code .error with
    message := error.message
    labels := [⟨error.span, error.fault.label, true⟩]
    hints := error.fault.hint?.toList }

end LexError

end JaiSyntax

/-!
The kinds of tokens. Keywords are words like any other: a lexer reads them as `ident`, and the grammar
re-tags one as `keyword` where it stands for a keyword. Each kind has a name, a description for
messages and, if it is shown in tree dumps, a leaf name.
-/

set_option autoImplicit false

namespace JaiSyntax

inductive TokenKind where
  -- Layout and remarks.
  | whitespace | lineComment | blockComment | note
  -- Names.
  | ident | keyword | directive | hash
  -- Literals.
  | int | float | quote | stringContent | escapeSequence | heredocStart | heredocBody
  | heredocEnd
  -- Delimiters.
  | lParen | rParen | lBrace | rBrace | lBracket | rBracket | comma | semicolon | colon
  | colonColon | dot | dotDot
  -- Operators.
  | arrow | fatArrow | eq | eqEq | notEq | tripleEq | lt | gt | ltEq | gtEq | shl | shr | rotL
  | rotR | plus | minus | star | slash | percent | amp | pipe | caret | tilde | ampTilde
  | andAnd | orOr | bang | dollar | tripleDash
  -- Compound assignment.
  | plusEq | minusEq | starEq | slashEq | percentEq | ampEq | pipeEq | caretEq | shlEq | shrEq
  | rotLEq | rotREq | orOrEq | andAndEq
  -- What no rule reads, and the end of the source.
  | error | eof
  deriving DecidableEq, Inhabited

namespace TokenKind

def all : List TokenKind :=
  [.whitespace, .lineComment, .blockComment, .note, .ident, .keyword, .directive, .hash, .int,
   .float, .quote, .stringContent, .escapeSequence, .heredocStart, .heredocBody, .heredocEnd,
   .lParen, .rParen, .lBrace, .rBrace, .lBracket, .rBracket, .comma, .semicolon, .colon,
   .colonColon, .dot, .dotDot, .arrow, .fatArrow, .eq, .eqEq, .notEq, .tripleEq, .lt, .gt, .ltEq,
   .gtEq, .shl, .shr, .rotL, .rotR, .plus, .minus, .star, .slash, .percent, .amp, .pipe, .caret,
   .tilde, .ampTilde, .andAnd, .orOr, .bang, .dollar, .tripleDash, .plusEq, .minusEq, .starEq,
   .slashEq, .percentEq, .ampEq, .pipeEq, .caretEq, .shlEq, .shrEq, .rotLEq, .rotREq, .orOrEq,
   .andAndEq, .error, .eof]

def index (kind : TokenKind) : Nat := kind.ctorIdx

def ofIndex? (index : Nat) : Option TokenKind := all[index]?

def name : TokenKind → String
  | .whitespace => "Whitespace"
  | .lineComment => "LineComment"
  | .blockComment => "BlockComment"
  | .note => "Note"
  | .ident => "Ident"
  | .keyword => "Keyword"
  | .directive => "Directive"
  | .hash => "Hash"
  | .int => "Int"
  | .float => "Float"
  | .quote => "Quote"
  | .stringContent => "StringContent"
  | .escapeSequence => "EscapeSequence"
  | .heredocStart => "HeredocStart"
  | .heredocBody => "HeredocBody"
  | .heredocEnd => "HeredocEnd"
  | .lParen => "LParen"
  | .rParen => "RParen"
  | .lBrace => "LBrace"
  | .rBrace => "RBrace"
  | .lBracket => "LBracket"
  | .rBracket => "RBracket"
  | .comma => "Comma"
  | .semicolon => "Semicolon"
  | .colon => "Colon"
  | .colonColon => "ColonColon"
  | .dot => "Dot"
  | .dotDot => "DotDot"
  | .arrow => "Arrow"
  | .fatArrow => "FatArrow"
  | .eq => "Eq"
  | .eqEq => "EqEq"
  | .notEq => "NotEq"
  | .tripleEq => "TripleEq"
  | .lt => "Lt"
  | .gt => "Gt"
  | .ltEq => "LtEq"
  | .gtEq => "GtEq"
  | .shl => "Shl"
  | .shr => "Shr"
  | .rotL => "RotL"
  | .rotR => "RotR"
  | .plus => "Plus"
  | .minus => "Minus"
  | .star => "Star"
  | .slash => "Slash"
  | .percent => "Percent"
  | .amp => "Amp"
  | .pipe => "Pipe"
  | .caret => "Caret"
  | .tilde => "Tilde"
  | .ampTilde => "AmpTilde"
  | .andAnd => "AndAnd"
  | .orOr => "OrOr"
  | .bang => "Bang"
  | .dollar => "Dollar"
  | .tripleDash => "TripleDash"
  | .plusEq => "PlusEq"
  | .minusEq => "MinusEq"
  | .starEq => "StarEq"
  | .slashEq => "SlashEq"
  | .percentEq => "PercentEq"
  | .ampEq => "AmpEq"
  | .pipeEq => "PipeEq"
  | .caretEq => "CaretEq"
  | .shlEq => "ShlEq"
  | .shrEq => "ShrEq"
  | .rotLEq => "RotLEq"
  | .rotREq => "RotREq"
  | .orOrEq => "OrOrEq"
  | .andAndEq => "AndAndEq"
  | .error => "Error"
  | .eof => "Eof"

def ofName? (name : String) : Option TokenKind := all.find? (fun kind => kind.name == name)

/-- What a kind is called in messages: the spelling of an operator, otherwise a description. -/
def description : TokenKind → String
  | .whitespace => "whitespace"
  | .lineComment => "line comment"
  | .blockComment => "block comment"
  | .note => "note"
  | .ident => "identifier"
  | .keyword => "keyword"
  | .directive => "directive"
  | .hash => "#"
  | .int => "integer"
  | .float => "float"
  | .quote => "\""
  | .stringContent => "string content"
  | .escapeSequence => "escape sequence"
  | .heredocStart => "heredoc delimiter"
  | .heredocBody => "heredoc body"
  | .heredocEnd => "heredoc end marker"
  | .lParen => "("
  | .rParen => ")"
  | .lBrace => "\x7b"
  | .rBrace => "\x7d"
  | .lBracket => "["
  | .rBracket => "]"
  | .comma => ","
  | .semicolon => ";"
  | .colon => ":"
  | .colonColon => "::"
  | .dot => "."
  | .dotDot => ".."
  | .arrow => "->"
  | .fatArrow => "=>"
  | .eq => "="
  | .eqEq => "=="
  | .notEq => "!="
  | .tripleEq => "==="
  | .lt => "<"
  | .gt => ">"
  | .ltEq => "<="
  | .gtEq => ">="
  | .shl => "<<"
  | .shr => ">>"
  | .rotL => "<<<"
  | .rotR => ">>>"
  | .plus => "+"
  | .minus => "-"
  | .star => "*"
  | .slash => "/"
  | .percent => "%"
  | .amp => "&"
  | .pipe => "|"
  | .caret => "^"
  | .tilde => "~"
  | .ampTilde => "&~"
  | .andAnd => "&&"
  | .orOr => "||"
  | .bang => "!"
  | .dollar => "$"
  | .tripleDash => "---"
  | .plusEq => "+="
  | .minusEq => "-="
  | .starEq => "*="
  | .slashEq => "/="
  | .percentEq => "%="
  | .ampEq => "&="
  | .pipeEq => "|="
  | .caretEq => "^="
  | .shlEq => "<<="
  | .shrEq => ">>="
  | .rotLEq => "<<<="
  | .rotREq => ">>>="
  | .orOrEq => "||="
  | .andAndEq => "&&="
  | .error => "invalid token"
  | .eof => "end of file"

/-- The name of a kind that tree dumps show; punctuation, keywords and directives have none. -/
def leafName? : TokenKind → Option String
  | .lineComment => some "comment"
  | .blockComment => some "block_comment"
  | .note => some "note"
  | .ident => some "identifier"
  | .stringContent => some "string_content"
  | .escapeSequence => some "escape_sequence"
  | .heredocStart => some "heredoc_start"
  | .heredocBody => some "heredoc_body"
  | .heredocEnd => some "heredoc_end"
  | _ => none

/-- Whitespace and comments. -/
def isTrivia : TokenKind → Bool
  | .whitespace | .lineComment | .blockComment => true
  | _ => false

/-- The tokens that may stand anywhere: trivia and notes. -/
def isExtra (kind : TokenKind) : Bool := kind.isTrivia || kind == .note

def isCompoundAssign : TokenKind → Bool
  | .plusEq | .minusEq | .starEq | .slashEq | .percentEq | .ampEq | .pipeEq | .caretEq
  | .shlEq | .shrEq | .rotLEq | .rotREq | .orOrEq | .andAndEq => true
  | _ => false

end TokenKind

end JaiSyntax

import JaiSyntax.Span
import JaiSyntax.Token.Kind
/-!
Tokens. A token has a kind, the span it covers, the value of a literal, and its own text, so that
the texts of a complete token list join to the source without consulting it again.
-/

set_option autoImplicit false

namespace JaiSyntax

inductive NumberBase where
  | binary | octal | decimal | hexadecimal
  deriving DecidableEq, Inhabited

namespace NumberBase

def radix : NumberBase → Nat
  | .binary => 2
  | .octal => 8
  | .decimal => 10
  | .hexadecimal => 16

def name : NumberBase → String
  | .binary => "Binary"
  | .octal => "Octal"
  | .decimal => "Decimal"
  | .hexadecimal => "Hex"

end NumberBase

/-- What a literal token stands for. A float is the bit pattern of its binary64 value. -/
inductive TokenValue where
  | none
  | int (value : Nat) (base : NumberBase)
  | float (bits : Nat) (base : NumberBase)
  | char (scalar : Char)
  deriving DecidableEq, Inhabited

structure Token where
  kind : TokenKind
  span : Span
  value : TokenValue
  text : String
  deriving DecidableEq, Inhabited

namespace Token

def endOfFile (size : Nat) : Token := ⟨.eof, .point size, .none, ""⟩

def retag (token : Token) (kind : TokenKind) : Token := { token with kind := kind }

/-- Whether a token is spelled `word` and is a word. -/
def isWord (token : Token) (word : String) : Bool := token.kind == .ident && token.text == word

/-- Whether a token is the directive `name`, written with its number sign. -/
def isDirective (token : Token) (name : String) : Bool :=
  token.kind == .directive && token.text == name

end Token

def textOfTokens (tokens : List Token) : String :=
  tokens.foldl (fun text token => text ++ token.text) ""

end JaiSyntax

import JaiSyntax.Text.Quoted
import JaiSyntax.Token.Basic
/-!
Token listings: a line for each token with its span, its kind and its quoted text in columns. The end
of the file is left out.
-/

set_option autoImplicit false

namespace JaiSyntax

/-- Text filled up with blanks to a width. -/
def column (width : Nat) (text : String) : String :=
  String.ofList (text.toList ++ List.replicate (width - text.length) ' ')

namespace Token

def listingLine (token : Token) : String :=
  column 12 token.span.render ++ " " ++ column 16 token.kind.name ++ " "
    ++ String.ofList (quoted token.text.toList) ++ "\n"

end Token

def listing (tokens : List Token) : String :=
  String.join ((tokens.filter (fun token => token.kind != .eof)).map Token.listingLine)

end JaiSyntax

import JaiSyntax.Command.Listing
import JaiSyntax.Command.Options
import JaiSyntax.Text.Utf8
import JaiSyntax.Tree.Json
import JaiSyntax.Tree.Sexp
import JaiSyntax.Tree.Walk
/-!
What a command makes of one file: the text to print and the errors that were found.
-/

set_option autoImplicit false

namespace JaiSyntax

inductive InputError where
  | invalidUtf8 (offset : Nat)
  | tooLarge (length : Nat)
  deriving DecidableEq

namespace InputError

def message : InputError → String
  | .invalidUtf8 offset =>
      "source is not valid UTF-8 (first invalid byte at offset " ++ toString offset ++ ")"
  | .tooLarge length =>
      "source is " ++ toString length ++ " bytes; at most " ++ toString Span.maxOffset
        ++ " bytes can be addressed"

end InputError

/-- The source that bytes hold. The size is checked before the encoding, so that all offsets in the
source fit 32 bits. -/
def sourceOfBytes (bytes : List UInt8) : Except InputError (List Char) :=
  match Span.ofRange 0 bytes.length with
  | .error _ => .error (.tooLarge bytes.length)
  | .ok _ =>
      match decodeUtf8 bytes with
      | .ok source => .ok source
      | .error offset => .error (.invalidUtf8 offset)

structure Report where
  path : String
  output : String
  errors : List SyntaxError

def documentText (document : Json) : String := document.render 0 ++ "\n"

def tokensOutput (format : OutputFormat) (tokens : List Token) : String :=
  match format with
  | .json => documentText (.list (tokens.map Token.json))
  | .sexp | .tokens => listing tokens

def treeOutput (format : OutputFormat) (tree : Node) : String :=
  match format with
  | .sexp => tree.sexp ++ "\n"
  | .json => documentText tree.json
  | .tokens => listing tree.leaves

namespace Options

def process (options : Options) (path : String) (source : List Char) : Report :=
  match options.command with
  | .lex =>
      let lexed := lex source
      { path := path
        output := if options.quiet then "" else tokensOutput options.format lexed.tokens
        errors := lexed.errors.map SyntaxError.ofLexError }
  | .parse =>
      let parsed := JaiSyntax.parse options.parse source
      { path := path
        output := if options.quiet then "" else treeOutput options.format parsed.tree
        errors := parsed.errors }
  | .check =>
      { path := path
        output := ""
        errors := (JaiSyntax.parse options.parse source).errors }

end Options

namespace Report

def diagnosticsText (report : Report) : String :=
  renderDiagnostics (report.errors.map SyntaxError.toDiagnostic)

def statusLine (report : Report) : String :=
  report.path ++ ": "
    ++ (match report.errors.length with
      | 0 => "ok"
      | count => counted count "error") ++ "\n"

end Report

end JaiSyntax

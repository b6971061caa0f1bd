import JaiSyntax.Diagnostic.Basic
import JaiSyntax.Lexer.Fault
import JaiSyntax.Tree.Kind
/-!
Syntax errors. Lexical errors are turned into them, so that a parse has a single list of errors.
-/

set_option autoImplicit false

namespace JaiSyntax

/-- An error at a span: its code and message, the construct that was being parsed, and a second place
worth showing. -/
structure SyntaxError where
  span : Span
  code : ErrorCode
  message : String
  context : Option NodeKind
  related : Option (Span × String)
  deriving DecidableEq, Inhabited

/-- A construct in words, with its article: `an if statement`. -/
def contextPhrase (kind : NodeKind) : String :=
  let words := kind.name.map (fun character => if character == '_' then ' ' else character)
  let article :=
    match kind.name.toList.head? with
    | some 'a' | some 'e' | some 'i' | some 'o' | some 'u' => "an "
    | _ => "a "
  article ++ words

namespace SyntaxError

def plain (code : ErrorCode) (message : String) (span : Span) : SyntaxError :=
  ⟨span, code, message, none, none⟩

def category (error : SyntaxError) : ErrorCategory := error.code.category

def ofLexError (error : LexError) : SyntaxError := plain error.code error.message error.span

def label (error : SyntaxError) : String :=
  match error.context with
  | some kind => "while parsing " ++ contextPhrase kind
  | none => "here"

def toDiagnostic (error : SyntaxError) : Diagnostic :=
  let related :=
    match error.related with
    | some (span, message) => [⟨span, message, false⟩]
    | none => []
  { Diagnostic.ofCode error.code .error with
    message := error.message
    labels := ⟨error.span, error.label, true⟩ :: related
    notes :=
      if error.code == .ambiguousConstruct then
        ["two grammar rules matched the same text and no declared conflict decides between them"]
      else []
    hints := if error.code == .missingTerminator then ["add `;` here"] else [] }

end SyntaxError

end JaiSyntax

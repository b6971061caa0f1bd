import JaiSyntax.Lexer.Basic
import JaiSyntax.Production.Run
import JaiSyntax.Production.Statement
/-!
Parsing a source. The parts of the grammar that contain each other are tied together by how deep they
may nest, which the number of tokens bounds. Every source has a tree, whose leaves are all its tokens;
the errors are those of the lexer and those of the grammar, by where they start.
-/

set_option autoImplicit false

namespace JaiSyntax

structure ParseOptions where
  /-- The greatest number of errors that are reported; the rest of them is cut. -/
  maxErrors : Option Nat := none
  /-- Whether the start of a declaration ends the skipping after an error. -/
  resyncOnDeclaration : Bool := true
  deriving DecidableEq

structure Parse where
  tree : Node
  errors : List SyntaxError

namespace Entry

/-- What an entry asks for where nothing of its kind can stand. -/
def expectation : Entry → Expectation
  | .type => .type
  | .expression _ | .statement => .expression

end Entry

/-- Run the production of an entry, with entries nested `depth` deep at most. -/
def runEntry (resync : Bool) : Nat → Entry → Scope → ParserState → Outcome Unit
  | 0, entry, scope, state => .failed (state.errorOf scope (.expected entry.expectation)) state
  | depth + 1, entry, scope, state =>
      (Production.ofEntry entry).run resync (runEntry resync depth) scope state

namespace Scope

def outermost : Scope := ⟨.none, ⟨0, 0, 0⟩, .point 0⟩

end Scope

namespace ParserState

/-- The state before the first token of a source of `size` bytes. -/
def initial (size : Nat) (tokens : List Token) : ParserState :=
  ⟨.ofTokens size tokens, .new .sourceFile, []⟩

/-- How deep entries can nest. At one token a statement can enter an expression and that a type, and
only then a token is consumed. -/
def nesting (state : ParserState) : Nat := 3 * (state.cursor.ahead.length + 1)

def parsed (resync : Bool) (state : ParserState) : ParserState :=
  match Production.sourceFile.run resync (runEntry resync state.nesting) .outermost state with
  | .done _ last => last.flush
  | .failed error last => (last.report error).flush

end ParserState

/-- Keep the first `limit` errors; where that cuts any, an error at the end of the source says so. -/
def limitErrors (size limit : Nat) (errors : List SyntaxError) : List SyntaxError :=
  if errors.length ≤ limit then errors
  else
    errors.take limit ++
      [.plain .tooManyErrors
        ("too many errors; stopped reporting after " ++ toString limit) (.point size)]

/-- All errors of a source, by where they start; a lexical error comes before another one at the same
place, and the order of discovery decides between two of a kind. -/
def sortErrors (lexical : List LexError) (reported : List SyntaxError) : List SyntaxError :=
  (lexical.map SyntaxError.ofLexError ++ reported.reverse).mergeSort
    (fun left right => left.span.start ≤ right.span.start)

/-- Parse a source. Its offsets are 32-bit ones up to a size of `Span.maxOffset` bytes. -/
def parse (options : ParseOptions) (source : List Char) : Parse :=
  let size := utf8Length source
  let lexed := lex source
  let last := (ParserState.initial size lexed.tokens).parsed options.resyncOnDeclaration
  let errors := sortErrors lexed.errors last.reported
  { tree := last.builder.finishRoot
    errors := match options.maxErrors with
      | none => errors
      | some limit => limitErrors size limit errors }

end JaiSyntax

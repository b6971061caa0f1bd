import JaiSyntax.Grammar.Context
import JaiSyntax.Parser.Complaint
import JaiSyntax.Parser.TokenCursor
import JaiSyntax.Tree.Builder
import JaiSyntax.Tree.Reinterpret
/-!
The state of a parse and the single moves that change it. Extras reach the tree right before the next
token or node, so that they stand outside the nodes around them.
-/

set_option autoImplicit false

namespace JaiSyntax

/-- The tokens still to be read, the tree so far, and the errors so far with the latest first. -/
structure ParserState where
  cursor : TokenCursor
  builder : TreeBuilder
  reported : List SyntaxError

/-- What holds while a part of the grammar runs: the context, the checkpoint of the innermost mark,
and the span of the brace that was opened last. -/
structure Scope where
  context : Context
  mark : Checkpoint
  opener : Span

/-! ### Deprecation notices -/

/-- The children of a deprecation notice. A string literal becomes a node of its own, recorded as the
message; `string` holds the tokens of one that is open, the latest first. -/
def noticeChildren (string : Option (List Token)) : List Token → List Child
  | [] => ((string.getD []).reverse).map (Child.leaf none)
  | token :: rest =>
      match string with
      | none =>
          if token.kind == .quote then noticeChildren (some [token]) rest
          else .leaf none token :: noticeChildren none rest
      | some parts =>
          if token.kind == .quote then
            let leaves := ((token :: parts).reverse).map (Child.leaf none)
            .ofNode (some .message) (.build .string leaves 0) :: noticeChildren none rest
          else noticeChildren (some (token :: parts)) rest

def noticeNode (group : List Token) : Node :=
  .build .deprecatedDirective (noticeChildren none group) 0

namespace TreeBuilder

def pushExtra (builder : TreeBuilder) : Extra → TreeBuilder
  | .token token => builder.pushToken token
  | .deprecated group => builder.pushNode (noticeNode group)

end TreeBuilder

/-! ### Moves -/

/-- A single change of the state that the grammar can ask for. None of them opens or closes a node. -/
inductive Move where
  /-- Consume the current token. -/
  | bump
  /-- Consume the current token as a keyword. -/
  | bumpKeyword
  /-- Record the last significant child under a field. -/
  | tag (field : Field)
  /-- Read the last node as a type. -/
  | reinterpretLast
  /-- Take the last node, a parenthesized expression, apart into a parameter list. -/
  | spliceParameters
  /-- Report an error and go on. -/
  | report (complaint : Complaint)
  deriving DecidableEq

namespace ParserState

def current (state : ParserState) : Token := state.cursor.current

def isAtEnd (state : ParserState) : Bool := state.cursor.isAtEnd

def flush (state : ParserState) : ParserState :=
  let (extras, cursor) := state.cursor.takeExtras
  { state with cursor := cursor, builder := extras.foldl TreeBuilder.pushExtra state.builder }

/-- Consume the current token into the innermost node, changed by `change`. At the end of the file
only the extras are moved. -/
def bumpAs (change : Token → Token) (state : ParserState) : ParserState :=
  let flushed := state.flush
  if flushed.isAtEnd then flushed
  else
    let (token, cursor) := flushed.cursor.advance
    { flushed with cursor := cursor, builder := flushed.builder.pushToken (change token) }

def bump (state : ParserState) : ParserState := state.bumpAs id

def errorOf (state : ParserState) (scope : Scope) (complaint : Complaint) : SyntaxError :=
  complaint.toError state.current state.cursor.previous scope.opener

def report (state : ParserState) (error : SyntaxError) : ParserState :=
  { state with reported := error :: state.reported }

/-- Remember the place before the current token, with the extras before it moved into the tree. -/
def mark (state : ParserState) : Checkpoint × ParserState :=
  let flushed := state.flush
  (flushed.builder.checkpoint flushed.current.span.start, flushed)

def openNode (state : ParserState) (kind : NodeKind) : ParserState :=
  let flushed := state.flush
  { flushed with builder := flushed.builder.start kind flushed.current.span.start }

/-- Open a node around everything pushed since a checkpoint. -/
def openNodeAt (state : ParserState) (checkpoint : Checkpoint) (kind : NodeKind) : ParserState :=
  { state with builder := state.builder.startAt checkpoint kind }

def closeNode (state : ParserState) : ParserState := { state with builder := state.builder.finish }

def apply (scope : Scope) (state : ParserState) : Move → ParserState
  | .bump => state.bump
  | .bumpKeyword => state.bumpAs (fun token => token.retag .keyword)
  | .tag field => { state with builder := state.builder.tagLast field }
  | .reinterpretLast =>
      { state with builder := state.builder.mapLastNode Node.reinterpretAsType }
  | .spliceParameters =>
      { state with builder := state.builder.spliceLastNode Node.asParameterList }
  | .report complaint => state.report (state.errorOf scope complaint)

end ParserState

end JaiSyntax

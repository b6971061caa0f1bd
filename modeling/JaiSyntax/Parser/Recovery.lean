import JaiSyntax.Parser.State
/-!
Recovery from an error. Everything that a failed statement consumed becomes an error node, and the
parse goes on at a synchronization point: after the next semicolon, before a closing brace or the
end, or before the next declaration. Bracketed groups are skipped whole, so that a semicolon inside
one does not end the error.
-/

set_option autoImplicit false

namespace JaiSyntax

def openDelimiters : TokenSet := .ofList [.lParen, .lBracket, .lBrace]

def closeDelimiters : TokenSet := .ofList [.rParen, .rBracket, .rBrace]

/-- The tokens that a failed statement never swallows. -/
def statementBoundary : TokenSet := .ofList [.rBrace, .eof]

def declarationDirectives : List String := ["#import", "#load", "#run"]

namespace TokenCursor

/-- Whether a declaration starts at the current token: a name before a double colon, or one of the
directives that start one. -/
def isAtDeclaration (cursor : TokenCursor) : Bool :=
  match cursor.current.kind with
  | .ident => (doubleColonAt? (fun distance => (cursor.peek distance).kind) 1).isSome
  | .directive => declarationDirectives.contains cursor.current.text
  | _ => false

end TokenCursor

namespace ParserState

/-- Consume tokens through the closer of the bracketed group at the current token, when `depth`
brackets are open before it. The tokens ahead bound the number of steps. -/
def skipGroup (depth : Nat) : List Stop → ParserState → ParserState
  | [], state => state
  | _ :: bound, state =>
      let kind := state.current.kind
      let newDepth :=
        if openDelimiters.contains kind then depth + 1
        else if closeDelimiters.contains kind then depth - 1
        else depth
      if newDepth == 0 then state.bump else skipGroup newDepth bound state.bump

def skipOne (state : ParserState) : ParserState :=
  if openDelimiters.contains state.current.kind then skipGroup 0 state.cursor.ahead state
  else state.bump

/-- Skip to a synchronization point. The tokens ahead bound the number of steps. -/
def synchronizeWithin (resync : Bool) : List Stop → ParserState → ParserState
  | bound, state =>
      if statementBoundary.contains state.current.kind then state
      else if state.current.kind == .semicolon then state.bump
      else if resync && state.cursor.isAtDeclaration then state
      else
        match bound with
        | [] => state
        | _ :: rest => synchronizeWithin resync rest state.skipOne

/-- Skip to a synchronization point; with `resync` the start of a declaration is one. -/
def synchronize (resync : Bool) (state : ParserState) : ParserState :=
  synchronizeWithin resync state.cursor.ahead state

/-- Turn everything since a checkpoint into an error node, skip to a synchronization point and report
the error. At least one token is consumed, unless a semicolon or the end follows. -/
def recover (resync : Bool) (checkpoint : Checkpoint) (position : Nat) (error : SyntaxError)
    (state : ParserState) : ParserState :=
  let builder :=
    ((state.builder.dissolveTo checkpoint.depth).startAt checkpoint .error).clearFields
  let opened := { state with builder := builder }
  let isStuck := opened.cursor.position == position && !opened.isAtEnd
    && opened.current.kind != .semicolon
  let moved := if isStuck then opened.skipOne else opened
  let settled := moved.synchronize resync
  { settled with builder := settled.builder.finish }.report error

end ParserState

end JaiSyntax

import JaiSyntax.Parse
/-!
A parse that audits itself. It is the parse of a source with a check in front of every call that relies on
its caller: a scanner of comments expects its opener, the scanner of a heredoc body a delimiter, the cursor
that all extras before its token are handed out, and the builder that a checkpoint is used in the node in
which it was taken. Where a check fails the audit has no result.
-/

set_option autoImplicit false

namespace JaiSyntax

/-! ### The lexer -/

/-- The lexemes that start with a fixed spelling. A comment has its opener in front. -/
def auditFixed (character : Char) (text : List Char) : Option (List Lexeme) :=
  match fixedSpelling? text with
  | some (_, .lineComment) =>
      if ['/', '/'].isPrefixOf text then some [lineCommentLexeme text] else none
  | some (_, .blockComment) =>
      if ['/', '*'].isPrefixOf text then some [blockCommentLexeme text] else none
  | _ => some (fixedLexemes character text)

/-- A heredoc from its directive. The delimiter of a body is not empty. -/
def auditHeredoc (length : Nat) (text : List Char) : Option (List Lexeme) :=
  let after := text.drop length
  let (blanks, size) := heredocDelimiter after
  if size != 0 && ((after.drop blanks).take size).isEmpty then none
  else some (heredocLexemes length text)

def auditDirective (text : List Char) : Option (List Lexeme) :=
  let word := wordLength (text.drop 1)
  if word != 0 && text.take (word + 1) == heredocDirective then auditHeredoc (word + 1) text
  else some (directiveLexemes text)

def auditFront (character : Char) (rest : List Char) : Option (List Lexeme) :=
  let text := character :: rest
  if whiteSpaceLength text != 0 || wordLength text != 0 || character.isDigit then
    some (frontLexemes character rest)
  else if character == '#' then auditDirective text
  else if character == '@' && wordLength rest != 0 then some (frontLexemes character rest)
  else auditFixed character text

def auditLexemesFrom : List Char → List Char → Option (List Lexeme)
  | _, [] => some []
  | [], _ => some []
  | _ :: bound, character :: rest => do
      let front ← auditFront character rest
      let later ← auditLexemesFrom bound ((character :: rest).drop (lexemesLength front))
      some (front ++ later)

def auditLex (source : List Char) : Option Lexed := do
  let pieces ← auditLexemesFrom source source
  some
    { tokens := tokensFrom 0 pieces ++ [.endOfFile (utf8Length source)]
      errors := lexErrorsFrom 0 pieces }

/-! ### The token cursor -/

/-- The places of the significant tokens among all tokens, counted from `index` on. -/
def significantFrom (index : Nat) : List Token → List Token → List Nat
  | _, [] => []
  | [], _ => []
  | _ :: bound, token :: rest =>
      if token.kind == .eof then []
      else if token.kind.isExtra then significantFrom (index + 1) bound rest
      else if isDeprecation token then
        let length := noticeLength rest
        significantFrom (index + 1 + length) bound (rest.drop length)
      else index :: significantFrom (index + 1) bound rest

/-- A state of a parse, and how many tokens were handed out so far. -/
structure Tally where
  state : ParserState
  emitted : Nat

namespace Tally

def flush (tally : Tally) : Tally :=
  ⟨tally.state.flush, tally.emitted + (tally.state.cursor.takeExtras.1.flatMap Extra.tokens).length⟩

section Moves

variable (significant : List Nat)

/-- Consume the current token. It is the first token that was not handed out yet. -/
def advance (change : Token → Token) (tally : Tally) : Option Tally :=
  if significant[tally.state.cursor.position]? = some tally.emitted then
    let (token, cursor) := tally.state.cursor.advance
    some ⟨{ tally.state with
      cursor := cursor
      builder := tally.state.builder.pushToken (change token) }, tally.emitted + 1⟩
  else none

def bumpAs (change : Token → Token) (tally : Tally) : Option Tally :=
  let flushed := tally.flush
  if flushed.state.isAtEnd then some flushed else flushed.advance significant change

def bump (tally : Tally) : Option Tally := tally.bumpAs significant id

def mark (tally : Tally) : Checkpoint × Tally :=
  (tally.state.mark.1, ⟨tally.state.mark.2, tally.flush.emitted⟩)

def openNode (tally : Tally) (kind : NodeKind) : Tally :=
  ⟨tally.state.openNode kind, tally.flush.emitted⟩

/-- Open a node around everything pushed since a checkpoint, which was taken in the innermost node. -/
def openNodeAt (tally : Tally) (checkpoint : Checkpoint) (kind : NodeKind) : Option Tally :=
  if checkpoint.depth = tally.state.builder.depth then
    some ⟨tally.state.openNodeAt checkpoint kind, tally.emitted⟩
  else none

def apply (scope : Scope) (tally : Tally) (move : Move) : Option Tally :=
  match move with
  | .bump => tally.bump significant
  | .bumpKeyword => tally.bumpAs significant (fun token => token.retag .keyword)
  | move => some ⟨tally.state.apply scope move, tally.emitted⟩

def skipGroup (depth : Nat) : List Stop → Tally → Option Tally
  | [], tally => some tally
  | _ :: bound, tally => do
      let kind := tally.state.current.kind
      let newDepth :=
        if openDelimiters.contains kind then depth + 1
        else if closeDelimiters.contains kind then depth - 1
        else depth
      let moved ← tally.bump significant
      if newDepth == 0 then some moved else skipGroup newDepth bound moved

def skipOne (tally : Tally) : Option Tally :=
  if openDelimiters.contains tally.state.current.kind then
    tally.skipGroup significant 0 tally.state.cursor.ahead
  else tally.bump significant

def synchronizeWithin (resync : Bool) : List Stop → Tally → Option Tally
  | bound, tally =>
      if statementBoundary.contains tally.state.current.kind then some tally
      else if tally.state.current.kind == .semicolon then tally.bump significant
      else if resync && tally.state.cursor.isAtDeclaration then some tally
      else
        match bound with
        | [] => some tally
        | _ :: rest => do
            let moved ← tally.skipOne significant
            synchronizeWithin resync rest moved

/-- Skip a token, or a group, if recovery is stuck. -/
def unstick (stuck : Bool) (tally : Tally) : Option Tally :=
  if stuck then tally.skipOne significant else some tally

def recover (resync : Bool) (checkpoint : Checkpoint) (position : Nat) (error : SyntaxError)
    (tally : Tally) : Option Tally := do
  let dissolved : Tally := { tally with
    state := { tally.state with builder := tally.state.builder.dissolveTo checkpoint.depth } }
  let wrapped ← dissolved.openNodeAt checkpoint .error
  let opened : Tally := { wrapped with
    state := { wrapped.state with builder := wrapped.state.builder.clearFields } }
  let isStuck := opened.state.cursor.position == position && !opened.state.isAtEnd
    && opened.state.current.kind != .semicolon
  let moved ← opened.unstick significant isStuck
  let settled ← moved.synchronizeWithin significant resync moved.state.cursor.ahead
  some ⟨settled.state.closeNode.report error, settled.emitted⟩

end Moves

end Tally

/-! ### The parser -/

/-- An outcome, and how many tokens were handed out before it. -/
abbrev Audited (α : Type) : Type := Option (Outcome α × Nat)

namespace Audited

def done {α : Type} (value : α) (tally : Tally) : Audited α :=
  some (.done value tally.state, tally.emitted)

def andThen {α β : Type} (audited : Audited α) (next : α → Tally → Audited β) : Audited β :=
  match audited with
  | none => none
  | some (.done value state, emitted) => next value ⟨state, emitted⟩
  | some (.failed error state, emitted) => some (.failed error state, emitted)

def closeNode {α : Type} (audited : Audited α) : Audited α :=
  audited.map (fun (outcome, emitted) => (outcome.closeNode, emitted))

def iterate (step : Tally → Audited Bool) : List Stop → Tally → Audited Unit
  | bound, tally =>
      (step tally).andThen (fun goesOn next =>
        if goesOn then
          match bound with
          | [] => done () next
          | _ :: rest => iterate step rest next
        else done () next)

end Audited

def Production.audit (significant : List Nat) (resync : Bool)
    (enter : Entry → Scope → Tally → Audited Unit) {α : Type} (production : Production α)
    (scope : Scope) (tally : Tally) : Audited α :=
  match production with
  | .pure value => .done value tally
  | .bind first next =>
      (audit significant resync enter first scope tally).andThen
        (fun value reached => audit significant resync enter (next value) scope reached)
  | .look read => .done (read (tally.state.view scope)) tally
  | .act move => (tally.apply significant scope move).bind (Audited.done ())
  | .refuse complaint => some (.failed (tally.state.errorOf scope complaint) tally.state, tally.emitted)
  | .within change body =>
      audit significant resync enter body { scope with context := change scope.context } tally
  | .node kind body =>
      (audit significant resync enter body scope (tally.openNode kind)).closeNode
  | .marked body =>
      let (checkpoint, flushed) := tally.mark
      audit significant resync enter body { scope with mark := checkpoint } flushed
  | .wrap kind body =>
      (tally.openNodeAt scope.mark kind).bind (fun opened =>
        (audit significant resync enter body scope opened).closeNode)
  | .opened body =>
      audit significant resync enter body { scope with opener := tally.state.current.span } tally
  | .guarded body =>
      let (checkpoint, flushed) := tally.mark
      match audit significant resync enter body scope flushed with
      | none => none
      | some (.done _ state, emitted) => some (.done () state, emitted)
      | some (.failed error state, emitted) =>
          (Tally.recover significant resync checkpoint flushed.state.cursor.position error
            ⟨state, emitted⟩).bind (Audited.done ())
  | .repeatedly body =>
      Audited.iterate (audit significant resync enter body scope) tally.state.cursor.ahead tally
  | .enter entry => enter entry scope tally
termination_by structural production

def auditEntry (significant : List Nat) (resync : Bool) : Nat → Entry → Scope → Tally → Audited Unit
  | 0, entry, scope, tally =>
      some (.failed (tally.state.errorOf scope (.expected entry.expectation)) tally.state, tally.emitted)
  | depth + 1, entry, scope, tally =>
      (Production.ofEntry entry).audit significant resync (auditEntry significant resync depth) scope
        tally

def auditParsed (significant : List Nat) (resync : Bool) (tally : Tally) : Option ParserState :=
  match Production.sourceFile.audit significant resync
      (auditEntry significant resync tally.state.nesting) .outermost tally with
  | none => none
  | some (.done _ last, _) => some last.flush
  | some (.failed error last, _) => some (last.report error).flush

def auditParse (options : ParseOptions) (source : List Char) : Option Parse := do
  let size := utf8Length source
  let lexed ← auditLex source
  let last ← auditParsed (significantFrom 0 lexed.tokens lexed.tokens) options.resyncOnDeclaration
    ⟨.initial size lexed.tokens, 0⟩
  let errors := sortErrors lexed.errors last.reported
  some
    { tree := last.builder.finishRoot
      errors := match options.maxErrors with
        | none => errors
        | some limit => limitErrors size limit errors }

end JaiSyntax

import JaiSyntax.Parser.Recovery
import JaiSyntax.Production.Basic
/-!
Running a production. A production that fails stops where it is, with the nodes it opened still open;
the guard around it turns them into an error node. The run is by recursion on the production, and what
an entry stands for is a parameter.
-/

set_option autoImplicit false

namespace JaiSyntax

inductive Outcome (α : Type) where
  | done (value : α) (state : ParserState)
  | failed (error : SyntaxError) (state : ParserState)

namespace ParserState

def view (state : ParserState) (scope : Scope) : View where
  kindAt distance := (state.cursor.peek distance).kind
  textAt distance := (state.cursor.peek distance).text
  previous := state.cursor.previous.kind
  context := scope.context
  lastNode := state.builder.lastNodeKind?

end ParserState

/-- Repeat a step until it yields `false`. A step that yields `true` consumes a token, so the tokens
ahead bound the number of steps. -/
def iterate (step : ParserState → Outcome Bool) : List Stop → ParserState → Outcome Unit
  | bound, state =>
      match step state with
      | .failed error next => .failed error next
      | .done false next => .done () next
      | .done true next =>
          match bound with
          | [] => .done () next
          | _ :: rest => iterate step rest next

namespace Outcome

@[inline] def andThen {α β : Type} (outcome : Outcome α) (next : α → ParserState → Outcome β) :
    Outcome β :=
  match outcome with
  | .done value state => next value state
  | .failed error state => .failed error state

def closeNode {α : Type} : Outcome α → Outcome α
  | .done value state => .done value state.closeNode
  | .failed error state => .failed error state

end Outcome

namespace Production

/-- Run a production. The start of a declaration ends an error if `resync` is set; `enter` says what
the entries stand for. -/
def run (resync : Bool) (enter : Entry → Scope → ParserState → Outcome Unit) {α : Type}
    (production : Production α) (scope : Scope) (state : ParserState) : Outcome α :=
  match production with
  | .pure value => .done value state
  | .bind first next =>
      (run resync enter first scope state).andThen
        (fun value reached => run resync enter (next value) scope reached)
  | .look read => .done (read (state.view scope)) state
  | .act move => .done () (state.apply scope move)
  | .refuse complaint => .failed (state.errorOf scope complaint) state
  | .within change body =>
      run resync enter body { scope with context := change scope.context } state
  | .node kind body => (run resync enter body scope (state.openNode kind)).closeNode
  | .marked body =>
      let (checkpoint, flushed) := state.mark
      run resync enter body { scope with mark := checkpoint } flushed
  | .wrap kind body => (run resync enter body scope (state.openNodeAt scope.mark kind)).closeNode
  | .opened body => run resync enter body { scope with opener := state.current.span } state
  | .guarded body =>
      let (checkpoint, flushed) := state.mark
      match run resync enter body scope flushed with
      | .done _ state => .done () state
      | .failed error state =>
          .done () (state.recover resync checkpoint flushed.cursor.position error)
  | .repeatedly body => iterate (run resync enter body scope) state.cursor.ahead state
  | .enter entry => enter entry scope state
termination_by structural production

variable {α β : Type} (resync : Bool) (enter : Entry → Scope → ParserState → Outcome Unit)

end Production

end JaiSyntax

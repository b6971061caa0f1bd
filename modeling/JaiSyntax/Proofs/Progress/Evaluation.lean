import JaiSyntax.Parse
import JaiSyntax.Proofs.Progress.Recovery
/-!
Evaluation without bounds. A run bounds how often a loop repeats and how deep entries nest; an
evaluation bounds neither, so it exists only where the grammar itself comes to an end. The calls of a
production are the productions that are evaluated for it.
-/

set_option autoImplicit false

namespace JaiSyntax

namespace Outcome

variable {α : Type}

def state : Outcome α → ParserState
  | .done _ state => state
  | .failed _ state => state

@[simp] theorem cursor_closeNode (outcome : Outcome α) :
    outcome.closeNode.state.cursor = outcome.state.cursor := by
  cases outcome <;> rfl

end Outcome

/-- Evaluation of a production. A loop repeats until a round yields `false`, and an entry stands for its
production. -/
inductive Evaluates (resync : Bool) :
    {α : Type} → Production α → Scope → ParserState → Outcome α → Prop
  | pure {α : Type} (value : α) (scope : Scope) (state : ParserState) :
      Evaluates resync (.pure value) scope state (.done value state)
  | bind {α β : Type} {first : Production α} {next : α → Production β} {scope : Scope}
      {state reached : ParserState} {value : α} {outcome : Outcome β} :
      Evaluates resync first scope state (.done value reached) →
      Evaluates resync (next value) scope reached outcome →
      Evaluates resync (.bind first next) scope state outcome
  | bindFailed {α β : Type} {first : Production α} {next : α → Production β} {scope : Scope}
      {state reached : ParserState} {error : SyntaxError} :
      Evaluates resync first scope state (.failed error reached) →
      Evaluates resync (.bind first next) scope state (.failed error reached)
  | look {α : Type} (read : View → α) (scope : Scope) (state : ParserState) :
      Evaluates resync (.look read) scope state (.done (read (state.view scope)) state)
  | act (move : Move) (scope : Scope) (state : ParserState) :
      Evaluates resync (.act move) scope state (.done () (state.apply scope move))
  | refuse {α : Type} (complaint : Complaint) (scope : Scope) (state : ParserState) :
      Evaluates resync (.refuse complaint : Production α) scope state
        (.failed (state.errorOf scope complaint) state)
  | within {α : Type} {change : Context → Context} {body : Production α} {scope : Scope}
      {state : ParserState} {outcome : Outcome α} :
      Evaluates resync body { scope with context := change scope.context } state outcome →
      Evaluates resync (.within change body) scope state outcome
  | node {α : Type} {kind : NodeKind} {body : Production α} {scope : Scope} {state : ParserState}
      {outcome : Outcome α} :
      Evaluates resync body scope (state.openNode kind) outcome →
      Evaluates resync (.node kind body) scope state outcome.closeNode
  | marked {α : Type} {body : Production α} {scope : Scope} {state : ParserState}
      {outcome : Outcome α} :
      Evaluates resync body { scope with mark := state.mark.1 } state.mark.2 outcome →
      Evaluates resync (.marked body) scope state outcome
  | wrap {α : Type} {kind : NodeKind} {body : Production α} {scope : Scope} {state : ParserState}
      {outcome : Outcome α} :
      Evaluates resync body scope (state.openNodeAt scope.mark kind) outcome →
      Evaluates resync (.wrap kind body) scope state outcome.closeNode
  | opened {α : Type} {body : Production α} {scope : Scope} {state : ParserState}
      {outcome : Outcome α} :
      Evaluates resync body { scope with opener := state.current.span } state outcome →
      Evaluates resync (.opened body) scope state outcome
  | guarded {body : Production Unit} {scope : Scope} {state reached : ParserState} :
      Evaluates resync body scope state.mark.2 (.done () reached) →
      Evaluates resync (.guarded body) scope state (.done () reached)
  | recovered {body : Production Unit} {scope : Scope} {state reached last : ParserState}
      {error : SyntaxError} :
      Evaluates resync body scope state.mark.2 (.failed error reached) →
      reached.Recovers resync state.mark.1 state.mark.2.cursor.position error last →
      Evaluates resync (.guarded body) scope state (.done () last)
  | roundFailed {body : Production Bool} {scope : Scope} {state reached : ParserState}
      {error : SyntaxError} :
      Evaluates resync body scope state (.failed error reached) →
      Evaluates resync (.repeatedly body) scope state (.failed error reached)
  | lastRound {body : Production Bool} {scope : Scope} {state reached : ParserState} :
      Evaluates resync body scope state (.done false reached) →
      Evaluates resync (.repeatedly body) scope state (.done () reached)
  | round {body : Production Bool} {scope : Scope} {state reached : ParserState}
      {outcome : Outcome Unit} :
      Evaluates resync body scope state (.done true reached) →
      Evaluates resync (.repeatedly body) scope reached outcome →
      Evaluates resync (.repeatedly body) scope state outcome
  | enter {entry : Entry} {scope : Scope} {state : ParserState} {outcome : Outcome Unit} :
      Evaluates resync (Production.ofEntry entry) scope state outcome →
      Evaluates resync (.enter entry) scope state outcome

variable {resync : Bool} {α : Type}

/-- A production evaluates to one outcome at most. -/
theorem Evaluates.unique {production : Production α} {scope : Scope} {state : ParserState}
    {outcome other : Outcome α} (evaluates : Evaluates resync production scope state outcome)
    (evaluatesOther : Evaluates resync production scope state other) : outcome = other := by
  induction evaluates with
  | pure | look | act | refuse => cases evaluatesOther; rfl
  | bind _ _ ihFirst ihNext =>
      cases evaluatesOther with
      | bind first next =>
          cases ihFirst first
          exact ihNext next
      | bindFailed first => cases ihFirst first
  | bindFailed _ ih =>
      cases evaluatesOther with
      | bind first _ => cases ih first
      | bindFailed first =>
          cases ih first
          rfl
  | within _ ih | marked _ ih | opened _ ih | enter _ ih =>
      cases evaluatesOther with
      | _ inner => exact ih inner
  | node _ ih | wrap _ ih =>
      cases evaluatesOther with
      | _ inner => rw [ih inner]
  | guarded _ ih =>
      cases evaluatesOther with
      | guarded inner =>
          cases ih inner
          rfl
      | recovered inner _ => cases ih inner
  | recovered _ recovers ih =>
      cases evaluatesOther with
      | guarded inner => cases ih inner
      | recovered inner recoversOther =>
          cases ih inner
          rw [recovers.unique recoversOther]
  | roundFailed _ ih =>
      cases evaluatesOther with
      | roundFailed body =>
          cases ih body
          rfl
      | lastRound body => cases ih body
      | round body _ => cases ih body
  | lastRound _ ih =>
      cases evaluatesOther with
      | roundFailed body => cases ih body
      | lastRound body =>
          cases ih body
          rfl
      | round body _ => cases ih body
  | round _ _ ihBody ihRest =>
      cases evaluatesOther with
      | roundFailed body => cases ihBody body
      | lastRound body => cases ihBody body
      | round body rest =>
          cases ihBody body
          exact ihRest rest

/-! ### Calls -/

structure Call where
  {Value : Type}
  production : Production Value
  scope : Scope
  state : ParserState

/-- The states before the rounds of a loop, from the state that the loop is called in. -/
inductive Rounds (resync : Bool) (body : Production Bool) (scope : Scope) (start : ParserState) :
    ParserState → Prop
  | first : Rounds resync body scope start start
  | further {state reached : ParserState} :
      Rounds resync body scope start state →
      Evaluates resync body scope state (.done true reached) →
      Rounds resync body scope start reached

/-- Whether a call makes another one. What follows a part is called where that part ended, and the body
of a loop at the start of each round. -/
inductive Calls (resync : Bool) : Call → Call → Prop
  | first {α β : Type} (first : Production α) (next : α → Production β) (scope : Scope)
      (state : ParserState) : Calls resync ⟨.bind first next, scope, state⟩ ⟨first, scope, state⟩
  | next {α β : Type} {first : Production α} {next : α → Production β} {scope : Scope}
      {state reached : ParserState} {value : α} :
      Evaluates resync first scope state (.done value reached) →
      Calls resync ⟨.bind first next, scope, state⟩ ⟨next value, scope, reached⟩
  | within {α : Type} (change : Context → Context) (body : Production α) (scope : Scope)
      (state : ParserState) :
      Calls resync ⟨.within change body, scope, state⟩
        ⟨body, { scope with context := change scope.context }, state⟩
  | node {α : Type} (kind : NodeKind) (body : Production α) (scope : Scope) (state : ParserState) :
      Calls resync ⟨.node kind body, scope, state⟩ ⟨body, scope, state.openNode kind⟩
  | marked {α : Type} (body : Production α) (scope : Scope) (state : ParserState) :
      Calls resync ⟨.marked body, scope, state⟩
        ⟨body, { scope with mark := state.mark.1 }, state.mark.2⟩
  | wrap {α : Type} (kind : NodeKind) (body : Production α) (scope : Scope) (state : ParserState) :
      Calls resync ⟨.wrap kind body, scope, state⟩
        ⟨body, scope, state.openNodeAt scope.mark kind⟩
  | opened {α : Type} (body : Production α) (scope : Scope) (state : ParserState) :
      Calls resync ⟨.opened body, scope, state⟩
        ⟨body, { scope with opener := state.current.span }, state⟩
  | guarded (body : Production Unit) (scope : Scope) (state : ParserState) :
      Calls resync ⟨.guarded body, scope, state⟩ ⟨body, scope, state.mark.2⟩
  | round {body : Production Bool} {scope : Scope} {state reached : ParserState} :
      Rounds resync body scope state reached →
      Calls resync ⟨.repeatedly body, scope, state⟩ ⟨body, scope, reached⟩
  | enter (entry : Entry) (scope : Scope) (state : ParserState) :
      Calls resync ⟨.enter entry, scope, state⟩ ⟨.ofEntry entry, scope, state⟩

/-! ### Where an evaluation ends -/

/-- An evaluation goes on from the place of its start. -/
theorem Evaluates.precedes {production : Production α} {scope : Scope} {state : ParserState}
    {outcome : Outcome α} (evaluates : Evaluates resync production scope state outcome)
    (proper : state.cursor.Proper) : state.cursor.Precedes outcome.state.cursor := by
  induction evaluates with
  | pure | look | refuse => exact .refl proper
  | act move scope state => exact ParserState.precedes_apply proper scope move
  | bind _ _ ihFirst ihNext =>
      have front := ihFirst proper
      exact front.trans (ihNext front.proper)
  | within _ ih | opened _ ih | enter _ ih | roundFailed _ ih | lastRound _ ih | bindFailed _ ih =>
      exact ih proper
  | node _ ih =>
      have flushed := TokenCursor.precedes_withoutGap proper
      rw [Outcome.cursor_closeNode]
      exact flushed.trans (ih flushed.proper)
  | wrap _ ih =>
      rw [Outcome.cursor_closeNode]
      exact ih proper
  | marked _ ih | guarded _ ih =>
      have flushed := TokenCursor.precedes_withoutGap proper
      exact flushed.trans (ih flushed.proper)
  | recovered _ recovers ih =>
      have flushed := TokenCursor.precedes_withoutGap proper
      have failed := ih flushed.proper
      exact (flushed.trans failed).trans (recovers.precedes failed.proper)
  | round _ _ ihBody ihRest =>
      have front := ihBody proper
      exact front.trans (ihRest front.proper)

theorem Rounds.precedes {body : Production Bool} {scope : Scope} {start state : ParserState}
    (rounds : Rounds resync body scope start state) (proper : start.cursor.Proper) :
    start.cursor.Precedes state.cursor := by
  induction rounds with
  | first => exact .refl proper
  | further _ evaluates ih => exact ih.trans (evaluates.precedes ih.proper)

/-- A call is made at the place of the call that makes it or further on. -/
theorem Calls.precedes {caller callee : Call} (calls : Calls resync caller callee)
    (proper : caller.state.cursor.Proper) : caller.state.cursor.Precedes callee.state.cursor := by
  cases calls with
  | first | within | wrap | opened | enter => exact .refl proper
  | next evaluates => exact evaluates.precedes proper
  | node | marked | guarded => exact TokenCursor.precedes_withoutGap proper
  | round rounds => exact rounds.precedes proper

end JaiSyntax

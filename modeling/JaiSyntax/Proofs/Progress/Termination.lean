import JaiSyntax.Proofs.Progress.Evaluation
import JaiSyntax.Proofs.Progress.Grammar
/-!
Progress and termination. A steady production comes to its end: every round of its loops and every entry
consumes a token, and entries enter each other at one token in the order of their ranks. The bounds of a
run are never met, so the run is the evaluation without bounds.
-/

set_option autoImplicit false

namespace JaiSyntax

variable {resync : Bool} {α : Type}

/-! ### Where nothing is consumed -/

/-- Whether `after` holds of the value that was yielded if no token was consumed from `start` on. -/
def Outcome.Stays (start : TokenCursor) (after : α → Prop) : Outcome α → Prop
  | .done value state => state.cursor.ahead.length = start.ahead.length → after value
  | .failed _ _ => True

theorem Outcome.stays_closeNode {start : TokenCursor} {after : α → Prop} {outcome : Outcome α}
    (stays : outcome.Stays start after) : outcome.closeNode.Stays start after := by
  cases outcome with
  | done value state => exact stays
  | failed error state => trivial

/-- A production that has consumed nothing ends as its start at these tokens says. -/
theorem Evaluates.stays {production : Production α} {scope : Scope} {state : ParserState}
    {outcome : Outcome α} (evaluates : Evaluates resync production scope state outcome)
    (proper : state.cursor.Proper) {bound : Nat} {after : α → Prop}
    (starts : production.Starts bound state.cursor.view after) :
    outcome.Stays state.cursor after := by
  induction evaluates generalizing bound with
  | pure value => exact fun _ => starts
  | look read scope state => exact fun _ => starts scope.context state.builder.lastNodeKind?
  | act move scope state =>
      refine fun same => starts (fun consumes => ?_)
      by_contra more
      have open_end : state.isAtEnd = false := beq_eq_false_iff_ne.mpr more
      cases move with
      | bump => exact Nat.ne_of_lt (ParserState.shorter_bumpAs proper open_end id) same
      | bumpKeyword => exact Nat.ne_of_lt (ParserState.shorter_bumpAs proper open_end _) same
      | tag | reinterpretLast | spliceParameters | report => cases consumes
  | refuse => trivial
  | @bind α β first next scope state reached value outcome front back ihFirst ihNext =>
      have before := front.precedes proper
      have behind := back.precedes before.proper
      have inner := ihFirst proper starts
      cases outcome with
      | failed error last => trivial
      | done result last =>
          intro same
          have here := before.length_eq behind same
          have next := inner here
          rw [← before.view here] at next
          exact ihNext before.proper next (same.trans here.symm)
  | bindFailed => trivial
  | within _ ih | opened _ ih => exact ih proper starts
  | wrap _ ih => exact Outcome.stays_closeNode (ih proper starts)
  | node _ ih => exact Outcome.stays_closeNode (ih proper.withoutGap starts)
  | marked _ ih => exact ih proper.withoutGap starts
  | guarded _ ih => exact ih proper.withoutGap starts.1
  | @recovered body scope state reached last error failed recovers =>
      have flushed := TokenCursor.precedes_withoutGap proper
      have front : state.cursor.Precedes reached.cursor :=
        flushed.trans (failed.precedes flushed.proper)
      exact fun same => starts.2 (ParserState.Recovers.ended recovers front same)
  | roundFailed => trivial
  | lastRound _ ih => exact fun same => (ih proper starts same).2
  | @round body scope state reached outcome front back ihBody =>
      have before := front.precedes proper
      have behind := back.precedes before.proper
      have inner := ihBody proper starts
      cases outcome with
      | failed error last => trivial
      | done result last =>
          intro same
          have here := before.length_eq behind same
          exact absurd (inner here).1 (by decide)
  | @enter entry scope state outcome _ ih =>
      have inner := ih proper (Production.advances_ofEntry entry state.cursor.view)
      cases outcome with
      | done value reached => exact fun same => (inner same).elim
      | failed error reached => trivial

/-- What consumes a token or fails moves on, if it does not fail. -/
theorem Evaluates.moves {production : Production α} {scope : Scope} {state reached : ParserState}
    {value : α} (evaluates : Evaluates resync production scope state (.done value reached))
    (proper : state.cursor.Proper) {bound : Nat}
    (advances : production.Advances bound state.cursor.view) :
    state.cursor.position < reached.cursor.position :=
  (evaluates.precedes proper).position_lt (evaluates.stays proper advances)

/-- What consumes a token or only looks moves on, if it does not leave the state as it was. -/
theorem Evaluates.idles {production : Production α} {scope : Scope} {state reached : ParserState}
    {value : α} (evaluates : Evaluates resync production scope state (.done value reached))
    (proper : state.cursor.Proper) {after : α → Prop}
    (idles : production.Idles state.cursor.view after) :
    state.cursor.position < reached.cursor.position ∨ after value ∧ reached = state := by
  induction production generalizing state reached with
  | pure =>
      cases evaluates
      exact Or.inr ⟨idles, rfl⟩
  | look =>
      cases evaluates
      exact Or.inr ⟨idles scope.context _, rfl⟩
  | bind first next ihFirst ihNext =>
      rcases idles with looks | advances
      · cases evaluates with
        | bind front back =>
            rcases ihFirst front proper looks with moved | ⟨further, rfl⟩
            · have behind := back.precedes (front.precedes proper).proper
              exact Or.inl (Nat.lt_of_lt_of_le moved behind.position_le)
            · exact ihNext _ back proper further
      · exact Or.inl (evaluates.moves proper advances)
  | act | refuse | within | node | marked | wrap | opened | guarded | repeatedly | enter =>
      have advances : Production.Advances 3 _ state.cursor.view := idles
      exact Or.inl (evaluates.moves proper advances)

/-! ### Runs within their bounds -/

section Runs

variable {enter : Entry → Scope → ParserState → Outcome Unit} {depth : Nat}

def EntriesEvaluate (resync : Bool) (depth : Nat)
    (enter : Entry → Scope → ParserState → Outcome Unit) : Prop :=
  ∀ (entry : Entry) (scope : Scope) (state : ParserState), state.cursor.Proper →
    3 * state.cursor.ahead.length + entry.rank < depth →
      Evaluates resync (.enter entry) scope state (enter entry scope state)

/-- A round after which its loop goes on leaves fewer tokens ahead. -/
theorem Evaluates.shorter {body : Production Bool} {scope : Scope} {state next : ParserState}
    (evaluates : Evaluates resync body scope state (.done true next)) (proper : state.cursor.Proper)
    {limit : Nat} (starts : body.Starts limit state.cursor.view (fun goesOn => goesOn = false)) :
    next.cursor.ahead.length < state.cursor.ahead.length :=
  Nat.lt_of_le_of_ne (evaluates.precedes proper).shorter
    (fun same => absurd (evaluates.stays proper starts same) (by decide))

/-- A loop is evaluated if its rounds are and each of them that goes on consumes a token. -/
theorem iterate_evaluates {body : Production Bool} {scope : Scope} {step : ParserState → Outcome Bool}
    (rounds : ∀ view, body.Starts 3 view (fun goesOn => goesOn = false))
    (evaluates : ∀ (limit : Nat) (state : ParserState), state.cursor.Proper →
      body.Starts limit state.cursor.view (fun goesOn => goesOn = false) →
        3 * state.cursor.ahead.length + limit ≤ depth →
          Evaluates resync body scope state (step state))
    {limit : Nat} {state : ParserState} (proper : state.cursor.Proper)
    (starts : body.Starts limit state.cursor.view (fun goesOn => goesOn = false))
    (enough : 3 * state.cursor.ahead.length + limit ≤ depth) {bound : List Stop}
    (longer : state.cursor.ahead.length ≤ bound.length) :
    Evaluates resync (.repeatedly body) scope state (iterate step bound state) := by
  induction bound generalizing limit state with
  | nil =>
      have round := evaluates limit state proper starts enough
      unfold iterate
      cases ended : step state with
      | failed error next => exact .roundFailed (ended ▸ round)
      | done goesOn next =>
          rw [ended] at round
          cases goesOn with
          | false => exact .lastRound round
          | true =>
              -- No token is ahead that the round could have consumed.
              have shorter := round.shorter proper starts
              exact absurd (Nat.lt_of_lt_of_le shorter longer) (Nat.not_lt_zero _)
  | cons stop bound ih =>
      have round := evaluates limit state proper starts enough
      unfold iterate
      cases ended : step state with
      | failed error next => exact .roundFailed (ended ▸ round)
      | done goesOn next =>
          rw [ended] at round
          cases goesOn with
          | false => exact .lastRound round
          | true =>
              have shorter := round.shorter proper starts
              rw [List.length_cons] at longer
              exact .round round
                (ih (round.precedes proper).proper (rounds _) (by omega) (by omega))

theorem Production.run_guarded_done {body : Production Unit} {scope : Scope}
    {state reached : ParserState} {value : Unit}
    (ended : body.run resync enter scope state.mark.2 = .done value reached) :
    (guarded body).run resync enter scope state = .done () reached := by
  rw [run]
  split
  next checkpoint flushed marked =>
    rw [marked] at ended
    rw [ended]

theorem Production.run_guarded_failed {body : Production Unit} {scope : Scope}
    {state reached : ParserState} {error : SyntaxError}
    (ended : body.run resync enter scope state.mark.2 = .failed error reached) :
    (guarded body).run resync enter scope state = .done () (reached.recover resync state.mark.1
      state.mark.2.cursor.position error) := by
  rw [run]
  split
  next checkpoint flushed marked =>
    rw [marked] at ended ⊢
    rw [ended]

/-- A steady production is evaluated by its run if the entries where it starts are within the bounds. -/
theorem Production.run_evaluates (entries : EntriesEvaluate resync depth enter)
    {production : Production α} (steady : production.Steady) (scope : Scope) (state : ParserState)
    (proper : state.cursor.Proper) {limit : Nat} {after : α → Prop}
    (starts : production.Starts limit state.cursor.view after)
    (enough : 3 * state.cursor.ahead.length + limit ≤ depth) :
    Evaluates resync production scope state (production.run resync enter scope state) := by
  induction production generalizing limit scope state with
  | pure value => exact .pure value scope state
  | look read => exact .look read scope state
  | act move => exact .act move scope state
  | refuse complaint => exact .refuse complaint scope state
  | within change body ih => exact .within (ih steady _ state proper starts enough)
  | node kind body ih =>
      exact .node (ih steady scope (state.openNode kind) proper.withoutGap starts enough)
  | marked body ih => exact .marked (ih steady _ state.mark.2 proper.withoutGap starts enough)
  | wrap kind body ih =>
      exact .wrap (ih steady scope (state.openNodeAt scope.mark kind) proper starts enough)
  | opened body ih => exact .opened (ih steady _ state proper starts enough)
  | enter entry =>
      exact entries entry scope state proper (Nat.lt_of_lt_of_le (Nat.add_lt_add_left starts _) enough)
  | bind first next ihFirst ihNext =>
      have front := ihFirst steady.1 scope state proper starts enough
      rw [run]
      cases ended : first.run resync enter scope state with
      | failed error reached => exact .bindFailed (ended ▸ front)
      | done value reached =>
          rw [ended] at front
          have precedes : state.cursor.Precedes reached.cursor := front.precedes proper
          have shorter := precedes.shorter
          refine .bind front ?_
          by_cases same : reached.cursor.ahead.length = state.cursor.ahead.length
          · have further := front.stays proper starts same
            rw [← precedes.view same] at further
            exact ihNext value (steady.2 value) scope reached precedes.proper further (by omega)
          · -- Behind a token entries of any rank are within the bounds.
            exact ihNext value (steady.2 value) scope reached precedes.proper
              ((steady.2 value).starts _) (by omega)
  | guarded body ih =>
      have inner := ih steady scope state.mark.2 proper.withoutGap starts.1 enough
      cases ended : body.run resync enter scope state.mark.2 with
      | done value reached =>
          rw [ended] at inner
          rw [run_guarded_done ended]
          exact .guarded inner
      | failed error reached =>
          rw [ended] at inner
          rw [run_guarded_failed ended]
          exact .recovered inner (ParserState.recovers_recover resync _ _ error
            (inner.precedes proper.withoutGap).proper)
  | repeatedly body ih =>
      have started : body.Starts limit state.cursor.view (fun goesOn => goesOn = false ∧ after ()) :=
        starts
      have first := started.weaken (Nat.le_refl limit) (fun _ ended => ended.1)
      exact iterate_evaluates (fun view => (steady.2 view).starts)
        (fun _ reached proper starts enough => ih steady.1 scope reached proper starts enough) proper
        first enough (Nat.le_refl _)

end Runs

/-- Entries are evaluated by their runs as far as the depth allows. -/
theorem runEntry_evaluates (resync : Bool) (depth : Nat) :
    EntriesEvaluate resync depth (runEntry resync depth) := by
  induction depth with
  | zero => exact fun _ _ _ _ few => (Nat.not_lt_zero _ few).elim
  | succ depth ih =>
      intro entry scope state proper few
      exact .enter (Production.run_evaluates ih (Production.steady_ofEntry entry) scope state proper
        (Production.advances_ofEntry entry state.cursor.view) (Nat.le_of_lt_succ few))

/-- A steady production comes to its end, and within the bounds that the tokens ahead set. -/
theorem Production.Steady.evaluates {production : Production α} (steady : production.Steady)
    (resync : Bool) (scope : Scope) (state : ParserState) (proper : state.cursor.Proper) :
    Evaluates resync production scope state
      (production.run resync (runEntry resync state.nesting) scope state) :=
  Production.run_evaluates (runEntry_evaluates resync state.nesting) steady scope state proper
    (steady.starts state.cursor.view) (Nat.le_refl _)

/-! ### Productions that do not fail -/

namespace Production

/-- Whether a production leaves what may fail in it to guards. -/
def Succeeds {α : Type} (production : Production α) : Prop :=
  match production with
  | .pure _ | .look _ | .act _ | .guarded _ => True
  | .bind first next => first.Succeeds ∧ ∀ value, (next value).Succeeds
  | .refuse _ | .enter _ => False
  | .within _ body | .node _ body | .marked body | .wrap _ body | .opened body | .repeatedly body =>
      body.Succeeds
termination_by structural production

theorem succeeds_eat (kind : TokenKind) : (eat kind).Succeeds := by
  refine ⟨trivial, fun here => ?_⟩
  cases here with
  | true => exact ⟨trivial, fun _ => trivial⟩
  | false => exact trivial

/-- A statement in a list that fails becomes an error node. -/
theorem succeeds_listedStatement : listedStatement.Succeeds := by
  refine ⟨succeeds_eat _, fun taken => ?_⟩
  cases taken <;> exact trivial

theorem succeeds_sourceFile : sourceFile.Succeeds := by
  refine ⟨trivial, fun more => ?_⟩
  cases more with
  | true => exact ⟨succeeds_listedStatement, fun _ => trivial⟩
  | false => exact trivial

end Production

/-- What is left to guards does not fail. -/
theorem Evaluates.done {production : Production α} {scope : Scope} {state : ParserState}
    {outcome : Outcome α} (evaluates : Evaluates resync production scope state outcome)
    (succeeds : production.Succeeds) : ∃ value last, outcome = .done value last := by
  induction evaluates with
  | pure | look | act | guarded | recovered | lastRound => exact ⟨_, _, rfl⟩
  | refuse => exact succeeds.elim
  | bind _ _ _ ihNext => exact ihNext (succeeds.2 _)
  | bindFailed _ ih =>
      obtain ⟨value, last, same⟩ := ih succeeds.1
      cases same
  | within _ ih | marked _ ih | opened _ ih => exact ih succeeds
  | node _ ih | wrap _ ih =>
      obtain ⟨value, last, rfl⟩ := ih succeeds
      exact ⟨value, last.closeNode, rfl⟩
  | roundFailed _ ih =>
      obtain ⟨value, last, same⟩ := ih succeeds
      cases same
  | round _ _ _ ihRest => exact ihRest succeeds
  | enter => exact succeeds.elim

end JaiSyntax
